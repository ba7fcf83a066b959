import MzzPlork.Theory.Resume

/-!
# Stale Partial Files

A download that finds a partial file of something else, from a server that
never drops the connection.

With nothing cut off there is one attempt. A partial file as long as the
content or longer is discarded first, so the attempt asks for everything and
gets it. A shorter one is resumed from whatever it holds, and what arrives
behind it completes the content only if the file was the beginning of it.
Otherwise the checks fail, and they come after the loop: the partial file is
removed, but the attempts left are not made.

Nothing is asked of the disk. Where one of the two files cannot be written the
call does not succeed either, so `recovered_iff` lists that with the rest.

## Main definitions

* `Steady`: A server that serves one content and drops no connection.
* `Recovered`: The call succeeded, with the content in place.
* `Recoverable`: The state before the call it succeeds from.

## Theorems

* `startDownload_spec`: The loop's variables before the first attempt.
* `attemptOnce_steady`: The attempt that ends the loop.
* `attempts_blocked`: Without a writable partial file no attempt gets anywhere.
* `finalize_iff`: What the checks let through.
* `recovered_iff`: When the call succeeds.
* `not_recovered_shorter`: A shorter partial file of something else.
-/

namespace MzzPlork

namespace Http

/-- A `Content-Length` that was not readable as a number, or is true. -/
def Announced (contentLength : Option UInt32) (body : Bytes) : Prop :=
  contentLength = none ∨ contentLength = some (UInt32.ofNat body.length)

/-- A server that drops no connection: plain requests are answered with `C`,
    requests for a range inside it with the rest, and others with 416. -/
structure Steady (C : Bytes) (server : List HttpRequest → Reply) : Prop where
  plain : ∀ history req, req.rangeFrom = none → ∃ contentLength,
    server (history ++ [req]) = .response 200 contentLength C none ∧ Announced contentLength C
  inside : ∀ history req offset, req.rangeFrom = some offset → offset < C.length →
    ∃ contentLength,
      server (history ++ [req]) = .response 206 contentLength (C.drop offset) none ∧
        Announced contentLength (C.drop offset)
  beyond : ∀ history req offset, req.rangeFrom = some offset → C.length ≤ offset →
    ∃ contentLength body readError,
      server (history ++ [req]) = .response 416 contentLength body readError

/-- The call succeeded and left the content in place. -/
def Recovered (C : Bytes) (request : DownloadRequest) (out : World × Option DownloadResult) :
    Prop :=
  ∃ result, out.2 = some result ∧ result.ok = true ∧
    out.1.disk.content (locOf request.destPath) = some C

/-- What the partial file holds, nothing where there is none. -/
def partialContent (destPath : Bytes) (d : ClientDisk) : Bytes :=
  (d.content (stagingOf destPath)).getD []

/-- The content is in place already; or nothing there passes for it, both files
    can be written, and the partial file is too long to be resumed from or the
    beginning of the content. -/
def Recoverable (env : Env) (C : Bytes) (request : DownloadRequest) (w : World) : Prop :=
  w.disk.content (locOf request.destPath) = some C ∨
    (fileMatchesExpected env w request.destPath request.expectedSize request.expectedHashHex
        = false ∧
      Writable (createDirectories w.disk request.destPath) request.destPath ∧
      (C.length ≤ (partialContent request.destPath w.disk).length ∨
        partialContent request.destPath w.disk <+: C))

section Call

variable (env : Env) (C : Bytes) (request : DownloadRequest)

/-- What is left of a partial file to resume from. -/
def resumedFrom (w : World) : Bytes :=
  let p := partialContent request.destPath w.disk
  if C.length ≤ p.length then [] else p

/-- The loop's variables before the first attempt: the directories have been
    made, and a partial file that is too long is gone. -/
theorem startDownload_spec (w : World) (hpos : 0 < C.length)
    (hsize : request.expectedSize = C.length) :
    partialContent request.destPath (startDownload request w).world.disk
        = resumedFrom C request w ∧
      (startDownload request w).offset = (resumedFrom C request w).length ∧
      ∀ l, (startDownload request w).world.disk.isDir l
        = (createDirectories w.disk request.destPath).isDir l := by
  have hcontent := content_createDirectories request.destPath w.disk
    (stagingOf request.destPath)
  cases hc : w.disk.content (stagingOf request.destPath) with
  | none =>
      rw [hc] at hcontent
      have hnothing : partialContent request.destPath w.disk = [] := by
        rw [partialContent, hc, Option.getD_none]
      rw [resumedFrom, hnothing, ite_self, startDownload, initialOffset]
      simp only [fsFileSize, partialContent, hcontent, Option.map_none, Option.getD_none]
      exact ⟨trivial, rfl, fun _ => trivial⟩
  | some p =>
      rw [hc] at hcontent
      have hpart : partialContent request.destPath w.disk = p := by
        rw [partialContent, hc, Option.getD_some]
      rw [resumedFrom, hpart, startDownload, initialOffset]
      simp only [fsFileSize, partialContent, hcontent, Option.map_some]
      by_cases hlong : C.length ≤ p.length
      · rw [if_pos hlong, if_pos (by omega)]
        -- The partial file is a file, so removing it takes no directory away.
        have hfile := Disk.isDir_of_content _ _ _ hcontent
        rw [removePath, Disk.erase_of_file _ _ hfile]
        refine ⟨?_, rfl, fun l => Disk.isDir_remove _ _ l⟩
        simp only [Disk.content_remove, if_true, Option.getD_none]
      · rw [if_neg hlong, if_neg (by omega)]
        refine ⟨?_, rfl, fun _ => rfl⟩
        simp only [hcontent, Option.getD_some]

/-- What an attempt asks a steady server for, and gets. -/
theorem reply_steady (hserver : Steady C env.server) (s : LoopState) (before : Bytes)
    (hbefore : before.length < C.length) (hoffset : s.offset = before.length) :
    ∃ status contentLength,
      env.server (s.world.requests ++ [rangeRequest request s.offset])
        = .response status contentLength (C.drop before.length) none ∧
      Announced contentLength (C.drop before.length) ∧
      (status = 206 ∧ before ≠ [] ∨ status = 200 ∧ before = []) := by
  by_cases hnil : before = []
  · subst hnil
    rcases hserver.plain s.world.requests (rangeRequest request s.offset) (by
      rw [rangeRequest, hoffset]
      rfl) with ⟨contentLength, hreply, hann⟩
    exact ⟨200, contentLength, hreply, hann, Or.inr ⟨rfl, rfl⟩⟩
  · have hpos := List.length_pos_iff.mpr hnil
    rcases hserver.inside s.world.requests (rangeRequest request s.offset) before.length (by
      rw [rangeRequest]
      simp only [hoffset]
      rw [if_pos (by omega), Int.toNat_natCast]) hbefore with ⟨contentLength, hreply, hann⟩
    exact ⟨206, contentLength, hreply, hann, Or.inl ⟨rfl, hnil⟩⟩

/-- An attempt passes a response with a body on to the part that receives it. -/
theorem performSingleAttempt_body (path : Bytes) (s : LoopState) (status : Nat)
    (contentLength : Option UInt32) (body : Bytes) (hstatus : status = 206 ∨ status = 200)
    (hreply : env.server (s.world.requests ++ [rangeRequest request s.offset])
      = .response status contentLength body none) :
    performSingleAttempt env request path s.offset s.world
      = receiveBody env path status contentLength body none
          { s.world with requests := s.world.requests ++ [rangeRequest request s.offset] } := by
  rw [performSingleAttempt]
  simp only [hreply]
  rw [if_neg (by omega), if_neg (by omega), if_neg (by omega), if_neg (by omega)]

/-- A body that was announced truthfully, or not at all, completes the attempt
    once the partial file could be written. -/
theorem receiveBody_complete (path : Bytes) (status : Nat) (contentLength : Option UInt32)
    (body : Bytes) (w w' : World) (hann : Announced contentLength body)
    (hwrite : writePartial env w path (decide (status = 206)) body = some w') :
    receiveBody env path status contentLength body none w
      = (w', ⟨.completed, [], decide (status = 206)⟩) := by
  rw [receiveBody]
  simp only []
  rw [hwrite]
  rcases hann with rfl | rfl
  · rfl
  · simp only []
    rw [if_neg (not_not_intro rfl)]

/-- The attempt that ends the loop: what is asked for arrives behind what is
    there. -/
theorem attemptOnce_steady (hlocal : Permissive env) (hserver : Steady C env.server)
    (s : LoopState) (before : Bytes) (hbefore : before.length < C.length)
    (hpart : partialContent request.destPath s.world.disk = before)
    (hoffset : s.offset = before.length)
    (hw : s.world.disk.Writable (stagingOf request.destPath)) :
    ∃ s', attemptOnce env request (partialPath request.destPath) s = .completed s' ∧
      s'.world.disk.content (stagingOf request.destPath)
        = some (before ++ C.drop before.length) ∧
      ∀ l, s'.world.disk.isDir l = s.world.disk.isDir l := by
  rcases reply_steady env C request hserver s before hbefore hoffset with
    ⟨status, contentLength, hreply, hann, hstatus⟩
  rcases (s.world.disk.write_eq_some (stagingOf request.destPath)
    (before ++ C.drop before.length)).mpr hw with ⟨disk, hdisk⟩
  -- A plain request is written over the partial file, which is empty then.
  have hold : (if decide (status = 206) = true
      then (s.world.disk.content (winPath.locate (partialPath request.destPath))).getD []
      else []) = before := by
    rcases hstatus with ⟨rfl, _⟩ | ⟨rfl, hnil⟩
    · exact hpart
    · rw [hnil]
      rfl
  have hwrite : writePartial env
      { s.world with requests := s.world.requests ++ [rangeRequest request s.offset] }
      (partialPath request.destPath) (decide (status = 206)) (C.drop before.length)
      = some ⟨disk, s.world.requests ++ [rangeRequest request s.offset]⟩ := by
    rw [writePartial, if_pos (hlocal.canOpen _)]
    simp only []
    rw [hold, hdisk]
    rfl
  have hattempt := performSingleAttempt_body env request (partialPath request.destPath) s status
    contentLength _ (hstatus.imp And.left And.left) hreply
  rw [receiveBody_complete env _ status contentLength _ _ _ hann hwrite] at hattempt
  rw [attemptOnce, hattempt]
  refine ⟨_, rfl, ?_, fun l => s.world.disk.isDir_write disk _ l _ hdisk⟩
  simp only [s.world.disk.content_write disk _ _ _ hdisk, if_true]

/-- An attempt that completes is the last. -/
theorem attempts_of_completed (path : Bytes) (s s' : LoopState)
    (h : attemptOnce env request path s = .completed s') (n : Nat) :
    attempts env request path (n + 1) s = .completed s' := by
  induction n with
  | zero => exact h
  | succ n ih => rw [attempts, ih]

/-- Where the partial file cannot be written, an attempt gets nowhere. -/
theorem attemptOnce_blocked (hserver : Steady C env.server) (s : LoopState)
    (hpos : 0 < C.length) (hoffset : s.offset = 0)
    (hnone : s.world.disk.content (stagingOf request.destPath) = none)
    (hw : ¬ s.world.disk.Writable (stagingOf request.destPath)) :
    ∃ s', attemptOnce env request (partialPath request.destPath) s = .again s' ∧
      s'.offset = 0 ∧ s'.world.disk = s.world.disk := by
  rcases reply_steady env C request hserver s [] hpos hoffset with
    ⟨status, contentLength, hreply, _, hstatus⟩
  have hwrite : ∀ appendMode body, writePartial env
      { s.world with requests := s.world.requests ++ [rangeRequest request s.offset] }
      (partialPath request.destPath) appendMode body = none := by
    intro appendMode body
    rw [writePartial]
    split
    · cases hd : s.world.disk.write (stagingOf request.destPath)
        ((if appendMode then
          (s.world.disk.content (stagingOf request.destPath)).getD [] else []) ++ body) with
      | none =>
          simp only [hd]
          rfl
      | some disk => exact absurd ((s.world.disk.write_eq_some _ _).mp ⟨disk, hd⟩) hw
    · rfl
  have hattempt := performSingleAttempt_body env request (partialPath request.destPath) s status
    contentLength _ (hstatus.imp And.left And.left) hreply
  rw [receiveBody] at hattempt
  simp only [hwrite] at hattempt
  rw [attemptOnce, hattempt]
  refine ⟨_, rfl, ?_, rfl⟩
  simp only [fsFileSize]
  rw [show s.world.disk.content (winPath.locate (partialPath request.destPath)) = none from hnone]
  rfl

/-- So no attempt gets anywhere. -/
theorem attempts_blocked (hserver : Steady C env.server) (s : LoopState)
    (hpos : 0 < C.length) (hoffset : s.offset = 0)
    (hnone : s.world.disk.content (stagingOf request.destPath) = none)
    (hw : ¬ s.world.disk.Writable (stagingOf request.destPath)) (n : Nat) :
    ∃ s', attempts env request (partialPath request.destPath) n s = .again s' ∧
      s'.offset = 0 ∧ s'.world.disk = s.world.disk := by
  induction n with
  | zero => exact ⟨s, rfl, hoffset, rfl⟩
  | succ n ih =>
      rcases ih with ⟨s', hn, hoffset', hdisk⟩
      rw [attempts, hn]
      simp only []
      rw [← hdisk] at hnone hw
      rcases attemptOnce_blocked env C request hserver s' hpos hoffset' hnone hw with
        ⟨s'', hagain, hoffset'', hdisk'⟩
      exact ⟨s'', hagain, hoffset'', hdisk'.trans hdisk⟩

/-- What the checks let through, of a partial file of the right length. -/
theorem finalize_iff (hlocal : Permissive env) (hsize : request.expectedSize = C.length)
    (hhash : request.expectedHashHex = env.sha256Hex C) (s : LoopState) (content : Bytes)
    (hcontent : s.world.disk.content (stagingOf request.destPath) = some content)
    (hlength : content.length = C.length) :
    Recovered C request (finalize env request (partialPath request.destPath) s) ↔
      content = C ∧ s.world.disk.Writable (locOf request.destPath) := by
  constructor
  · rintro ⟨result, hresult, hok, hdest⟩
    rcases finalize_cases env request (partialPath request.destPath) _
      (Disk.fileStep_staged _) s with ⟨_, _, _, _, hc, _, hrename⟩ | ⟨hnot, _⟩
    · rw [Disk.content_rename _ _ _ _ _ hrename, if_pos rfl] at hdest
      exact ⟨Option.some.inj (hcontent.symm.trans hdest),
        ((Disk.rename_eq_some _ _ _).mp ⟨_, hrename⟩).2⟩
    · exact absurd (hok.symm.trans (hnot result hresult)) (by decide)
  · rintro ⟨rfl, hdest⟩
    rcases (s.world.disk.rename_eq_some (stagingOf request.destPath)
      (locOf request.destPath)).mpr ⟨by rw [hcontent]; rfl, hdest⟩ with ⟨disk, hrename⟩
    have hfinal : finalize env request (partialPath request.destPath) s
        = ({ s.world with disk := disk }, some ⟨true, [], .completed, s.everResumed⟩) := by
      rw [finalize, hcontent]
      simp only [hrename, hlocal.canHash, hlocal.canRename]
      rw [if_neg (fun h => h.2 hsize.symm), if_neg (fun h => Bool.noConfusion h.2),
        if_neg (fun h => h.2 hhash.symm)]
      rfl
    rw [hfinal]
    refine ⟨_, rfl, rfl, ?_⟩
    rw [s.world.disk.content_rename disk _ _ _ hrename, if_pos rfl, hcontent]

/-- What is resumed from is the beginning of the content exactly when the
    partial file was too long or was it already. -/
theorem resumedFrom_prefix_iff (w : World) : resumedFrom C request w <+: C ↔
    C.length ≤ (partialContent request.destPath w.disk).length ∨
      partialContent request.destPath w.disk <+: C := by
  rw [resumedFrom]
  by_cases hlong : C.length ≤ (partialContent request.destPath w.disk).length
  · rw [if_pos hlong]
    exact iff_of_true List.nil_prefix (Or.inl hlong)
  · rw [if_neg hlong]
    exact ⟨Or.inr, fun h => h.resolve_left hlong⟩

theorem resumedFrom_length_lt (w : World) (hpos : 0 < C.length) :
    (resumedFrom C request w).length < C.length := by
  rw [resumedFrom]
  by_cases hlong : C.length ≤ (partialContent request.destPath w.disk).length
  · rw [if_pos hlong]
    exact hpos
  · rw [if_neg hlong]
    omega

/-- A call that has to download. -/
theorem recovered_of_mismatch (hlocal : Permissive env) (hserver : Steady C env.server)
    (hpos : 0 < C.length) (hsize : request.expectedSize = C.length)
    (hhash : request.expectedHashHex = env.sha256Hex C) (w : World)
    (hmatch : fileMatchesExpected env w request.destPath request.expectedSize
      request.expectedHashHex = false) :
    Recovered C request (downloadAndVerify env request w) ↔
      Writable (createDirectories w.disk request.destPath) request.destPath ∧
        resumedFrom C request w <+: C := by
  rcases startDownload_spec C request w hpos hsize with ⟨hpart, hoffset, hdirs⟩
  have hbefore := resumedFrom_length_lt C request w hpos
  have hwritable : ∀ l, (startDownload request w).world.disk.Writable l
      ↔ (createDirectories w.disk request.destPath).Writable l := by
    intro l
    rw [Disk.Writable, Disk.Writable, hdirs, hdirs]
  -- The number of attempts is one at least, also where the request asks for none.
  have hlimit : ∃ n, attemptLimit request = n + 1 := by
    rw [attemptLimit]
    split
    · exact ⟨request.maxAttempts.toNat - 1, by omega⟩
    · exact ⟨0, rfl⟩
  rcases hlimit with ⟨n, hn⟩
  rw [downloadAndVerify, if_neg (ne_true_of_eq_false hmatch)]
  simp only [hn]
  by_cases hw : (startDownload request w).world.disk.Writable (stagingOf request.destPath)
  · -- One attempt, and then the checks.
    rcases attemptOnce_steady env C request hlocal hserver _ _ hbefore hpart hoffset hw with
      ⟨s', hdone, hcontent, hdirs'⟩
    rw [attempts_of_completed env request _ _ s' hdone n]
    simp only []
    rw [finalize_iff env C request hlocal hsize hhash s' _ hcontent (by
      rw [List.length_append, List.length_drop]
      omega)]
    have hdest : s'.world.disk.Writable (locOf request.destPath)
        ↔ (createDirectories w.disk request.destPath).Writable (locOf request.destPath) := by
      rw [← hwritable, Disk.Writable, Disk.Writable, hdirs', hdirs']
    have hbefore : resumedFrom C request w ++ C.drop (resumedFrom C request w).length = C
        ↔ resumedFrom C request w <+: C := by
      constructor
      · exact fun h => ⟨_, h⟩
      · exact fun h => (List.prefix_iff_eq_append.mp h)
    rw [hdest, hbefore]
    exact ⟨fun h => ⟨⟨(hwritable _).mp hw, h.2⟩, h.1⟩, fun h => ⟨h.2, h.1.2⟩⟩
  · -- Without a place for the partial file there is none to resume from either.
    have hnone : (startDownload request w).world.disk.content (stagingOf request.destPath)
        = none := by
      cases hc : (startDownload request w).world.disk.content (stagingOf request.destPath) with
      | none => rfl
      | some p =>
          exact absurd ⟨Disk.isDir_dropLast _ _ (Disk.occupied_of_content _ _ p hc),
            Disk.isDir_of_content _ _ p hc⟩ hw
    have hzero : (startDownload request w).offset = 0 := by
      rw [hoffset, ← hpart, partialContent, hnone]
      rfl
    rcases attempts_blocked env C request hserver _ hpos hzero hnone hw (n + 1) with
      ⟨s', hagain, _, _⟩
    rw [hagain]
    refine iff_of_false ?_ (fun h => hw ((hwritable _).mpr h.1.1))
    rintro ⟨result, hresult, hok, _⟩
    rw [← Option.some.inj hresult] at hok
    exact Bool.noConfusion hok

/-- When the call succeeds. -/
theorem recovered_iff (w : World) (hlocal : Permissive env) (hserver : Steady C env.server)
    (hpos : 0 < C.length) (hsize : request.expectedSize = C.length)
    (hhash : request.expectedHashHex = env.sha256Hex C) :
    Recovered C request (downloadAndVerify env request w) ↔ Recoverable env C request w := by
  cases hmatch : fileMatchesExpected env w request.destPath request.expectedSize
    request.expectedHashHex with
  | true =>
      rw [downloadAndVerify, if_pos hmatch, Recoverable, hmatch]
      constructor
      · rintro ⟨_, _, _, hdest⟩
        exact Or.inl hdest
      · rintro (hdest | ⟨h, _⟩)
        · exact ⟨_, rfl, rfl, hdest⟩
        · exact Bool.noConfusion h
  | false =>
      have hnot : w.disk.content (locOf request.destPath) ≠ some C := by
        intro hdest
        -- The content itself would have passed.
        rw [fileMatchesExpected, hdest] at hmatch
        simp only [hlocal.canHash, hhash, hsize, Bool.true_and, decide_true, ne_eq,
          not_true_eq_false, and_false, if_false, ite_self] at hmatch
        exact Bool.noConfusion hmatch
      rw [recovered_of_mismatch env C request hlocal hserver hpos hsize hhash w hmatch,
        Recoverable, resumedFrom_prefix_iff]
      exact ⟨fun h => Or.inr ⟨hmatch, h⟩, fun h => (h.resolve_left hnot).2⟩

end Call

section Divergence

/-- A content of two bytes. -/
def letters : Bytes := ascii "ab"

/-- A machine that refuses nothing, knowing the hashes of `letters` and of what
    the stale partial file turns into, in front of a server of `letters`. -/
def lettersEnv : Env where
  sha256Hex := fun content =>
    if content = letters then
      ascii "fb8e20fc2e4c3f248c60c39bd652f3c1347298bb977b8b4d5903b85055620603"
    else ascii "ff108ea1c0a069a00ee5a1c9bbe72fc3d67b5f0d3accb8e132cd9e1a8dbbd50f"
  server := fun history =>
    match history.getLast?.bind HttpRequest.rangeFrom with
    | some offset =>
      if offset < letters.length then
        .response 206 (some (UInt32.ofNat (letters.length - offset))) (letters.drop offset) none
      else .response 416 none [] none
    | none => .response 200 (some (UInt32.ofNat letters.length)) letters none
  canOpen := fun _ => true
  canHash := fun _ => true
  canRename := fun _ => true

theorem steady_lettersEnv : Steady letters lettersEnv.server where
  plain := fun history req h => by
    refine ⟨some (UInt32.ofNat letters.length), ?_, Or.inr rfl⟩
    simp only [lettersEnv, List.getLast?_concat, Option.bind_some, h]
  inside := fun history req offset h hlt => by
    refine ⟨some (UInt32.ofNat (letters.length - offset)), ?_, Or.inr ?_⟩
    · simp only [lettersEnv, List.getLast?_concat, Option.bind_some, h, hlt, if_true]
    · rw [List.length_drop]
  beyond := fun history req offset h hle => by
    refine ⟨none, [], none, ?_⟩
    simp only [lettersEnv, List.getLast?_concat, Option.bind_some, h, Nat.not_lt.mpr hle, if_false]

def lettersRequest : DownloadRequest where
  host := ascii "localhost"
  port := 80
  urlPath := ascii "/resources/a"
  destPath := ascii "C:\\r\\a"
  expectedSize := 2
  expectedHashHex := ascii "fb8e20fc2e4c3f248c60c39bd652f3c1347298bb977b8b4d5903b85055620603"
  maxAttempts := 2

/-- The disk with a partial file on it. -/
def partialDisk (content : Bytes) : ClientDisk :=
  ((createDirectories Disk.bare lettersRequest.destPath).write
    (stagingOf lettersRequest.destPath) content).getD Disk.bare

/-- The equivalence at a partial file of one byte that is not the first. -/
theorem recovered_partialDisk :
    Recovered letters lettersRequest
        (downloadAndVerify lettersEnv lettersRequest ⟨partialDisk (ascii "x"), []⟩) ↔
      Recoverable lettersEnv letters lettersRequest ⟨partialDisk (ascii "x"), []⟩ :=
  recovered_iff lettersEnv letters lettersRequest ⟨partialDisk (ascii "x"), []⟩
    ⟨fun _ => rfl, fun _ => rfl, fun _ => rfl⟩ steady_lettersEnv (by decide) rfl rfl

/-- The second byte arrives behind a foreign first one, the hashes differ, and
    the second attempt is not made. -/
theorem not_recovered_shorter :
    ¬ ∀ (env : Env) (C : Bytes) (request : DownloadRequest) (w : World),
      Permissive env → Steady C env.server → Usable w.disk request.destPath →
      0 < C.length → request.expectedSize = C.length →
      request.expectedHashHex = env.sha256Hex C → 2 ≤ request.maxAttempts →
      Recovered C request (downloadAndVerify env request w) := by
  intro h
  rcases h lettersEnv letters lettersRequest ⟨partialDisk (ascii "x"), []⟩
    ⟨fun _ => rfl, fun _ => rfl, fun _ => rfl⟩ steady_lettersEnv
    ⟨by decide, by decide, by decide, by decide, by decide, by decide⟩
    (by decide) rfl rfl (by decide) with ⟨result, hresult, hok, _⟩
  have hfailed : ((downloadAndVerify lettersEnv lettersRequest
      ⟨partialDisk (ascii "x"), []⟩).2.map DownloadResult.ok) = some false := by decide
  rw [hresult, Option.map_some, hok] at hfailed
  exact absurd hfailed (by decide)

end Divergence

end Http

end MzzPlork
