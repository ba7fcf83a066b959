import MzzPlork.Theory.Download

/-!
# Resumption

A download from a server that serves one content, over a connection that may
break anywhere.

Between two attempts the partial file is absent or a prefix of the content,
and the offset is its length (`Resumable`). A reply with status 206 is
appended and continues the prefix, one with status 200 replaces it, and
whatever is cut off is again a prefix. So an attempt either brings the
whole content, or leaves a partial file the next one can resume from; there
is no third outcome (`attemptOnce_faithful`).

The local side has to cooperate. The path must end in a file name, nothing
but directories may lie on the way to it, and neither it nor the partial file
may be a directory (`Usable`).

## Main definitions

* `Faithful`: The replies of a server that serves one content.
* `Delivers`: The replies that bring all that was asked for.
* `Usable`: The path can be downloaded to.
* `Resumable`: The loop's state between two attempts.
* `NoneDelivered`: A list of requests none of which was answered in full.
* `Served`: A request and a server that belong together.
* `Resumed`: How a call ends.

## Theorems

* `resumable_startDownload`: The loop starts resumable.
* `attemptOnce_faithful`: One attempt.
* `attempts_faithful`: The retry loop.
* `resumed_downloadAndVerify`: The whole call.
* `not_resumed_localDisk`: What the local side can do to it.
-/

namespace MzzPlork

namespace Http

/-- The replies of a server that serves `C`. The connection may not come about
    or be lost before there is a response; a response may be an error of the
    server's; and a body may stop anywhere, silently or with an error. -/
inductive Faithful (C : Bytes) (req : HttpRequest) : Reply → Prop where
  | unsent (call : Bytes) : Faithful C req (.unavailable call)
  | lost (error : Nat) : Faithful C req (.failed error)
  | busy (status : Nat) (contentLength : Option UInt32) (body : Bytes) (readError : Option Nat)
      (hstatus : 500 ≤ status) : Faithful C req (.response status contentLength body readError)
  | whole (body : Bytes) (readError : Option Nat) (hbody : body <+: C) :
      Faithful C req (.response 200 (some (UInt32.ofNat C.length)) body readError)
  | rest (offset : Nat) (body : Bytes) (readError : Option Nat)
      (hrange : req.rangeFrom = some offset) (hbody : body <+: C.drop offset) :
      Faithful C req (.response 206 (some (UInt32.ofNat (C.length - offset))) body readError)

/-- The reply brings all that was asked for. -/
def Delivers (C : Bytes) (req : HttpRequest) (reply : Reply) : Prop :=
  (∃ contentLength, reply = .response 200 contentLength C none) ∨
    ∃ offset contentLength, req.rangeFrom = some offset ∧
      reply = .response 206 contentLength (C.drop offset) none

/-- The path ends in a file name, nothing but directories lies on the way to
    it, and neither the file nor the partial file is a directory or on the
    way. -/
structure Usable (d : ClientDisk) (destPath : Bytes) : Prop where
  name : winPath.IsName (winPath.lastPiece destPath)
  clear : ∀ l ∈ winPath.parents destPath, d.content l = none
  dest : d.isDir (locOf destPath) = false
  destOff : locOf destPath ∉ winPath.parents destPath
  staging : d.isDir (stagingOf destPath) = false
  stagingOff : stagingOf destPath ∉ winPath.parents destPath

/-- Nothing local refuses. -/
structure Permissive (env : Env) : Prop where
  canOpen : ∀ history, env.canOpen history = true
  canHash : ∀ history, env.canHash history = true
  canRename : ∀ history, env.canRename history = true

/-- Both files can be written. -/
def Writable (d : ClientDisk) (destPath : Bytes) : Prop :=
  d.Writable (stagingOf destPath) ∧ d.Writable (locOf destPath)

/-- The file at a place is absent or holds a prefix of `C`. -/
def PrefixAt (C : Bytes) (l : Loc Bytes) (d : ClientDisk) : Prop :=
  ∀ p, d.content l = some p → p <+: C

/-- The loop's state between two attempts: the offset is the length of the
    partial file, which is absent or a prefix of `C`. -/
structure Resumable (C destPath : Bytes) (s : LoopState) : Prop where
  writable : Writable s.world.disk destPath
  offset : s.offset = ((s.world.disk.content (stagingOf destPath)).getD []).length
  isPrefix : (s.world.disk.content (stagingOf destPath)).getD [] <+: C

theorem Resumable.prefixAt {C destPath : Bytes} {s : LoopState} (h : Resumable C destPath s) :
    PrefixAt C (stagingOf destPath) s.world.disk := by
  intro p hp
  have hpre := h.isPrefix
  rw [hp] at hpre
  exact hpre

section Start

variable (destPath : Bytes) (d : ClientDisk)

theorem dropLast_stagingOf : (stagingOf destPath).dropLast = winPath.dirOf destPath := by
  rw [stagingOf, partialPath, winPath.locate_append destPath _ suffix_not_sep (by decide),
    List.dropLast_concat]

/-- A path that ends in a name lies in its directory. -/
theorem dropLast_locOf (hname : winPath.IsName (winPath.lastPiece destPath)) :
    (locOf destPath).dropLast = winPath.dirOf destPath := by
  -- A path of one piece lies at the root.
  rcases winPath.locate_eq destPath with ⟨hl, hd, _⟩ | ⟨hl, _⟩
  · rw [locOf, hl, hd]
    rfl
  · rw [locOf, hl, winPath.descend_name _ _ hname, List.dropLast_concat]

/-- Once the directories are made, the file's directory is there. -/
theorem isDir_dirOf (hclear : ∀ l ∈ winPath.parents destPath, d.content l = none) :
    (createDirectories d destPath).isDir (winPath.dirOf destPath) = true := by
  rcases winPath.dirOf_mem_parents destPath with h | h
  · rw [h]
    exact Disk.isDir_nil _
  · exact Disk.isDir_mkdirs _ d (Disk.mkdirs_parents winPath d destPath hclear) _ h

theorem isDir_createDirectories (l : Loc Bytes) (hl : l ∉ winPath.parents destPath)
    (hd : d.isDir l = false) : (createDirectories d destPath).isDir l = false := by
  have hc := Disk.confined_mkdirs (fun i => i ∈ winPath.parents destPath) (fun _ => False)
    (winPath.parents destPath) d (fun i hi _ => hi)
  -- Neither file is on the way, so making the way touches neither.
  have hnode := hc.node l hl (fun h => h)
  rw [createDirectories, Disk.isDir, hnode]
  exact hd

/-- Once the directories are made, both files can be written. -/
theorem writable_createDirectories (h : Usable d destPath) :
    Writable (createDirectories d destPath) destPath := by
  have hdir := isDir_dirOf destPath d h.clear
  refine ⟨⟨?_, isDir_createDirectories destPath d _ h.stagingOff h.staging⟩,
    ⟨?_, isDir_createDirectories destPath d _ h.destOff h.dest⟩⟩
  · rw [dropLast_stagingOf]
    exact hdir
  · rw [dropLast_locOf destPath h.name]
    exact hdir

theorem content_createDirectories (l : Loc Bytes) :
    (createDirectories d destPath).content l = d.content l :=
  Disk.content_mkdirs _ d l

end Start

/-- Removing the partial file leaves both files writable. -/
theorem Writable.removePath {destPath : Bytes} {w : World} (h : Writable w.disk destPath) :
    Writable (removePath w (partialPath destPath)).disk destPath := by
  have herase : (Http.removePath w (partialPath destPath)).disk
      = (w.disk.remove (stagingOf destPath)).1 := by
    rw [Http.removePath, Disk.erase_of_file w.disk _ h.1.2]
  rw [herase, Writable, Disk.Writable, Disk.Writable]
  simp only [Disk.isDir_remove]
  exact h

/-- So does writing it. -/
theorem Writable.write {destPath : Bytes} {d d' : ClientDisk} (h : Writable d destPath)
    (l : Loc Bytes) (c : Bytes) (hw : d.write l c = some d') : Writable d' destPath := by
  have hdir := fun i => d.isDir_write d' l i c hw
  rw [Writable, Disk.Writable, Disk.Writable, hdir, hdir, hdir, hdir]
  exact h

/-- The loop starts resumable. A partial file that is already complete is
    discarded, any other one is resumed from. -/
theorem resumable_startDownload (C : Bytes) (request : DownloadRequest) (w : World)
    (husable : Usable w.disk request.destPath)
    (hpart : PrefixAt C (stagingOf request.destPath) w.disk) :
    Resumable C request.destPath (startDownload request w) := by
  have hwritable := writable_createDirectories request.destPath w.disk husable
  have hcontent := content_createDirectories request.destPath w.disk
    (stagingOf request.destPath)
  rw [startDownload, initialOffset]
  simp only [fsFileSize]
  rw [hcontent]
  cases hc : w.disk.content (stagingOf request.destPath) with
  | none =>
      rw [hc] at hcontent
      refine ⟨hwritable, ?_, ?_⟩ <;> simp only [Option.map_none, hcontent, Option.getD_none]
      · rfl
      · exact List.nil_prefix
  | some p =>
      rw [hc] at hcontent
      simp only [Option.map_some]
      -- A partial file as long as the content is discarded, even if it is right.
      by_cases hlong : request.expectedSize > 0 ∧ (p.length : Int) ≥ request.expectedSize
      · rw [if_pos hlong]
        have hgone : (removePath { w with disk := createDirectories w.disk request.destPath }
            (partialPath request.destPath)).disk.content (stagingOf request.destPath) = none := by
          rw [removePath, Disk.content_erase, if_pos rfl]
        refine ⟨hwritable.removePath, ?_, ?_⟩ <;> simp only [hgone, Option.getD_none]
        · rfl
        · exact List.nil_prefix
      · rw [if_neg hlong]
        refine ⟨hwritable, ?_, ?_⟩ <;> simp only [hcontent, Option.getD_some]
        exact hpart p hc

section Attempt

variable (env : Env) (C : Bytes) (request : DownloadRequest)

/-- Writing the partial file succeeds and leaves both files writable. -/
theorem writePartial_spec (hlocal : Permissive env) (destPath : Bytes) (w : World)
    (hw : Writable w.disk destPath) (appendMode : Bool) (body : Bytes) :
    ∃ w', writePartial env w (partialPath destPath) appendMode body = some w' ∧
      w'.requests = w.requests ∧ Writable w'.disk destPath ∧
      w'.disk.content (stagingOf destPath)
        = some ((if appendMode then (w.disk.content (stagingOf destPath)).getD [] else [])
            ++ body) := by
  rw [writePartial, if_pos (hlocal.canOpen w.requests)]
  simp only []
  rcases (w.disk.write_eq_some (stagingOf destPath)
    ((if appendMode then (w.disk.content (stagingOf destPath)).getD [] else []) ++ body)).mpr
      hw.1 with ⟨disk, hdisk⟩
  refine ⟨{ w with disk := disk }, ?_, rfl, hw.write _ _ hdisk, ?_⟩
  · rw [hdisk]
    rfl
  · rw [w.disk.content_write disk _ _ _ hdisk, if_pos rfl]

/-- A response with a body is complete when the read loop ended without an
    error and the counted bytes are the announced ones. -/
theorem receiveBody_spec (hlocal : Permissive env) (destPath : Bytes) (w : World)
    (hw : Writable w.disk destPath) (status : Nat) (expected : UInt32) (body : Bytes)
    (readError : Option Nat) :
    ∃ w' attempt, receiveBody env (partialPath destPath) status (some expected) body readError w
        = (w', attempt) ∧
      w'.requests = w.requests ∧ Writable w'.disk destPath ∧
      w'.disk.content (stagingOf destPath)
        = some ((if status = 206 then (w.disk.content (stagingOf destPath)).getD [] else [])
            ++ body) ∧
      attempt.outcome = if readError = none ∧ UInt32.ofNat body.length = expected
        then .completed else .interrupted := by
  rcases writePartial_spec env hlocal destPath w hw (decide (status = 206)) body with
    ⟨w', hwrite, hreq, hw', hc⟩
  simp only [decide_eq_true_eq] at hc
  rw [receiveBody]
  simp only []
  rw [hwrite]
  cases readError with
  | some error =>
      simp only [reduceCtorEq, false_and, if_false]
      split <;> exact ⟨w', _, rfl, hreq, hw', hc, rfl⟩
  | none =>
      simp only [true_and]
      by_cases htotal : UInt32.ofNat body.length = expected
      · rw [if_neg (not_not_intro htotal)]
        exact ⟨w', _, rfl, hreq, hw', hc, (if_pos htotal).symm⟩
      · rw [if_pos htotal]
        exact ⟨w', _, rfl, hreq, hw', hc, (if_neg htotal).symm⟩

/-- An interrupted attempt is resumable when what it left is a prefix. -/
theorem resumable_of_interrupted (s : LoopState) (w : World) (attempt : AttemptResult)
    (hattempt : performSingleAttempt env request (partialPath request.destPath) s.offset s.world
      = (w, attempt)) (hout : attempt.outcome = .interrupted)
    (hw : Writable w.disk request.destPath)
    (hpre : (w.disk.content (stagingOf request.destPath)).getD [] <+: C) :
    ∃ s', attemptOnce env request (partialPath request.destPath) s = .again s' ∧ s'.world = w ∧
      Resumable C request.destPath s' := by
  rw [attemptOnce, hattempt]
  simp only [hout]
  refine ⟨_, rfl, rfl, hw, ?_, hpre⟩
  simp only [fsFileSize]
  cases w.disk.content (stagingOf request.destPath) <;> rfl

/-- What a turn of the loop comes to: the whole content, or a partial file to
    resume from. -/
structure Turned (s : LoopState) (delivered : Prop) (t : LoopStep) : Prop where
  requests : t.world.requests = s.world.requests ++ [rangeRequest request s.offset]
  outcome : (delivered ∧ ∃ s', t = .completed s' ∧ Writable s'.world.disk request.destPath ∧
      s'.world.disk.content (stagingOf request.destPath) = some C) ∨
    (¬ delivered ∧ ∃ s', t = .again s' ∧ Resumable C request.destPath s')

/-- A body from `C`, received behind what is there already: it completes `C`,
    or the loop goes on from a longer prefix. -/
theorem turned_of_body (hlocal : Permissive env) (hlen : C.length < UInt32.size) (s : LoopState)
    (hs : Resumable C request.destPath s) (status : Nat) (before rest body : Bytes)
    (readError : Option Nat) (delivered : Prop) (hstatus : status = 200 ∨ status = 206)
    (hreply : env.server (s.world.requests ++ [rangeRequest request s.offset])
      = .response status (some (UInt32.ofNat rest.length)) body readError)
    (hbefore : (if status = 206 then
      (s.world.disk.content (stagingOf request.destPath)).getD [] else []) = before)
    (hC : C = before ++ rest) (hbody : body <+: rest)
    (hdelivered : delivered ↔ readError = none ∧ body = rest) :
    Turned C request s delivered
      (attemptOnce env request (partialPath request.destPath) s) := by
  rcases receiveBody_spec env hlocal request.destPath
    { s.world with requests := s.world.requests ++ [rangeRequest request s.offset] }
    hs.writable status (UInt32.ofNat rest.length) body readError with
    ⟨w, attempt, hreceive, hreq, hw, hc, hout⟩
  have hattempt : performSingleAttempt env request (partialPath request.destPath) s.offset s.world
      = (w, attempt) := by
    rw [performSingleAttempt]
    simp only [hreply]
    rw [if_neg (by omega), if_neg (by omega), if_neg (by omega), if_neg (by omega), hreceive]
  rw [hbefore] at hc
  -- The counter does not wrap below 2^32, so it compares the lengths.
  have hcount : UInt32.ofNat body.length = UInt32.ofNat rest.length ↔ body = rest := by
    have hrest : rest.length ≤ C.length := by
      rw [hC, List.length_append]
      omega
    have hle := hbody.length_le
    have hsize : UInt32.size = 4294967296 := rfl
    constructor
    · intro h
      refine hbody.eq_of_length ?_
      have hnat := congrArg UInt32.toNat h
      rwa [UInt32.toNat_ofNat_of_lt' (by omega), UInt32.toNat_ofNat_of_lt' (by omega)] at hnat
    · intro h
      rw [h]
  -- The outcome is one of two, so the other ways a turn can end are excluded.
  have hworld : (attemptOnce env request (partialPath request.destPath) s).world.requests
      = s.world.requests ++ [rangeRequest request s.offset] := by
    rw [attemptOnce, hattempt]
    simp only [hout]
    split
    · exact hreq
    · rename_i hcase
      split at hcase <;> exact absurd hcase (by simp only [reduceCtorEq, not_false_eq_true])
    · rename_i hcase
      split at hcase <;> exact absurd hcase (by simp only [reduceCtorEq, not_false_eq_true])
    · exact hreq
  refine ⟨hworld, ?_⟩
  by_cases hd : delivered
  · rcases hdelivered.mp hd with ⟨hnone, heq⟩
    refine Or.inl ⟨hd, ?_⟩
    rw [if_pos ⟨hnone, hcount.mpr heq⟩] at hout
    rw [attemptOnce, hattempt]
    simp only [hout]
    refine ⟨_, rfl, hw, ?_⟩
    rw [hc, heq, ← hC]
  · refine Or.inr ⟨hd, ?_⟩
    rw [if_neg (fun h => hd (hdelivered.mpr ⟨h.1, hcount.mp h.2⟩))] at hout
    rcases resumable_of_interrupted env C request s w attempt hattempt hout hw (by
      rw [hc, Option.getD_some, hC]
      exact (List.prefix_append_right_inj before).mpr hbody) with ⟨s', hagain, _, hres⟩
    exact ⟨s', hagain, hres⟩

/-- An attempt that gets no body leaves the partial file as it is. -/
theorem turned_of_nothing (s : LoopState) (hs : Resumable C request.destPath s)
    (error : Bytes) (delivered : Prop) (hnot : ¬ delivered)
    (hattempt : performSingleAttempt env request (partialPath request.destPath) s.offset s.world
      = ({ s.world with requests := s.world.requests ++ [rangeRequest request s.offset] },
        ⟨.interrupted, error, false⟩)) :
    Turned C request s delivered
      (attemptOnce env request (partialPath request.destPath) s) := by
  rcases resumable_of_interrupted env C request s _ _ hattempt rfl hs.writable
    hs.isPrefix with ⟨s', hagain, hworld, hres⟩
  refine ⟨?_, Or.inr ⟨hnot, s', hagain, hres⟩⟩
  rw [hagain, LoopStep.world, hworld]

/-- One attempt: a reply that brings everything completes the content, and any
    other leaves a partial file to resume from. -/
theorem attemptOnce_faithful (hlocal : Permissive env) (hlen : C.length < UInt32.size)
    (hserver : ∀ history req, Faithful C req (env.server (history ++ [req])))
    (s : LoopState) (hs : Resumable C request.destPath s) :
    Turned C request s
      (Delivers C (rangeRequest request s.offset)
        (env.server (s.world.requests ++ [rangeRequest request s.offset])))
      (attemptOnce env request (partialPath request.destPath) s) := by
  have hfaithful := hserver s.world.requests (rangeRequest request s.offset)
  generalize hreply : env.server (s.world.requests ++ [rangeRequest request s.offset]) = reply
    at hfaithful
  -- One case for each reply a faithful server can give.
  cases hfaithful with
  | unsent call =>
      have hnot : ¬ Delivers C (rangeRequest request s.offset) (.unavailable call) := by
        rintro (⟨_, h⟩ | ⟨_, _, _, h⟩) <;> exact Reply.noConfusion h
      refine turned_of_nothing env C request s hs (call ++ ascii " failed") _ hnot ?_
      rw [performSingleAttempt]
      simp only [hreply]
  | lost error =>
      have hnot : ¬ Delivers C (rangeRequest request s.offset) (.failed error) := by
        rintro (⟨_, h⟩ | ⟨_, _, _, h⟩) <;> exact Reply.noConfusion h
      -- A timeout has a message of its own, and the same consequence.
      by_cases htime : error = errorTimeout
      · refine turned_of_nothing env C request s hs (ascii "request timed out") _ hnot ?_
        rw [performSingleAttempt]
        simp only [hreply]
        rw [if_pos htime]
      · refine turned_of_nothing env C request s hs
          (ascii "HTTP request failed (error " ++ decimal error ++ ascii ")") _ hnot ?_
        rw [performSingleAttempt]
        simp only [hreply]
        rw [if_neg htime]
  | busy status contentLength body readError hstatus =>
      refine turned_of_nothing env C request s hs (ascii "HTTP " ++ decimal status) _ ?_ ?_
      · rintro (⟨_, h⟩ | ⟨_, _, _, h⟩) <;>
        · have := (Reply.response.inj h).1
          omega
      · rw [performSingleAttempt]
        simp only [hreply]
        rw [if_neg (by omega), if_neg (by omega), if_pos hstatus]
  | whole body readError hbody =>
      -- A server that ignores the range starts over, and so does the file.
      refine turned_of_body env C request hlocal hlen s hs 200 [] C body readError _
        (Or.inl rfl) hreply (if_neg (by decide)) rfl hbody ?_
      constructor
      · rintro (⟨_, h⟩ | ⟨_, _, _, h⟩)
        · exact ⟨(Reply.response.inj h).2.2.2, (Reply.response.inj h).2.2.1⟩
        · exact absurd (Reply.response.inj h).1 (by decide)
      · rintro ⟨rfl, rfl⟩
        exact Or.inl ⟨_, rfl⟩
  | rest offset body readError hrange hbody =>
      -- The range asked for starts where the partial file ends.
      have hoffset : offset
          = ((s.world.disk.content (stagingOf request.destPath)).getD []).length := by
        simp only [rangeRequest] at hrange
        split at hrange
        · rw [← Option.some.inj hrange, hs.offset]
          rfl
        · exact absurd hrange (by simp only [reduceCtorEq, not_false_eq_true])
      have hC : C = (s.world.disk.content (stagingOf request.destPath)).getD []
          ++ C.drop offset := by
        rcases hs.isPrefix with ⟨tail, htail⟩
        rw [hoffset, ← htail, List.drop_left]
      refine turned_of_body env C request hlocal hlen s hs 206 _ (C.drop offset) body readError _
        (Or.inr rfl) (by rw [hreply, List.length_drop]) (if_pos rfl) hC hbody ?_
      constructor
      · rintro (⟨_, h⟩ | ⟨offset', _, hrange', h⟩)
        · exact absurd (Reply.response.inj h).1 (by decide)
        · rw [hrange, Option.some.injEq] at hrange'
          rw [← hrange'] at h
          exact ⟨(Reply.response.inj h).2.2.2, (Reply.response.inj h).2.2.1⟩
      · rintro ⟨rfl, rfl⟩
        exact Or.inr ⟨offset, _, hrange, rfl⟩

/-- None of these requests, sent behind the earlier ones, was answered in full. -/
def NoneDelivered (env : Env) (C : Bytes) (before reqs : List HttpRequest) : Prop :=
  ∀ init req rest, reqs = init ++ req :: rest →
    ¬ Delivers C req (env.server (before ++ init ++ [req]))

theorem noneDelivered_nil (before : List HttpRequest) : NoneDelivered env C before [] := by
  intro init req rest h
  exact absurd h.symm (List.append_ne_nil_of_right_ne_nil init (List.cons_ne_nil req rest))

theorem noneDelivered_concat (before reqs : List HttpRequest) (req : HttpRequest)
    (h : NoneDelivered env C before reqs)
    (hreq : ¬ Delivers C req (env.server (before ++ reqs ++ [req]))) :
    NoneDelivered env C before (reqs ++ [req]) := by
  intro init req' rest heq
  -- The request is the new one, or one of the earlier ones.
  rcases List.eq_nil_or_concat rest with rfl | ⟨rest', last, rfl⟩
  · rcases List.append_inj' heq rfl with ⟨rfl, hlast⟩
    rw [← (List.cons.inj hlast).1]
    exact hreq
  · refine h init req' rest' ?_
    have hsplit : reqs ++ [req] = (init ++ req' :: rest') ++ [last] := by
      rw [heq, List.append_assoc, List.cons_append, List.concat_eq_append]
    exact (List.append_inj' hsplit rfl).1

/-- How the retry loop stands after some attempts: the last one brought
    everything and no earlier one did, or none did and it can go on. -/
inductive Progress (s : LoopState) (n : Nat) (t : LoopStep) : Prop where
  | delivered (init : List HttpRequest) (last : HttpRequest) (s' : LoopState)
      (hcount : init.length < n) (hnone : NoneDelivered env C s.world.requests init)
      (hlast : Delivers C last (env.server (s.world.requests ++ init ++ [last])))
      (ht : t = .completed s')
      (hrequests : s'.world.requests = s.world.requests ++ init ++ [last])
      (hwritable : Writable s'.world.disk request.destPath)
      (hcontent : s'.world.disk.content (stagingOf request.destPath) = some C)
  | pending (reqs : List HttpRequest) (s' : LoopState) (hcount : reqs.length = n)
      (hnone : NoneDelivered env C s.world.requests reqs) (ht : t = .again s')
      (hrequests : s'.world.requests = s.world.requests ++ reqs)
      (hresumable : Resumable C request.destPath s')

/-- The retry loop. -/
theorem attempts_faithful (hlocal : Permissive env) (hlen : C.length < UInt32.size)
    (hserver : ∀ history req, Faithful C req (env.server (history ++ [req])))
    (s : LoopState) (hs : Resumable C request.destPath s) (n : Nat) :
    Progress env C request s n (attempts env request (partialPath request.destPath) n s) := by
  -- The attempts are counted from the front, so the last one is the newest.
  induction n with
  | zero =>
      exact .pending [] s rfl (noneDelivered_nil env C _) rfl (List.append_nil _).symm hs
  | succ n ih =>
      rw [attempts]
      cases ih with
      | delivered init last s' hcount hnone hlast ht hrequests hwritable hcontent =>
          -- The loop has ended, and further turns do nothing.
          rw [ht]
          exact .delivered init last s' (by omega) hnone hlast rfl hrequests hwritable hcontent
      | pending reqs s' hcount hnone ht hrequests hresumable =>
          rw [ht]
          -- Nothing was delivered so far, so one more attempt is made.
          have hturn := attemptOnce_faithful env C request hlocal hlen hserver s' hresumable
          have hsent := hturn.requests
          have hout := hturn.outcome
          rw [hrequests] at hsent hout
          rcases hout with ⟨hdel, s'', heq, hwritable, hcontent⟩ | ⟨hnot, s'', heq, hres⟩
          · rw [heq] at hsent
            exact .delivered reqs _ s'' (by omega) hnone hdel heq hsent hwritable hcontent
          · rw [heq] at hsent
            refine .pending (reqs ++ [rangeRequest request s'.offset]) s'' ?_
              (noneDelivered_concat env C _ reqs _ hnone hnot) heq ?_ hres
            · rw [List.length_append, List.length_singleton, hcount]
            · rw [← List.append_assoc]
              exact hsent

/-- What was received is what was asked for, and it is moved into place. -/
theorem finalize_complete (hlocal : Permissive env) (s : LoopState)
    (hsize : request.expectedSize = C.length) (hhash : request.expectedHashHex = env.sha256Hex C)
    (hwritable : Writable s.world.disk request.destPath)
    (hcontent : s.world.disk.content (stagingOf request.destPath) = some C) :
    ∃ disk, finalize env request (partialPath request.destPath) s
        = ({ s.world with disk := disk }, some ⟨true, [], .completed, s.everResumed⟩) ∧
      disk.content (locOf request.destPath) = some C := by
  rcases (s.world.disk.rename_eq_some (stagingOf request.destPath) (locOf request.destPath)).mpr
    ⟨by rw [hcontent]; rfl, hwritable.2⟩ with ⟨disk, hrename⟩
  refine ⟨disk, ?_, ?_⟩
  · rw [finalize, hcontent]
    simp only [hrename, hlocal.canHash, hlocal.canRename]
    -- Neither the size check nor the hash check fails, and hashing does not throw.
    rw [if_neg (fun h => h.2 hsize.symm), if_neg (fun h => Bool.noConfusion h.2),
      if_neg (fun h => h.2 hhash.symm)]
    rfl
  · rw [s.world.disk.content_rename disk _ _ _ hrename, if_pos rfl, hcontent]

/-- A request for `C` on a machine that may hold the beginning of it, sent to a
    server that serves it. -/
structure Served (w : World) : Prop where
  size : request.expectedSize = C.length
  hash : request.expectedHashHex = env.sha256Hex C
  counted : C.length < UInt32.size
  server : ∀ history req, Faithful C req (env.server (history ++ [req]))
  staging : PrefixAt C (stagingOf request.destPath) w.disk

/-- How a call ends that has to download: with the content in place, right
    after the first attempt that brought it, or without success and with the
    partial file as the last attempt left it. -/
inductive Resumed (w : World) (out : World × Option DownloadResult) : Prop where
  | delivered (init : List HttpRequest) (last : HttpRequest) (result : DownloadResult)
      (hcount : init.length < attemptLimit request)
      (hnone : NoneDelivered env C w.requests init)
      (hlast : Delivers C last (env.server (w.requests ++ init ++ [last])))
      (hrequests : out.1.requests = w.requests ++ init ++ [last])
      (hresult : out.2 = some result) (hok : result.ok = true)
      (hcontent : out.1.disk.content (locOf request.destPath) = some C)
  | pending (reqs : List HttpRequest) (result : DownloadResult)
      (hcount : reqs.length = attemptLimit request)
      (hnone : NoneDelivered env C w.requests reqs)
      (hrequests : out.1.requests = w.requests ++ reqs)
      (hresult : out.2 = some result) (hok : result.ok = false)
      (hkept : out.1.disk = (attempts env request (partialPath request.destPath)
        (attemptLimit request) (startDownload request w)).world.disk)

theorem Progress.prefixAt {s : LoopState} {n : Nat} {t : LoopStep}
    (h : Progress env C request s n t) : PrefixAt C (stagingOf request.destPath) t.world.disk := by
  cases h with
  | delivered init last s' hcount hnone hlast ht hrequests hwritable hcontent =>
      intro p hp
      rw [ht, LoopStep.world, hcontent] at hp
      rw [← Option.some.inj hp]
  | pending reqs s' hcount hnone ht hrequests hresumable =>
      rw [ht]
      exact hresumable.prefixAt

theorem startDownload_requests (w : World) :
    (startDownload request w).world.requests = w.requests := by
  rw [startDownload, initialOffset]
  simp only []
  split
  · rfl
  · split <;> rfl

/-- A call against a server that serves the content asked for. -/
theorem resumed_downloadAndVerify (w : World) (hserved : Served env C request w)
    (hlocal : Permissive env) (husable : Usable w.disk request.destPath) :
    (fileMatchesExpected env w request.destPath request.expectedSize request.expectedHashHex
        = true →
      downloadAndVerify env request w = (w, some ⟨true, [], .completed, false⟩)) ∧
    (fileMatchesExpected env w request.destPath request.expectedSize request.expectedHashHex
        = false →
      (∀ k ≤ attemptLimit request, PrefixAt C (stagingOf request.destPath)
        (attempts env request (partialPath request.destPath) k
          (startDownload request w)).world.disk) ∧
      Resumed env C request w (downloadAndVerify env request w)) := by
  constructor
  · intro hmatch
    rw [downloadAndVerify, if_pos hmatch]
  · intro hmatch
    have hprogress := fun k => attempts_faithful env C request hlocal hserved.counted
      hserved.server (startDownload request w)
      (resumable_startDownload C request w husable hserved.staging) k
    refine ⟨fun k _ => (hprogress k).prefixAt, ?_⟩
    rw [downloadAndVerify, if_neg (ne_true_of_eq_false hmatch)]
    simp only []
    -- The last attempt is decisive: it delivered, or the call gives up.
    have hlast := hprogress (attemptLimit request)
    cases hlast with
    | delivered init last s' hcount hnone hlast ht hrequests hwritable hcontent =>
        rw [startDownload_requests] at hnone hlast hrequests
        rcases finalize_complete env C request hlocal s' hserved.size hserved.hash hwritable
          hcontent with ⟨disk, hfinal, hdest⟩
        rw [ht]
        simp only [hfinal]
        exact .delivered init last _ hcount hnone hlast hrequests rfl rfl hdest
    | pending reqs s' hcount hnone ht hrequests hresumable =>
        rw [startDownload_requests] at hnone hrequests
        refine .pending reqs (failure (ascii "download did not complete after "
          ++ decimal (attemptLimit request) ++ ascii " attempt(s): " ++ s'.lastError))
          hcount hnone ?_ ?_ rfl ?_
        · rw [ht]
          exact hrequests
        · rw [ht]
        · rw [ht]
          rfl

end Attempt

section Divergence

/-- A content of one byte. -/
def letter : Bytes := ascii "a"

/-- A machine that refuses nothing, knowing the hash of `letter`, in front of a
    server. -/
def letterEnv (server : List HttpRequest → Reply) : Env where
  sha256Hex := fun _ => ascii "ca978112ca1bbdcafac231b39a23dc4da786eff8147c4e72b9807785afee48bb"
  server := server
  canOpen := fun _ => true
  canHash := fun _ => true
  canRename := fun _ => true

/-- A server that answers every request for `letter`, from the offset if there
    is one. -/
def letterServer (history : List HttpRequest) : Reply :=
  match history.getLast?.bind HttpRequest.rangeFrom with
  | some offset =>
    .response 206 (some (UInt32.ofNat (letter.length - offset))) (letter.drop offset) none
  | none => .response 200 (some (UInt32.ofNat letter.length)) letter none

/-- A server that is always busy. -/
def busyServer (_ : List HttpRequest) : Reply := .response 503 none [] none

def letterRequest : DownloadRequest where
  host := ascii "localhost"
  port := 80
  urlPath := ascii "/resources/a"
  destPath := ascii "C:\\r\\a"
  expectedSize := 1
  expectedHashHex := ascii "ca978112ca1bbdcafac231b39a23dc4da786eff8147c4e72b9807785afee48bb"
  maxAttempts := 2

theorem faithful_letterServer (history : List HttpRequest) (req : HttpRequest) :
    Faithful letter req (letterServer (history ++ [req])) := by
  rw [letterServer, List.getLast?_concat, Option.bind_some]
  cases hrange : req.rangeFrom with
  | none => exact .whole letter none (List.prefix_refl letter)
  | some offset => exact .rest offset _ none hrange (List.prefix_refl _)

theorem prefixAt_of_none (C : Bytes) (l : Loc Bytes) (d : ClientDisk) (h : d.content l = none) :
    PrefixAt C l d := by
  intro p hp
  rw [h] at hp
  exact absurd hp (by simp only [reduceCtorEq, not_false_eq_true])

theorem usable_letterRequest : Usable Disk.bare letterRequest.destPath where
  name := by decide
  clear := by decide
  dest := by decide
  destOff := by decide
  staging := by decide
  stagingOff := by decide

/-- A server of two letters that loses the connection behind the first one, and
    honours the range. -/
def droppingServer (history : List HttpRequest) : Reply :=
  match history.getLast?.bind HttpRequest.rangeFrom with
  | some offset =>
    .response 206 (some (UInt32.ofNat ((ascii "ab").length - offset)))
      ((ascii "ab").drop offset) none
  | none => .response 200 (some (UInt32.ofNat (ascii "ab").length)) (ascii "a") (some 12030)

/-- The machine for the two letters, which knows their hash. -/
def droppedEnv : Env :=
  { letterEnv droppingServer with
    sha256Hex := fun _ =>
      ascii "fb8e20fc2e4c3f248c60c39bd652f3c1347298bb977b8b4d5903b85055620603" }

def droppedRequest : DownloadRequest :=
  { letterRequest with
    expectedSize := 2
    expectedHashHex := ascii "fb8e20fc2e4c3f248c60c39bd652f3c1347298bb977b8b4d5903b85055620603" }

theorem faithful_droppingServer (history : List HttpRequest) (req : HttpRequest) :
    Faithful (ascii "ab") req (droppingServer (history ++ [req])) := by
  rw [droppingServer, List.getLast?_concat, Option.bind_some]
  cases hrange : req.rangeFrom with
  | none => exact .whole (ascii "a") (some 12030) (by decide)
  | some offset => exact .rest offset _ none hrange (List.prefix_refl _)

/-- The first attempt is cut off, and the second one asks for what is missing. -/
theorem resumed_dropped :
    Resumed droppedEnv (ascii "ab") droppedRequest ⟨Disk.bare, []⟩
      (downloadAndVerify droppedEnv droppedRequest ⟨Disk.bare, []⟩) ∧
    (downloadAndVerify droppedEnv droppedRequest ⟨Disk.bare, []⟩).1.requests.map
      HttpRequest.rangeFrom = [none, some 1] :=
  ⟨((resumed_downloadAndVerify droppedEnv (ascii "ab") droppedRequest ⟨Disk.bare, []⟩
    ⟨rfl, rfl, by decide, faithful_droppingServer, prefixAt_of_none _ _ _ (by decide)⟩
    ⟨fun _ => rfl, fun _ => rfl, fun _ => rfl⟩ usable_letterRequest).2 (by decide)).2, by decide⟩

/-- The disk on which `letterRequest` has been downloaded. -/
def letterDisk : ClientDisk :=
  ((createDirectories Disk.bare letterRequest.destPath).write (locOf letterRequest.destPath)
    letter).getD Disk.bare

/-- The disk on which a directory stands where the file should go. -/
def letterDirectory : ClientDisk :=
  createDirectories Disk.bare (joinPath letterRequest.destPath [])

/-- A file that is already there makes a call succeed without an attempt, and
    a directory in its place, or a refused rename, makes it fail after one
    that brought everything. -/
theorem not_resumed_localDisk :
    (¬ ∀ (env : Env) (C : Bytes) (request : DownloadRequest) (w : World),
      Served env C request w →
      (∀ history req, ¬ Delivers C req (env.server (history ++ [req]))) →
      ∀ result, (downloadAndVerify env request w).2 = some result → result.ok = false) ∧
    (¬ ∀ (env : Env) (C : Bytes) (request : DownloadRequest) (w : World),
      Served env C request w → Permissive env →
      (∀ history req, Delivers C req (env.server (history ++ [req]))) →
      ∃ result, (downloadAndVerify env request w).2 = some result ∧ result.ok = true) ∧
    (¬ ∀ (env : Env) (C : Bytes) (request : DownloadRequest) (w : World),
      Served env C request w → Usable w.disk request.destPath →
      (∀ history req, Delivers C req (env.server (history ++ [req]))) →
      ∃ result, (downloadAndVerify env request w).2 = some result ∧ result.ok = true) := by
  have hdelivers : ∀ history req, Delivers letter req (letterServer (history ++ [req])) := by
    intro history req
    rw [letterServer, List.getLast?_concat, Option.bind_some]
    cases hrange : req.rangeFrom with
    | none => exact Or.inl ⟨_, rfl⟩
    | some offset => exact Or.inr ⟨offset, _, hrange, rfl⟩
  refine ⟨fun h => ?_, fun h => ?_, fun h => ?_⟩
  -- The file is there already, and the server is never asked.
  · have hnot := h (letterEnv busyServer) letter letterRequest ⟨letterDisk, []⟩
      ⟨rfl, rfl, by decide, fun _ _ => .busy 503 none [] none (by decide),
        prefixAt_of_none _ _ _ (by decide)⟩ ?_ ⟨true, [], .completed, false⟩ (by decide)
    · exact Bool.noConfusion hnot
    · rintro _ _ (⟨_, hreply⟩ | ⟨_, _, _, hreply⟩) <;>
        exact absurd (Reply.response.inj hreply).1 (by decide)
  -- A directory lies where the file is to go.
  · rcases h (letterEnv letterServer) letter letterRequest ⟨letterDirectory, []⟩
      ⟨rfl, rfl, by decide, faithful_letterServer, prefixAt_of_none _ _ _ (by decide)⟩
      ⟨fun _ => rfl, fun _ => rfl, fun _ => rfl⟩ hdelivers with ⟨result, hresult, hok⟩
    have hfailed : (downloadAndVerify (letterEnv letterServer) letterRequest
        ⟨letterDirectory, []⟩).2 = some (failure (ascii "could not finalize downloaded file: ")) :=
      by decide
    rw [← Option.some.inj (hfailed.symm.trans hresult)] at hok
    exact Bool.noConfusion hok
  -- The system refuses the rename at the end.
  · rcases h { letterEnv letterServer with canRename := fun _ => false } letter letterRequest
      ⟨Disk.bare, []⟩
      ⟨rfl, rfl, by decide, faithful_letterServer, prefixAt_of_none _ _ _ (by decide)⟩
      usable_letterRequest hdelivers with ⟨result, hresult, hok⟩
    have hfailed : (downloadAndVerify { letterEnv letterServer with canRename := fun _ => false }
        letterRequest ⟨Disk.bare, []⟩).2
          = some (failure (ascii "could not finalize downloaded file: ")) := by decide
    rw [← Option.some.inj (hfailed.symm.trans hresult)] at hok
    exact Bool.noConfusion hok

end Divergence

end Http

end MzzPlork
