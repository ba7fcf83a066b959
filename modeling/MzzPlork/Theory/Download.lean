import MzzPlork.Core.HttpDownloader

/-!
# What a Download May Touch

The frame of a download, and what its result says about the final file.

Until the rename, a call only ever writes to the partial file; before that it
makes the directories on the way. The partial file's name is the final one
with a suffix, so the two are never the same file, and what happens to the
one does not show at the other. The rename comes last and only after both
checks, so a call that does not report success has not reached it.

Directories are a different matter. A path whose own directory part passes
through the place the path names, one that ends in a separator for instance,
has that place made into a directory. `untouched` therefore speaks of files
without reservation, and of everything else only for other paths.

## Main definitions

* `stagingOf`: The location of the partial file.
* `FinalSafe`: What a result promises about the final file.

## Theorems

* `step_attempts`: The retry loop works on the partial file alone.
* `finalize_cases`: The two ways the checks end.
* `downloadAndVerify_cases`: The three ways a call ends.
* `confined_downloadAndVerify`: Everything a call can change.
* `finalSafe_downloadAndVerify`: Success means verified, failure means
  untouched.
* `not_unchanged_trailingSeparator`: The directory a failed call can leave.
-/

namespace MzzPlork

namespace Http

/-- The location a path names. -/
abbrev locOf (path : Bytes) : Loc Bytes := winPath.locate path

/-- The location of the partial file. -/
abbrev stagingOf (destPath : Bytes) : Loc Bytes := winPath.locate (partialPath destPath)

theorem suffix_not_sep : ∀ x ∈ ascii ".partial", winPath.isSep x = false := by
  have hall : (ascii ".partial").all (fun x => !winPath.isSep x) = true := rfl
  intro x hx
  have hnot := List.all_eq_true.mp hall x hx
  rw [Bool.not_eq_true'] at hnot
  exact hnot

/-- The partial file is never the final one. -/
theorem stagingOf_ne (destPath : Bytes) : stagingOf destPath ≠ locOf destPath :=
  winPath.locate_append_ne destPath (ascii ".partial") suffix_not_sep (by decide)

section Attempts

variable (env : Env) (request : DownloadRequest) (path : Bytes)
  (Q : ClientDisk → ClientDisk → Prop) (hQ : Disk.FileStep (locOf path) Q)

include hQ

theorem step_writePartial (w w' : World) (appendMode : Bool) (body : Bytes)
    (h : writePartial env w path appendMode body = some w') : Q w.disk w'.disk := by
  rw [writePartial] at h
  split at h
  · rcases Option.map_eq_some_iff.mp h with ⟨disk, hwrite, rfl⟩
    exact hQ.write w.disk disk _ hwrite
  · exact absurd h (by simp only [reduceCtorEq, not_false_eq_true])

theorem step_receiveBody (status : Nat) (contentLength : Option UInt32) (body : Bytes)
    (readError : Option Nat) (w : World) :
    Q w.disk (receiveBody env path status contentLength body readError w).1.disk := by
  rw [receiveBody]
  cases hopen : writePartial env w path (decide (status = 206)) body with
  | none => exact hQ.refl _
  | some w' =>
      have hstep := step_writePartial env path Q hQ w w' _ body hopen
      cases readError with
      | some error =>
          simp only []
          split <;> exact hstep
      | none =>
          cases contentLength with
          | some expected =>
              simp only []
              split <;> exact hstep
          | none => exact hstep

/-- An attempt works on the partial file alone. -/
theorem step_performSingleAttempt (offset : Int) (w : World) :
    Q w.disk (performSingleAttempt env request path offset w).1.disk := by
  rw [performSingleAttempt]
  generalize env.server (w.requests ++ [rangeRequest request offset]) = reply
  cases reply with
  | unavailable call => exact hQ.refl _
  | failed error =>
      simp only []
      split <;> exact hQ.refl _
  | response status contentLength body readError =>
      simp only []
      split
      · exact hQ.refl _
      · split
        · exact hQ.refl _
        · split
          · exact hQ.refl _
          · split
            · exact hQ.refl _
            · exact step_receiveBody env path Q hQ status contentLength body readError
                { w with requests := w.requests ++ [rangeRequest request offset] }

theorem step_attemptOnce (s : LoopState) :
    Q s.world.disk (attemptOnce env request path s).world.disk := by
  have hstep := step_performSingleAttempt env request path Q hQ s.offset s.world
  rw [attemptOnce]
  cases (performSingleAttempt env request path s.offset s.world).2.outcome with
  | completed => exact hstep
  | interrupted => exact hstep
  | hardFailure => exact hQ.trans _ _ _ hstep (hQ.erase _)
  | restartFromZero => exact hQ.trans _ _ _ hstep (hQ.erase _)

/-- The retry loop works on the partial file alone. -/
theorem step_attempts (n : Nat) (s : LoopState) :
    Q s.world.disk (attempts env request path n s).world.disk := by
  induction n with
  | zero => exact hQ.refl _
  | succ n ih =>
      rw [attempts]
      cases hn : attempts env request path n s with
      | again s' =>
          rw [hn] at ih
          exact hQ.trans _ _ _ ih (step_attemptOnce env request path Q hQ s')
      | completed s' =>
          rw [hn] at ih
          exact ih
      | gaveUp w result =>
          rw [hn] at ih
          exact ih

omit hQ

/-- An attempt that gives up does not report success. -/
theorem not_ok_of_attempts (n : Nat) (s : LoopState) (w : World) (result : DownloadResult)
    (h : attempts env request path n s = .gaveUp w result) : result.ok = false := by
  induction n with
  | zero => exact LoopStep.noConfusion h
  | succ n ih =>
      rw [attempts] at h
      cases hn : attempts env request path n s with
      | again s' =>
          rw [hn] at h
          simp only [attemptOnce] at h
          split at h
          · exact LoopStep.noConfusion h
          · rw [← (LoopStep.gaveUp.inj h).2]
            rfl
          · exact LoopStep.noConfusion h
          · exact LoopStep.noConfusion h
      | completed s' =>
          rw [hn] at h
          exact LoopStep.noConfusion h
      | gaveUp w' result' =>
          rw [hn] at h
          exact ih (hn.trans h)

end Attempts

/-- A content that passes the checks of a request. -/
structure Verified (env : Env) (request : DownloadRequest) (content : Bytes) : Prop where
  size : request.expectedSize > 0 → (content.length : Int) = request.expectedSize
  hash : request.expectedHashHex ≠ [] → env.sha256Hex content = request.expectedHashHex

/-- The two ways the checks end: the verified partial file is moved into place,
    or there is no success and at most the partial file was changed. -/
theorem finalize_cases (env : Env) (request : DownloadRequest) (path : Bytes)
    (Q : ClientDisk → ClientDisk → Prop) (hQ : Disk.FileStep (locOf path) Q) (s : LoopState) :
    (∃ content result, (finalize env request path s).2 = some result ∧ result.ok = true ∧
      s.world.disk.content (locOf path) = some content ∧ Verified env request content ∧
      s.world.disk.rename (locOf path) (locOf request.destPath)
        = some (finalize env request path s).1.disk) ∨
    ((∀ result, (finalize env request path s).2 = some result → result.ok = false) ∧
      Q s.world.disk (finalize env request path s).1.disk) := by
  have hfail : ∀ error result, some (failure error) = some result → result.ok = false := by
    intro error result h
    rw [← Option.some.inj h]
    rfl
  rw [finalize]
  cases hc : s.world.disk.content (winPath.locate path) with
  | none => exact Or.inr ⟨hfail _, hQ.refl _⟩
  | some content =>
      simp only []
      -- The size is compared, then the hash, and then the file is renamed.
      split
      · exact Or.inr ⟨hfail _, hQ.erase _⟩
      · rename_i hsize
        split
        · exact Or.inr ⟨fun _ h => absurd h (by simp only [reduceCtorEq, not_false_eq_true]),
            hQ.refl _⟩
        · split
          · exact Or.inr ⟨hfail _, hQ.erase _⟩
          · rename_i hhash
            split
            · exact Or.inr ⟨hfail _, hQ.refl _⟩
            · rename_i disk hrename
              refine Or.inl ⟨content, _, rfl, rfl, rfl, ⟨fun hpos => ?_, fun hne => ?_⟩, ?_⟩
              · by_contra hlen
                exact hsize ⟨hpos, hlen⟩
              · by_contra hsha
                exact hhash ⟨hne, hsha⟩
              · split at hrename
                · exact hrename
                · exact absurd hrename (by simp only [reduceCtorEq, not_false_eq_true])

/-- Looking at the partial file may discard it. -/
theorem step_startDownload (request : DownloadRequest) (w : World)
    (Q : ClientDisk → ClientDisk → Prop) (hQ : Disk.FileStep (stagingOf request.destPath) Q) :
    Q (createDirectories w.disk request.destPath) (startDownload request w).world.disk := by
  rw [startDownload, initialOffset]
  simp only []
  split
  · exact hQ.refl _
  · split
    · exact hQ.erase _
    · exact hQ.refl _

/-- Making the directories makes those on the way that are missing. -/
theorem confined_createDirectories (destPath : Bytes) (d : ClientDisk) (T : Loc Bytes → Prop) :
    Disk.Confined (fun l => l ∈ winPath.parents destPath ∧ d.isDir l = false) T d
      (createDirectories d destPath) :=
  Disk.confined_mkdirs _ _ _ d (fun _ hl hdir => ⟨hl, hdir⟩)

/-- The three ways a call ends: the file is there already, the verified partial
    file is moved over it, or there is no success and no move. -/
theorem downloadAndVerify_cases (env : Env) (request : DownloadRequest) (w : World)
    (Q : ClientDisk → ClientDisk → Prop) (hQ : Disk.FileStep (stagingOf request.destPath) Q) :
    (fileMatchesExpected env w request.destPath request.expectedSize request.expectedHashHex
        = true ∧
      downloadAndVerify env request w = (w, some ⟨true, [], .completed, false⟩)) ∨
    (∃ disk content result, Q (createDirectories w.disk request.destPath) disk ∧
      disk.content (stagingOf request.destPath) = some content ∧ Verified env request content ∧
      disk.rename (stagingOf request.destPath) (locOf request.destPath)
        = some (downloadAndVerify env request w).1.disk ∧
      (downloadAndVerify env request w).2 = some result ∧ result.ok = true) ∨
    ((∀ result, (downloadAndVerify env request w).2 = some result → result.ok = false) ∧
      Q (createDirectories w.disk request.destPath) (downloadAndVerify env request w).1.disk) := by
  by_cases hmatch : fileMatchesExpected env w request.destPath request.expectedSize
      request.expectedHashHex = true
  · rw [downloadAndVerify, if_pos hmatch]
    exact Or.inl ⟨hmatch, rfl⟩
  · refine Or.inr ?_
    -- Whatever happens before the checks happens to the partial file alone.
    have hloop := hQ.trans _ _ _ (step_startDownload request w Q hQ)
      (step_attempts env request (partialPath request.destPath) Q hQ (attemptLimit request)
        (startDownload request w))
    rw [downloadAndVerify, if_neg hmatch]
    simp only []
    cases hs : attempts env request (partialPath request.destPath) (attemptLimit request)
      (startDownload request w) with
    | again s =>
        rw [hs] at hloop
        refine Or.inr ⟨fun result h => ?_, hloop⟩
        rw [← Option.some.inj h]
        rfl
    | gaveUp w' result =>
        rw [hs] at hloop
        refine Or.inr ⟨fun result' h => ?_, hloop⟩
        rw [← Option.some.inj h]
        exact not_ok_of_attempts env request _ _ _ w' result hs
    | completed s =>
        rw [hs] at hloop
        rcases finalize_cases env request (partialPath request.destPath) Q hQ s with
          ⟨content, result, hres, hok, hc, hver, hrename⟩ | ⟨hnot, hstep⟩
        · exact Or.inl ⟨s.world.disk, content, result, hloop, hc, hver, hrename, hres, hok⟩
        · exact Or.inr ⟨hnot, hQ.trans _ _ _ hloop hstep⟩

/-- With a NUL in its path a file is its own partial file. -/
theorem cString_partialPath (destPath : Bytes) (h : ¬ IsCString destPath) :
    cString (partialPath destPath) = cString destPath :=
  cString_append destPath (ascii ".partial") h

/-- What a result promises about the final file: success means that a verified
    file is there, anything else that nothing happened to it. The second half is
    about paths without a NUL (`cString_partialPath`). -/
structure FinalSafe (env : Env) (request : DownloadRequest) (w : World)
    (out : World × Option DownloadResult) : Prop where
  verified : ∀ result, out.2 = some result → result.ok = true →
    ∃ content, out.1.disk.content (locOf request.destPath) = some content ∧
      Verified env request content
  untouched : IsCString request.destPath → (∀ result, out.2 = some result → result.ok = false) →
    out.1.disk.content (locOf request.destPath) = w.disk.content (locOf request.destPath) ∧
      (locOf request.destPath ∉ winPath.parents request.destPath →
        out.1.disk.tree.node (locOf request.destPath)
          = w.disk.tree.node (locOf request.destPath))

/-- The early exit's test is that of the final checks. -/
theorem verified_of_fileMatchesExpected (env : Env) (request : DownloadRequest) (w : World)
    (h : fileMatchesExpected env w request.destPath request.expectedSize
      request.expectedHashHex = true) :
    ∃ content, w.disk.content (locOf request.destPath) = some content ∧
      Verified env request content := by
  rw [fileMatchesExpected] at h
  cases hc : w.disk.content (winPath.locate request.destPath) with
  | none =>
      rw [hc] at h
      exact Bool.noConfusion h
  | some content =>
      rw [hc] at h
      simp only [] at h
      split at h
      · exact Bool.noConfusion h
      · rename_i hsize
        refine ⟨content, rfl, fun hpos => ?_, fun hne => ?_⟩
        · by_contra hlen
          exact hsize ⟨hpos, hlen⟩
        · rw [if_pos hne] at h
          exact of_decide_eq_true (Bool.and_eq_true_iff.mp h).2

/-- What a disk that only changed on the way to, and at, the partial file
    still has at the final one. -/
theorem untouched_of_confined (destPath : Bytes) (d d' : ClientDisk)
    (h : Disk.Confined (fun l => l ∈ winPath.parents destPath ∧ d.isDir l = false)
      (fun l => l = stagingOf destPath) d d') :
    d'.content (locOf destPath) = d.content (locOf destPath) ∧
      (locOf destPath ∉ winPath.parents destPath →
        d'.tree.node (locOf destPath) = d.tree.node (locOf destPath)) :=
  ⟨h.content _ (stagingOf_ne destPath).symm,
    fun hout => h.node _ (fun hm => hout hm.1) (stagingOf_ne destPath).symm⟩

/-- Everything a call can change: the directories on the way, the partial file
    and the final one. -/
theorem confined_downloadAndVerify (env : Env) (request : DownloadRequest) (w : World) :
    Disk.Confined (fun l => l ∈ winPath.parents request.destPath ∧ w.disk.isDir l = false)
      (fun l => l = stagingOf request.destPath ∨ l = locOf request.destPath)
      w.disk (downloadAndVerify env request w).1.disk := by
  have hstart := confined_createDirectories request.destPath w.disk
    (fun l => l = stagingOf request.destPath ∨ l = locOf request.destPath)
  rcases downloadAndVerify_cases env request w _ (Disk.fileStep_staged _) with
    ⟨_, hout⟩ | ⟨disk, content, result, hstaged, _, _, hrename, _⟩ | ⟨_, hstaged⟩
  · rw [hout]
    exact Disk.Confined.refl _ _ _
  · exact (hstart.trans (hstaged.mono (fun _ h => h.elim) (fun _ h => Or.inl h))).trans
      (Disk.confined_rename _ _ _ _ _ _ hrename (Or.inl rfl) (Or.inr rfl))
  · exact hstart.trans (hstaged.mono (fun _ h => h.elim) (fun _ h => Or.inl h))

/-- Success means verified. -/
theorem verified_downloadAndVerify (env : Env) (request : DownloadRequest) (w : World)
    (result : DownloadResult) (hres : (downloadAndVerify env request w).2 = some result)
    (hok : result.ok = true) :
    ∃ content, (downloadAndVerify env request w).1.disk.content (locOf request.destPath)
        = some content ∧ Verified env request content := by
  rcases downloadAndVerify_cases env request w _ (Disk.fileStep_staged _) with
    ⟨hmatch, hout⟩ | ⟨disk, content, _, _, hc, hver, hrename, _⟩ | ⟨hnot, _⟩
  · rw [hout]
    exact verified_of_fileMatchesExpected env request w hmatch
  · refine ⟨content, (Disk.content_rename _ _ _ _ _ hrename).trans ?_, hver⟩
    rw [if_pos rfl]
    exact hc
  · exact absurd (hok.symm.trans (hnot result hres)) (by decide)

/-- Failure means untouched. -/
theorem untouched_downloadAndVerify (env : Env) (request : DownloadRequest) (w : World)
    (hnot : ∀ result, (downloadAndVerify env request w).2 = some result → result.ok = false) :
    (downloadAndVerify env request w).1.disk.content (locOf request.destPath)
        = w.disk.content (locOf request.destPath) ∧
      (locOf request.destPath ∉ winPath.parents request.destPath →
        (downloadAndVerify env request w).1.disk.tree.node (locOf request.destPath)
          = w.disk.tree.node (locOf request.destPath)) := by
  rcases downloadAndVerify_cases env request w _ (Disk.fileStep_staged _) with
    ⟨_, hout⟩ | ⟨_, _, result, _, _, _, _, hres, hok⟩ | ⟨_, hstaged⟩
  · rw [hout] at hnot
    exact absurd (hnot _ rfl) (by decide)
  · exact absurd (hok.symm.trans (hnot result hres)) (by decide)
  · exact untouched_of_confined _ _ _ ((confined_createDirectories request.destPath w.disk _).trans
      (hstaged.mono (fun _ h => h.elim) (fun _ h => h)))

/-- Success means verified, failure means untouched. -/
theorem finalSafe_downloadAndVerify (env : Env) (request : DownloadRequest) (w : World) :
    FinalSafe env request w (downloadAndVerify env request w) :=
  ⟨verified_downloadAndVerify env request w,
    fun _ => untouched_downloadAndVerify env request w⟩

section Divergence

/-- A server with nothing on it, asked from a machine that refuses nothing. -/
def emptyServer : Env where
  sha256Hex := fun content => content
  server := fun _ => .response 404 none [] none
  canOpen := fun _ => true
  canHash := fun _ => true
  canRename := fun _ => true

/-- A request whose path ends in a separator, so that its directory part is
    the whole path. -/
def separatorRequest : DownloadRequest where
  host := ascii "localhost"
  port := 80
  urlPath := ascii "/resources/a"
  destPath := ascii "C:\\r\\sub\\"
  expectedSize := 0
  expectedHashHex := []
  maxAttempts := 2

/-- The failed call leaves a directory where there was nothing. -/
theorem not_unchanged_trailingSeparator :
    ¬ ∀ (env : Env) (request : DownloadRequest) (w : World) (result : DownloadResult),
      (downloadAndVerify env request w).2 = some result → result.ok = false →
        fsExists (downloadAndVerify env request w).1.disk request.destPath
          = fsExists w.disk request.destPath := by
  intro h
  have hkept := h emptyServer separatorRequest ⟨Disk.bare, []⟩ (failure (ascii "HTTP 404"))
    (by decide) rfl
  exact absurd hkept (by decide)

end Divergence

end Http

end MzzPlork
