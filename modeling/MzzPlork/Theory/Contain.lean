import MzzPlork.Theory.Cached

/-!
# What a Manifest Can Reach

Where on the disk a resource manifest can make the client work.

The path of an entry is put behind the resources directory as it is, so what
keeps a download inside is the path alone. It does so exactly when every
directory it passes through, and the partial file, lies on the way to the
resources directory or below it (`StaysInside`). The file itself needs no
condition of its own: where the partial file lies below, the file does too or
is a directory that exists already, which no rename replaces.

For the converse a server does its worst on a disk with nothing on it but the
resources directory. It refuses all entries but one, and cuts off what it
sends for that one, so that the partial file stays.

## Main definitions

* `StaysInside`: The paths that stay inside.
* `Contained`: All changes lie inside.
* `cutServer`: The server that leaves a partial file.

## Theorems

* `contained_downloadAndVerify`: One download.
* `contained_applyEntries`: The loop over the entries.
* `contained_applyManifest_iff`: The manifests that stay inside.
* `not_contained_parentPath`: A manifest that does not.
-/

namespace MzzPlork

namespace ResourceManager

open Http

/-- Every directory a path passes through, and its partial file, lies below
    `base` or on the way to it. -/
def StaysInside (base : Loc Bytes) (destPath : Bytes) : Prop :=
  ∀ l ∈ stagingOf destPath :: winPath.parents destPath, Along base l

instance (base : Loc Bytes) (destPath : Bytes) : Decidable (StaysInside base destPath) := by
  unfold StaysInside
  infer_instance

/-- Everything that was created, overwritten, renamed or removed, directories
    included, lies below `base`. -/
def Contained (base : Loc Bytes) (d d' : ClientDisk) : Prop :=
  Disk.Confined (Inside base) (Inside base) d d'

/-- The directory itself is not among what lies below it. -/
theorem Contained.isDir {base : Loc Bytes} {d d' : ClientDisk} (h : Contained base d d')
    (hd : d.isDir base = true) : d'.isDir base = true :=
  Disk.Confined.isDir h base (not_inside_self base) hd

section Download

variable (base : Loc Bytes) (env : Env) (request : DownloadRequest) (w : World)

theorem contained_createDirectories (d : ClientDisk) (hd : d.isDir base = true)
    (hstays : StaysInside base request.destPath) :
    Contained base d (createDirectories d request.destPath) := by
  refine (confined_createDirectories request.destPath d _).mono (fun l hl => ?_) (fun _ h => h)
  -- A directory on the way to `base` is there already, so only those below are
  -- made.
  rcases hstays l (List.mem_cons_of_mem _ hl.1) with habove | hbelow
  · have hdir := d.isDir_of_prefix base l hd habove
    exact absurd (hdir.symm.trans hl.2) (by decide)
  · exact hbelow

/-- A move to a path whose partial file lies below `base`. -/
theorem contained_rename (d d' : ClientDisk) (hd : d.isDir base = true) (destPath : Bytes)
    (hstaging : Inside base (stagingOf destPath))
    (h : d.rename (stagingOf destPath) (locOf destPath) = some d') : Contained base d d' := by
  refine Disk.confined_rename _ _ d d' _ _ h hstaging ?_
  -- The file could only be on the way to `base`, where a directory is.
  rcases winPath.along_of_inside_append destPath _ suffix_not_sep (by decide) base hstaging with
    habove | hbelow
  · have hw := ((d.rename_eq_some _ _).mp ⟨d', h⟩).2.2
    exact absurd ((d.isDir_of_prefix base _ hd habove).symm.trans hw) (by decide)
  · exact hbelow

/-- One download. -/
theorem contained_downloadAndVerify (hd : w.disk.isDir base = true)
    (hname : stagingOf request.destPath ≠ base) (hstays : StaysInside base request.destPath) :
    Contained base w.disk (downloadAndVerify env request w).1.disk := by
  have hdirs := contained_createDirectories base request w.disk hd hstays
  rcases hstays (stagingOf request.destPath) List.mem_cons_self with habove | hbelow
  -- The partial file's place is a directory that holds `base`: every attempt
  -- fails to write, and there is nothing to move.
  · have hin : Inside (stagingOf request.destPath) base :=
      (inside_iff _ _).mpr ⟨habove, fun heq => hname heq.symm⟩
    rcases downloadAndVerify_cases env request w _ (Disk.fileStep_above base _ hin) with
      ⟨_, hout⟩ | ⟨disk, content, _, hsame, hc, _⟩ | ⟨_, hsame⟩
    · rw [hout]
      exact Disk.Confined.refl _ _ _
    · rw [hsame (hdirs.isDir hd)] at hc
      have hdir := Disk.isDir_of_prefix _ base _ (hdirs.isDir hd) habove
      exact absurd (hdir.symm.trans (Disk.isDir_of_content _ _ _ hc)) (by decide)
    · rw [hsame (hdirs.isDir hd)]
      exact hdirs
  -- The partial file lies below `base`, and so does the file it becomes.
  · have hmono := fun d d' (h : Disk.Staged (stagingOf request.destPath) d d') =>
      (h.mono (fun _ hf => hf.elim) (fun l hl => (hl ▸ hbelow : Inside base l)) :
        Contained base d d')
    rcases downloadAndVerify_cases env request w _ (Disk.fileStep_staged _) with
      ⟨_, hout⟩ | ⟨disk, content, _, hstaged, _, _, hrename, _⟩ | ⟨_, hstaged⟩
    · rw [hout]
      exact Disk.Confined.refl _ _ _
    · have hbefore : Contained base w.disk disk := hdirs.trans (hmono _ _ hstaged)
      exact hbefore.trans (contained_rename base disk _ (hbefore.isDir hd) _ hbelow hrename)
    · exact hdirs.trans (hmono _ _ hstaged)

end Download

section Run

variable (env : Env) (origin : Origin)

/-- Processing an entry changes the disk as its download does, or not at all. -/
theorem disk_applyEntry (s : Applied) (entry : ResourceEntry) :
    (applyEntry env origin s entry).1.world = s.world ∨
      (applyEntry env origin s entry).1.world
        = (downloadAndVerify env (requestFor origin s.registry.resourcesDir entry) s.world).1 := by
  rw [applyEntry]
  split
  · exact Or.inl rfl
  · refine Or.inr ?_
    simp only []
    split
    · rfl
    · split <;> rfl

/-- What every download keeps to, the loop keeps to. -/
theorem step_applyEntries (Q : ClientDisk → ClientDisk → Prop) (hrefl : ∀ d, Q d d)
    (htrans : ∀ d d' d'', Q d d' → Q d' d'' → Q d d'') (resourcesDir : Bytes)
    (entries : List ResourceEntry) (s : Applied) (hdir : s.registry.resourcesDir = resourcesDir)
    (hone : ∀ entry ∈ entries, ∀ w : World,
      Q w.disk (downloadAndVerify env (requestFor origin resourcesDir entry) w).1.disk) :
    Q s.world.disk (applyEntries env origin entries s).1.world.disk := by
  induction entries generalizing s with
  | nil => exact hrefl _
  | cons entry entries ih =>
      -- An entry that is there already is not downloaded.
      have hstep : Q s.world.disk (applyEntry env origin s entry).1.world.disk := by
        rcases disk_applyEntry env origin s entry with heq | heq <;> rw [heq]
        · exact hrefl _
        · rw [hdir]
          exact hone entry List.mem_cons_self s.world
      have hdir' := (handled_applyEntry env origin s entry).1.same.dir.trans hdir
      rw [applyEntries]
      split
      · exact htrans _ _ _ hstep (ih _ hdir' (fun e he => hone e (List.mem_cons_of_mem entry he)))
      · exact hstep

/-- The loop over the entries. -/
theorem contained_applyEntries (base : Loc Bytes) (resourcesDir : Bytes)
    (entries : List ResourceEntry) (s : Applied) (hdir : s.registry.resourcesDir = resourcesDir)
    (hbase : s.world.disk.isDir base = true)
    (hname : ∀ entry ∈ entries, stagingOf (targetPath resourcesDir entry) ≠ base)
    (hstays : ∀ entry ∈ entries, StaysInside base (targetPath resourcesDir entry)) :
    Contained base s.world.disk (applyEntries env origin entries s).1.world.disk := by
  refine step_applyEntries env origin (fun d d' => d.isDir base = true → Contained base d d')
    (fun d _ => Disk.Confined.refl _ _ d) (fun d d' d'' h h' hd => ?_) resourcesDir entries s hdir
    (fun entry he w hd => ?_) hbase
  · exact (h hd).trans (h' ((h hd).isDir hd))
  · exact contained_downloadAndVerify base env (requestFor origin resourcesDir entry) w hd
      (hname entry he) (hstays entry he)

/-- The journal only grows. -/
theorem confined_applyEntries (entries : List ResourceEntry) (s : Applied) :
    Disk.Confined (fun _ => True) (fun _ => True) s.world.disk
      (applyEntries env origin entries s).1.world.disk :=
  step_applyEntries env origin _ (fun d => Disk.Confined.refl _ _ d)
    (fun _ _ _ h h' => h.trans h') _ entries s rfl (fun entry _ w =>
      (confined_downloadAndVerify env (requestFor origin s.registry.resourcesDir entry) w).mono
        (fun _ _ => trivial) (fun _ _ => trivial))

end Run

section Worst

/-- A server that refuses so many requests, and cuts off the rest before their
    first byte. -/
def cutServer (refused : Nat) (history : List HttpRequest) : Reply :=
  if history.length ≤ refused then .response 404 none [] none else .response 200 none [] (some 0)

def cutEnv (refused : Nat) : Env where
  sha256Hex := fun content => content
  server := cutServer refused
  canOpen := fun _ => true
  canHash := fun _ => true
  canRename := fun _ => true

/-- There is no file on the disk. -/
def NoFiles (d : ClientDisk) : Prop := ∀ l, d.content l = none

variable (refused : Nat) (request : DownloadRequest)

theorem startDownload_noFiles (w : World) (hfree : NoFiles w.disk) :
    startDownload request w
      = ⟨{ w with disk := createDirectories w.disk request.destPath }, 0, false, []⟩ := by
  have hnone : fsFileSize (createDirectories w.disk request.destPath)
      (partialPath request.destPath) = none := by
    rw [fsFileSize, content_createDirectories, hfree]
    rfl
  rw [startDownload, initialOffset]
  simp only [hnone]

theorem fileMatchesExpected_noFiles (env : Env) (w : World) (hfree : NoFiles w.disk) :
    fileMatchesExpected env w request.destPath request.expectedSize request.expectedHashHex
      = false := by
  rw [fileMatchesExpected, hfree]

/-- The loop ends with the attempt that gives up. -/
theorem attempts_of_gaveUp (env : Env) (path : Bytes) (s : LoopState) (w : World)
    (result : DownloadResult) (h : attemptOnce env request path s = .gaveUp w result) (n : Nat) :
    attempts env request path (n + 1) s = .gaveUp w result := by
  induction n with
  | zero => exact h
  | succ n ih => rw [attempts, ih]

theorem attemptLimit_eq : ∃ n, attemptLimit request = n + 1 := by
  refine Nat.exists_eq_succ_of_ne_zero ?_
  rw [attemptLimit]
  split <;> omega

/-- A refused download sends one request and leaves no file. -/
theorem refused_downloadAndVerify (w : World) (hfree : NoFiles w.disk)
    (hsent : w.requests.length < refused) :
    (∃ result, (downloadAndVerify (cutEnv refused) request w).2 = some result ∧
      result.ok = false) ∧
    (downloadAndVerify (cutEnv refused) request w).1.requests.length = w.requests.length + 1 ∧
    NoFiles (downloadAndVerify (cutEnv refused) request w).1.disk := by
  have hreply : ∀ req, (cutEnv refused).server (w.requests ++ [req])
      = .response 404 none [] none := by
    intro req
    refine if_pos ?_
    rw [List.length_append, List.length_singleton]
    omega
  -- A 404 is not retried.
  have hfirst : ∃ req, attemptOnce (cutEnv refused) request (partialPath request.destPath)
      (startDownload request w) = .gaveUp (removePath { w with
        disk := createDirectories w.disk request.destPath, requests := w.requests ++ [req] }
        (partialPath request.destPath)) (failure (ascii "HTTP 404")) := by
    refine ⟨rangeRequest request 0, ?_⟩
    rw [startDownload_noFiles request w hfree, attemptOnce, performSingleAttempt]
    simp only [hreply]
    rfl
  rcases hfirst with ⟨req, hfirst⟩
  rcases attemptLimit_eq request with ⟨n, hn⟩
  rw [downloadAndVerify, fileMatchesExpected_noFiles request _ w hfree]
  simp only [Bool.false_eq_true, if_false, hn,
    attempts_of_gaveUp request _ _ _ _ _ hfirst n]
  refine ⟨⟨_, rfl, rfl⟩, ?_, fun l => ?_⟩
  · rw [removePath, List.length_append, List.length_singleton]
  · rw [removePath, Disk.content_erase]
    split
    · rfl
    · rw [content_createDirectories, hfree]

/-- What a cut-off download leaves of `d`: the same directories, and the partial
    file if it could be opened. -/
structure CutOff (d : ClientDisk) (w : World) : Prop where
  dirs : ∀ l, w.disk.isDir l = d.isDir l
  staging : d.Writable (stagingOf request.destPath) →
    (w.disk.content (stagingOf request.destPath)).isSome = true
  sent : refused ≤ w.requests.length

/-- The partial file is opened, if it can be, and nothing comes. -/
theorem cutOff_receiveBody (w : World) (hsent : refused ≤ w.requests.length) :
    (receiveBody (cutEnv refused) (partialPath request.destPath) 200 none [] (some 0) w).2.outcome
        = .interrupted ∧
      CutOff refused request w.disk
        (receiveBody (cutEnv refused) (partialPath request.destPath) 200 none [] (some 0) w).1 := by
  have hwrite : writePartial (cutEnv refused) w (partialPath request.destPath)
      (decide (200 = 206)) [] = (w.disk.write (stagingOf request.destPath) []).map
        (fun disk => { w with disk := disk }) := rfl
  rw [receiveBody, hwrite]
  -- Whether the file can be opened or not, the attempt counts as interrupted.
  cases hdisk : w.disk.write (stagingOf request.destPath) [] with
  | none =>
      refine ⟨rfl, fun _ => rfl, fun hw => ?_, hsent⟩
      rcases (w.disk.write_eq_some _ []).mpr hw with ⟨disk, hsome⟩
      exact absurd (hdisk.symm.trans hsome) (by simp only [reduceCtorEq, not_false_eq_true])
  | some disk =>
      refine ⟨rfl, fun l => w.disk.isDir_write disk _ l _ hdisk, fun _ => ?_, hsent⟩
      change (disk.content _).isSome = true
      rw [w.disk.content_write disk _ _ _ hdisk, if_pos rfl]
      rfl

theorem cutOff_attemptOnce (s : LoopState) (hsent : refused ≤ s.world.requests.length) :
    ∃ s', attemptOnce (cutEnv refused) request (partialPath request.destPath) s = .again s' ∧
      CutOff refused request s.world.disk s'.world := by
  have hlen : refused < (s.world.requests ++ [rangeRequest request s.offset]).length := by
    rw [List.length_append, List.length_singleton]
    omega
  have hreply : (cutEnv refused).server (s.world.requests ++ [rangeRequest request s.offset])
      = .response 200 none [] (some 0) := if_neg (by omega)
  rcases cutOff_receiveBody refused request
    { s.world with requests := s.world.requests ++ [rangeRequest request s.offset] }
    hlen.le with ⟨hout, hcut⟩
  have hattempt : performSingleAttempt (cutEnv refused) request (partialPath request.destPath)
      s.offset s.world = receiveBody (cutEnv refused) (partialPath request.destPath) 200 none []
        (some 0)
        { s.world with requests := s.world.requests ++ [rangeRequest request s.offset] } := by
    rw [performSingleAttempt]
    simp only [hreply]
    rw [if_neg (by decide), if_neg (by decide), if_neg (by decide), if_neg (by decide)]
  rw [attemptOnce, hattempt]
  simp only [hout]
  exact ⟨_, rfl, hcut⟩

/-- However often it is tried. -/
theorem cutOff_attempts (s : LoopState) (hsent : refused ≤ s.world.requests.length) (n : Nat) :
    ∃ s', attempts (cutEnv refused) request (partialPath request.destPath) (n + 1) s = .again s' ∧
      CutOff refused request s.world.disk s'.world := by
  induction n with
  | zero => exact cutOff_attemptOnce refused request s hsent
  | succ n ih =>
      rcases ih with ⟨s1, h1, hcut1⟩
      rcases cutOff_attemptOnce refused request s1 hcut1.sent with ⟨s2, h2, hcut2⟩
      refine ⟨s2, ?_, fun l => (hcut2.dirs l).trans (hcut1.dirs l), fun hw => hcut2.staging ?_,
        hcut2.sent⟩
      · rw [attempts, h1]
        exact h2
      · rw [Disk.Writable, hcut1.dirs, hcut1.dirs]
        exact hw

/-- A cut-off download leaves the directories it made, and its partial file. -/
theorem cutOff_downloadAndVerify (w : World) (hfree : NoFiles w.disk)
    (hsent : refused ≤ w.requests.length) :
    CutOff refused request (createDirectories w.disk request.destPath)
      (downloadAndVerify (cutEnv refused) request w).1 := by
  have hstart := startDownload_noFiles request w hfree
  rcases attemptLimit_eq request with ⟨n, hn⟩
  rcases cutOff_attempts refused request (startDownload request w) (by rw [hstart]; exact hsent) n
    with ⟨s', hagain, hcut⟩
  rw [hstart] at hcut hagain
  rw [downloadAndVerify, fileMatchesExpected_noFiles request _ w hfree]
  simp only [Bool.false_eq_true, if_false, hn, hstart, hagain]
  exact hcut

/-- Where there is no file, every entry is downloaded. -/
theorem world_applyEntry_noFiles (env : Env) (origin : Origin) (s : Applied)
    (entry : ResourceEntry) (hfree : NoFiles s.world.disk) :
    (applyEntry env origin s entry).1.world
      = (downloadAndVerify env (requestFor origin s.registry.resourcesDir entry) s.world).1 := by
  rw [applyEntry, localFileMatches, hfree]
  simp only [Bool.false_eq_true, if_false]
  split
  · rfl
  · split <;> rfl

/-- Refused entries leave no file. -/
theorem refused_applyEntries (origin : Origin) (entries : List ResourceEntry) (s : Applied)
    (hfree : NoFiles s.world.disk)
    (hsent : s.world.requests.length + entries.length ≤ refused) :
    (applyEntries (cutEnv refused) origin entries s).2 = true ∧
    (applyEntries (cutEnv refused) origin entries s).1.world.requests.length
      = s.world.requests.length + entries.length ∧
    NoFiles (applyEntries (cutEnv refused) origin entries s).1.world.disk := by
  induction entries generalizing s with
  | nil => exact ⟨rfl, rfl, hfree⟩
  | cons entry entries ih =>
      rw [List.length_cons] at hsent
      rcases refused_downloadAndVerify refused
        (requestFor origin s.registry.resourcesDir entry) s.world hfree (by omega) with
        ⟨⟨result, hresult, hok⟩, hlen, hfree'⟩
      have hone : (applyEntry (cutEnv refused) origin s entry).2 = true := by
        rw [applyEntry, localFileMatches, hfree]
        simp only [Bool.false_eq_true, if_false, hresult, hok]
      rw [applyEntries, if_pos hone]
      rw [← world_applyEntry_noFiles _ origin s entry hfree] at hlen hfree'
      rcases ih _ hfree' (by omega) with ⟨hthrough, hlen', hfree''⟩
      refine ⟨hthrough, ?_, hfree''⟩
      rw [hlen', hlen, List.length_cons]
      omega

end Worst

section Manifest

variable (appDataRoot : Bytes) (records : OrdMap Bytes ResourceRecord)

theorem resourcesDirOf_eq : resourcesDirOf appDataRoot = joinPath appDataRoot (ascii "resources") :=
  rfl

theorem locate_resourcesDirOf :
    locOf (resourcesDirOf appDataRoot) = locOf appDataRoot ++ [ascii "resources"] := by
  rw [locOf, resourcesDirOf_eq, locate_joinPath]
  exact winPath.descend_name (locOf appDataRoot) (ascii "resources") (by decide)

/-- No partial file has the resources directory's name. -/
theorem stagingOf_ne_resourcesDirOf (destPath : Bytes) :
    stagingOf destPath ≠ locOf (resourcesDirOf appDataRoot) := by
  rw [locate_resourcesDirOf, stagingOf, partialPath,
    winPath.locate_append destPath _ suffix_not_sep (by decide)]
  intro h
  -- One name ends in `l`, the other in `s`.
  have hlast := congrArg List.getLast? (List.singleton_inj.mp (List.append_inj' h rfl).2)
  rw [List.getLast?_append, show (ascii ".partial").getLast? = some 108 from rfl,
    Option.some_or] at hlast
  exact absurd hlast (by decide)

/-- A manager that was set up has its directory. -/
theorem isDir_of_initializeManager (d : ClientDisk) (registry : ResourceRegistry)
    (h : (initializeManager appDataRoot d).2.1 = some registry) :
    registry.resourcesDir = resourcesDirOf appDataRoot ∧
      (initializeManager appDataRoot d).1.isDir (locOf (resourcesDirOf appDataRoot)) = true := by
  rw [initializeManager] at h ⊢
  split at h
  · rename_i hmade
    rw [if_pos hmade, ← Option.some.inj h]
    exact ⟨rfl, Disk.isDir_mkdirs _ d hmade _ (winPath.locate_mem_parents _ 92 (by decide))⟩
  · exact absurd h (by simp only [reduceCtorEq, not_false_eq_true])

/-- What is a directory after changes inside `base` was one on the way to it, or
    lies below. -/
theorem along_of_isDir (base l : Loc Bytes) (d : ClientDisk)
    (h : Contained base (Disk.spine base) d) (hl : d.isDir l = true) : Along base l := by
  by_contra hnot
  have hnode := Disk.Confined.node h l (fun hin => hnot (Or.inr hin)) (fun hin => hnot (Or.inr hin))
  rw [Disk.isDir_iff, hnode, ← Disk.isDir_iff, Disk.isDir_spine] at hl
  exact hnot (Or.inl hl)

/-- What is a file after changes inside `base` lies below it. -/
theorem inside_of_content (base l : Loc Bytes) (d : ClientDisk)
    (h : Contained base (Disk.spine base) d) (hl : (d.content l).isSome = true) :
    Inside base l := by
  by_contra hnot
  rw [Disk.Confined.content h l hnot, Disk.content_spine] at hl
  exact Bool.noConfusion hl

/-- An entry whose path leaves the resources directory can make the client
    work outside of it. -/
theorem not_contained_of_leaving (base : Loc Bytes) (origin : Origin)
    (pre post : List ResourceEntry) (entry : ResourceEntry) (registry : ResourceRegistry)
    (hleaves : ¬ StaysInside base (targetPath registry.resourcesDir entry)) :
    ¬ Contained base (Disk.spine base) (applyEntries (cutEnv pre.length) origin
      (pre ++ entry :: post) ⟨⟨Disk.spine base, []⟩, registry, 0, 0, 0⟩).1.world.disk := by
  intro hcontained
  -- The server refuses everything before the entry, and then cuts off.
  rcases refused_applyEntries pre.length origin pre
    ⟨⟨Disk.spine base, []⟩, registry, 0, 0, 0⟩ (Disk.content_spine base)
    (by simp only [List.length_nil, Nat.zero_add, le_refl]) with ⟨hthrough, hlen, hfree⟩
  have hdir := (sameEntries_applyEntries (cutEnv pre.length) origin pre
    ⟨⟨Disk.spine base, []⟩, registry, 0, 0, 0⟩).dir
  have hpre := confined_applyEntries (cutEnv pre.length) origin pre
    ⟨⟨Disk.spine base, []⟩, registry, 0, 0, 0⟩
  have hpost := confined_applyEntries (cutEnv pre.length) origin post
  rw [applyEntries_append, if_pos hthrough] at hcontained
  generalize (applyEntries (cutEnv pre.length) origin pre
    ⟨⟨Disk.spine base, []⟩, registry, 0, 0, 0⟩).1 = s at *
  rw [show registry.resourcesDir = s.registry.resourcesDir from hdir.symm] at hleaves
  have hcut := cutOff_downloadAndVerify pre.length
    (requestFor origin s.registry.resourcesDir entry) s.world hfree
    (by rw [hlen, List.length_nil, Nat.zero_add])
  have hown := confined_downloadAndVerify (cutEnv pre.length)
    (requestFor origin s.registry.resourcesDir entry) s.world
  rw [← world_applyEntry_noFiles _ origin s entry hfree] at hcut hown
  -- The entry's own download, and with it all that came before, stayed inside.
  have hentry : Contained base (Disk.spine base)
      (applyEntry (cutEnv pre.length) origin s entry).1.world.disk := by
    refine Disk.Confined.left hcontained
      (hpre.trans (hown.mono (fun _ _ => trivial) (fun _ _ => trivial))) ?_
    rw [applyEntries]
    split
    · exact hpost _
    · exact Disk.Confined.refl _ _ _
  have hmade := Disk.isDir_mkdirs _ s.world.disk (Disk.mkdirs_parents winPath s.world.disk
    (targetPath s.registry.resourcesDir entry) (fun l _ => hfree l))
  refine hleaves (fun l hl => ?_)
  rcases List.mem_cons.mp hl with rfl | hl
  -- The partial file is there, or a directory is in its place: there is no
  -- other reason for not being able to write it.
  · by_cases hw : (createDirectories s.world.disk
        (targetPath s.registry.resourcesDir entry)).Writable
        (stagingOf (targetPath s.registry.resourcesDir entry))
    · exact Or.inr (inside_of_content base _ _ hentry (hcut.staging hw))
    · refine along_of_isDir base _ _ hentry ((hcut.dirs _).trans ?_)
      by_contra hnot
      refine hw ⟨?_, Bool.eq_false_iff.mpr hnot⟩
      rw [dropLast_stagingOf]
      exact isDir_dirOf _ _ (fun l _ => hfree l)
  · exact along_of_isDir base l _ hentry ((hcut.dirs l).trans (hmade l hl))

/-- The manifests that stay inside, whatever the server and the local machine
    do. -/
theorem contained_applyManifest_iff (manifestPayload : ClientObject) :
    (∀ env serverHost (w : World), w.disk.isDir (locOf (resourcesDirOf appDataRoot)) = true →
      Contained (locOf (resourcesDirOf appDataRoot)) w.disk
        (applyManifest env (some ⟨resourcesDirOf appDataRoot, records⟩) manifestPayload serverHost
          w).1.disk) ↔
    (httpPortOf manifestPayload = 0 ∨ ∀ entry ∈ parseResourceList manifestPayload,
      StaysInside (locOf (resourcesDirOf appDataRoot))
        (targetPath (resourcesDirOf appDataRoot) entry)) := by
  constructor
  · intro hall
    by_cases hport : httpPortOf manifestPayload = 0
    · exact Or.inl hport
    · refine Or.inr (fun entry hentry => ?_)
      by_contra hleaves
      -- The entry that leaves may be any in the list, and the server lets the
      -- client come to it.
      rcases List.append_of_mem hentry with ⟨pre, post, hsplit⟩
      have hrun := hall (cutEnv pre.length) [] ⟨Disk.spine (locOf (resourcesDirOf appDataRoot)), []⟩
        ((Disk.isDir_spine _ _).mpr (List.prefix_refl _))
      rw [applyManifest] at hrun
      simp only [if_neg hport, hsplit] at hrun
      exact not_contained_of_leaving _ ⟨[], httpPortOf manifestPayload⟩ pre post entry
        (ResourceRegistry.loadManifest ⟨resourcesDirOf appDataRoot, records⟩
          (pre ++ entry :: post)) hleaves hrun
  · rintro hcond env serverHost w hbase
    rw [applyManifest]
    simp only []
    by_cases hport : httpPortOf manifestPayload = 0
    · rw [if_pos hport]
      exact Disk.Confined.refl _ _ _
    · rw [if_neg hport]
      exact contained_applyEntries env ⟨serverHost, httpPortOf manifestPayload⟩ _
        (resourcesDirOf appDataRoot) _ ⟨w, _, 0, 0, 0⟩ rfl hbase
        (fun entry _ => stagingOf_ne_resourcesDirOf appDataRoot _) (hcond.resolve_left hport)

end Manifest

section Divergence

/-- A manifest whose one path climbs out of the resources directory. -/
def parentManifest : ClientObject :=
  [(ascii "httpPort", .num 80), (ascii "resources", .arr
    [.obj [(ascii "id", .str (ascii "a")), (ascii "path", .str (ascii "..\\evil"))]])]

/-- The file is created next to the resources directory. -/
theorem not_contained_parentPath :
    ¬ ∀ (env : Env) (appDataRoot : Bytes) (records : OrdMap Bytes ResourceRecord)
      (manifestPayload : ClientObject) (serverHost : Bytes) (w : World),
      w.disk.isDir (locOf (resourcesDirOf appDataRoot)) = true →
      Contained (locOf (resourcesDirOf appDataRoot)) w.disk
        (applyManifest env (some ⟨resourcesDirOf appDataRoot, records⟩) manifestPayload serverHost
          w).1.disk := by
  intro h
  have hrun := h (letterEnv letterServer) (ascii "C:\\r") OrdMap.empty parentManifest
    (ascii "localhost") ⟨Disk.spine (locOf (resourcesDirOf (ascii "C:\\r"))), []⟩ (by decide)
  have hevil := inside_of_content _ (locOf (ascii "C:\\r\\evil")) _ hrun (by decide)
  exact absurd hevil (by decide)

end Divergence

end ResourceManager

end MzzPlork
