import MzzPlork.Theory.Bystander
import MzzPlork.Theory.Report

/-!
# Staging Leftovers

Whether what an interrupted update left below `downloads` can stand in the way
of the next one.

Whatever lies where a file is staged, a download that starts there either
succeeds or takes it away. It fails only if the rest of the file was put behind
something foreign of the right length, and then the hash is wrong, the file is
deleted, and the second attempt starts from nothing. So two attempts are
enough, and what is staged goes into an empty target directory.

## Main definitions

* `Serves`: A server that has one content under a URL.
* `Stageable`: A place where a file can be staged, whatever lies there.
* `FirstTime`: What a component finds that is installed for the first time.

## Theorems

* `downloadFile_served`: A download over a leftover.
* `tryDownload_served`: Two attempts are enough.
* `stageAll_served`: The first phase goes through.
* `applyItem_served`: The item is reported ok.
* `applyUpdate_served`: The whole update.
-/

namespace MzzPlork

namespace Bootstrapper

/-- A server that never drops the connection and has one content under a URL.
    Asked for the rest from somewhere, it sends that, or everything. -/
structure Serves (env : NodeEnv) (url : JsString) (content : Bytes) : Prop where
  plain : ∀ sent, ∃ location,
    env.server (sent ++ [⟨url, none⟩]) = .response 200 location content none
  ranged : ∀ sent offset, 0 < offset → offset < content.length → ∃ location,
    env.server (sent ++ [⟨url, some offset⟩])
        = .response 206 location (content.drop offset) none ∨
      env.server (sent ++ [⟨url, some offset⟩]) = .response 200 location content none

/-- A place where a file can be staged: no file is on the way there, and it is
    no directory. A file may lie there. -/
structure Stageable (d : NodeDisk) (l : JsLoc) : Prop where
  way : d.clear (dirname l) = true
  regular : d.isDir l = false

/-- Two numbers on either side of a third. -/
theorem lt_of_above (n : JsNumber) (k m : Nat) (hm : n.isNat m = true) (hk : n.above k = true) :
    k < m := by
  cases n with
  | infinite negative => exact Bool.noConfusion hm
  | finite q =>
      have hq : q = m := of_decide_eq_true hm
      have hlt : (k : Rat) < q := of_decide_eq_true hk
      rw [hq] at hlt
      exact_mod_cast hlt

section Download

variable (env : NodeEnv) (url : JsString) (destPath : JsLoc) (content : Bytes)

/-- A body that comes through whole is written. -/
theorem receive_whole (resumed : Bool) (body : Bytes) (w : NodeWorld)
    (hw : w.disk.Writable destPath) :
    (receive env destPath resumed body none w).2 = none ∧
      (receive env destPath resumed body none w).1.disk.content destPath
        = some ((if resumed then (w.disk.content destPath).getD [] else []) ++ body) := by
  rw [receive]
  rcases (w.disk.write_eq_some destPath
    ((if resumed then (w.disk.content destPath).getD [] else []) ++ body)).mpr hw with ⟨d, hd⟩
  simp only [hd]
  exact ⟨rfl, (w.disk.content_write d _ _ _ hd).trans (if_pos rfl)⟩

variable (hserves : Serves env url content)

include hserves

/-- Asked for everything, the server sends everything. -/
theorem attemptFresh_served (redirectsLeft : Nat) (w : NodeWorld)
    (hw : w.disk.Writable destPath) :
    (attemptFresh env destPath redirectsLeft url w).2 = none ∧
      (attemptFresh env destPath redirectsLeft url w).1.disk.content destPath
        = some content := by
  rcases hserves.plain w.requests with ⟨location, hreply⟩
  have hwhole := receive_whole env destPath false content
    { w with requests := w.requests ++ [⟨url, none⟩] } hw
  have hattempt : attemptFresh env destPath redirectsLeft url w
      = receive env destPath false content none
        { w with requests := w.requests ++ [⟨url, none⟩] } := by
    cases redirectsLeft <;>
    · rw [attemptFresh]
      simp only [hreply]
      rfl
  rw [hattempt]
  exact hwhole

/-- Asked for the rest, the server sends the rest or, in the end, everything. -/
theorem attemptFrom_served (offset redirectsLeft : Nat) (w : NodeWorld)
    (hpos : 0 < offset) (hlt : offset < content.length) (hw : w.disk.Writable destPath) :
    (attemptFrom env destPath offset redirectsLeft url w).2 = none ∧
      ((attemptFrom env destPath offset redirectsLeft url w).1.disk.content destPath
          = some content ∨
        (attemptFrom env destPath offset redirectsLeft url w).1.disk.content destPath
          = some ((w.disk.content destPath).getD [] ++ content.drop offset)) := by
  rcases hserves.ranged w.requests offset hpos hlt with ⟨location, hreply | hreply⟩
  · have hwhole := receive_whole env destPath true (content.drop offset)
      { w with requests := w.requests ++ [⟨url, some offset⟩] } hw
    have hattempt : attemptFrom env destPath offset redirectsLeft url w
        = receive env destPath true (content.drop offset) none
          { w with requests := w.requests ++ [⟨url, some offset⟩] } := by
      cases redirectsLeft <;>
      · rw [attemptFrom]
        simp only [hreply]
        rfl
    rw [hattempt]
    exact ⟨hwhole.1, Or.inr hwhole.2⟩
  -- The leftover goes before the file is asked for again.
  · have hwhole := attemptFresh_served env url destPath content hserves redirectsLeft
      (unlink { w with requests := w.requests ++ [⟨url, some offset⟩] } destPath)
      ⟨(w.disk.isDir_remove destPath _).trans hw.1, (w.disk.isDir_remove destPath _).trans hw.2⟩
    have hattempt : attemptFrom env destPath offset redirectsLeft url w
        = attemptFresh env destPath redirectsLeft url
          (unlink { w with requests := w.requests ++ [⟨url, some offset⟩] } destPath) := by
      cases redirectsLeft <;>
      · rw [attemptFrom]
        simp only [hreply]
        rfl
    rw [hattempt]
    exact ⟨hwhole.1, Or.inl hwhole.2⟩

omit hserves

variable (expected : FileEntry) (hintact : Intact env expected content)

include hintact

/-- A file of the right length passes the check, or is deleted as corrupted. The
    content the hash is of always passes. -/
theorem checkDownload_sized (received : Bytes) (w : NodeWorld)
    (hc : w.disk.content destPath = some received) (hlen : received.length = content.length) :
    (checkDownload env destPath expected w).2 = none ∨
      received ≠ content ∧ (∃ err, (checkDownload env destPath expected w).2 = some err ∧
        err.corrupted = true) ∧
      (checkDownload env destPath expected w).1.disk.tree.node destPath = none := by
  have hsize : ¬ (!expected.size.isNat received.length) = true := by
    rw [hlen, hintact.size]
    exact Bool.false_ne_true
  rw [checkDownload]
  simp only [hc, if_neg hsize]
  by_cases hhash : (!JsValue.strictEq (.str (env.sha256Hex received)) expected.hash) = true
  · refine Or.inr ⟨fun heq => ?_, ?_⟩
    · rw [heq, hintact.hash, strictEq_str_self] at hhash
      exact absurd hhash (by decide)
    · rw [if_pos hhash, hintact.hash]
      refine ⟨⟨_, rfl, rfl⟩, ?_⟩
      exact (w.disk.node_remove destPath destPath).trans (if_pos ⟨rfl, by rw [hc]; rfl⟩)
  · rw [if_neg hhash]
    exact Or.inl rfl

/-- A download starts from nothing, or behind something shorter than the file. -/
theorem initialOffset_cases (w : NodeWorld) (hw : w.disk.Writable destPath) :
    (initialOffset env destPath expected w).1.disk.Writable destPath ∧
      ((initialOffset env destPath expected w).2 = 0 ∨
        ∃ left, w.disk.content destPath = some left ∧ left.length < content.length ∧
          initialOffset env destPath expected w = (w, left.length)) := by
  have hunlinked : (unlink w destPath).disk.Writable destPath :=
    ⟨(w.disk.isDir_remove destPath _).trans hw.1, (w.disk.isDir_remove destPath _).trans hw.2⟩
  rw [initialOffset, statSizeIfExists]
  cases hnode : w.disk.tree.node destPath with
  | none => exact ⟨hw, Or.inl rfl⟩
  | some node =>
      cases node with
      | dir => exact absurd hnode (w.disk.node_ne_dir destPath hw.2)
      | file left =>
          simp only []
          split
          · rename_i habove
            refine ⟨hw, Or.inr ⟨left, (w.disk.content_eq_some _ _).mpr hnode, ?_, rfl⟩⟩
            exact lt_of_above expected.size left.length content.length hintact.size habove
          · exact ⟨hunlinked, Or.inl rfl⟩

include hserves

/-- A download over a leftover succeeds, or finds it foreign and deletes it. From
    nothing it succeeds. -/
theorem downloadFile_served (w : NodeWorld) (hstage : Stageable w.disk destPath) :
    (downloadFile env url destPath expected w).2 = none ∨
      (w.disk.content destPath).isSome = true ∧
      (∃ err, (downloadFile env url destPath expected w).2 = some err ∧ err.corrupted = true) ∧
      (downloadFile env url destPath expected w).1.disk.tree.node destPath = none := by
  have hmade : (mkdirRecursive w.disk (dirname destPath)).2 = true :=
    (w.disk.mkdirs_inits _).1.trans hstage.way
  have hwritable : (mkdirRecursive w.disk (dirname destPath)).1.Writable destPath :=
    (w.disk.writable_mkdirs destPath hstage.way).mpr hstage.regular
  have hleft := w.disk.content_mkdirs (dirname destPath).inits destPath
  rw [downloadFile]
  simp only [if_pos hmade]
  rcases initialOffset_cases env destPath content expected hintact
    { w with disk := (mkdirRecursive w.disk (dirname destPath)).1 } hwritable with ⟨hw, hoffset⟩
  by_cases hpos : (initialOffset env destPath expected
      { w with disk := (mkdirRecursive w.disk (dirname destPath)).1 }).2 > 0
  · rcases hoffset with hzero | ⟨left, hc, hlt, hstart⟩
    · omega
    · rw [hstart] at hpos ⊢
      rcases attemptFrom_served env url destPath content hserves left.length 3
        { w with disk := (mkdirRecursive w.disk (dirname destPath)).1 } hpos hlt hwritable with
        ⟨hnone, hreceived⟩
      simp only [if_pos hpos, hnone]
      rw [hc, Option.getD_some] at hreceived
      -- The lengths add up, so only the hash can be wrong.
      have hlen : (left ++ content.drop left.length).length = content.length := by
        rw [List.length_append, List.length_drop]
        omega
      rcases hreceived with hwhole | hjoined
      · exact (checkDownload_sized env destPath content expected hintact content _ hwhole rfl).imp
          (fun h => h) (fun h => absurd rfl h.1)
      · refine (checkDownload_sized env destPath content expected hintact _ _ hjoined hlen).imp
          (fun h => h) (fun h => ⟨?_, h.2⟩)
        rw [← hleft]
        exact Option.isSome_iff_exists.mpr ⟨left, hc⟩
  · rcases attemptFresh_served env url destPath content hserves 3 _ hw with ⟨hnone, hwhole⟩
    simp only [if_neg hpos, hnone]
    exact (checkDownload_sized env destPath content expected hintact content _ hwhole rfl).imp
      (fun h => h) (fun h => absurd rfl h.1)

end Download

section Staging

variable (env : NodeEnv) (install : Install) (component : Component)

/-- Working on one file leaves a place that can be staged at as it is, if the two
    do not lie in one another. -/
theorem Stageable.of_confined {d d' : NodeDisk} {l l' : JsLoc}
    (h : Disk.Confined (fun i => i <+: dirname l) (fun i => i = l) d d')
    (hapart : ¬ l <+: l' ∧ ¬ l' <+: l) (hstage : Stageable d l') : Stageable d' l' := by
  have hway := Disk.clear_congr d d' (dirname l') (fun i hi => h.content i (fun heq =>
    hapart.1 (heq ▸ hi.trans (List.dropLast_prefix l'))))
  have hnode := h.node l' (fun hp => hapart.2 (hp.trans (List.dropLast_prefix l)))
    (fun heq => hapart.1 (heq ▸ List.prefix_refl _))
  refine ⟨hway.trans hstage.way, ?_⟩
  rw [Disk.isDir, hnode]
  exact hstage.regular

theorem confined_tryDownload (url : JsString) (destPath : JsLoc) (file : FileEntry)
    (attempts : Nat) (lastError : Option Thrown) (w : NodeWorld) :
    Disk.Confined (fun i => i <+: dirname destPath) (fun i => i = destPath) w.disk
      (tryDownload env url destPath file attempts lastError w).1.disk := by
  induction attempts generalizing lastError w with
  | zero => exact Disk.Confined.refl _ _ _
  | succ n ih =>
      have hone := confined_downloadFile env file destPath url w
      rw [tryDownload]
      split
      · exact hone
      · split
        · exact hone.trans (ih _ _)
        · exact hone

/-- Two attempts are enough: a download that fails has deleted what it started
    from. -/
theorem tryDownload_served (url : JsString) (destPath : JsLoc) (content : Bytes)
    (file : FileEntry) (hserves : Serves env url content) (hintact : Intact env file content)
    (attempts : Nat) (hattempts : 2 ≤ attempts) (lastError : Option Thrown) (w : NodeWorld)
    (hstage : Stageable w.disk destPath) :
    (tryDownload env url destPath file attempts lastError w).2 = none := by
  rcases Nat.exists_eq_add_of_le hattempts with ⟨more, rfl⟩
  rw [Nat.add_comm, tryDownload]
  rcases downloadFile_served env url destPath content hserves file hintact w hstage with
    hfirst | ⟨_, ⟨err, hfirst, hcorrupted⟩, hgone⟩
  · rw [hfirst]
  · have hretry : isRetryableError err = true := by
      rw [isRetryableError, hcorrupted]
      rfl
    simp only [hfirst, if_pos hretry]
    -- The second attempt finds nothing, and the way to it as clear as before.
    have hempty : (downloadFile env url destPath file w).1.disk.content destPath = none := by
      rw [Disk.content, hgone]
    have hagain : Stageable (downloadFile env url destPath file w).1.disk destPath := by
      have hne := w.disk.ne_nil_of_isDir_false destPath hstage.regular
      refine ⟨(Disk.clear_congr _ _ _ (fun i hi => ?_)).trans hstage.way, ?_⟩
      · refine (confined_downloadFile env file destPath url w).content i (fun heq => ?_)
        have hlen := hi.length_le
        have hpos := List.length_pos_of_ne_nil hne
        rw [heq, dirname, List.length_dropLast] at hlen
        omega
      · rw [Disk.isDir, hgone]
    rw [tryDownload]
    rcases downloadFile_served env url destPath content hserves file hintact _ hagain with
      hsecond | ⟨hsome, _⟩
    · rw [hsecond]
    · rw [hempty] at hsome
      exact Bool.noConfusion hsome

/-- The server has a listed file as the manifest describes it. -/
def Served (file : FileEntry) : Prop :=
  ∃ content, Intact env file content ∧
    Serves env (resolveDownloadUrl install.downloadBaseUrl component file) content

/-- Where a plain path is staged. -/
abbrev stagingOf (file : FileEntry) : JsLoc :=
  pathJoin (downloadsPath install.appDataRoot component) file.path

/-- The first phase works on one file after the other. -/
theorem confined_stageFile (file : FileEntry) (hplain : Plain file.path) (w : NodeWorld) :
    Disk.Confined (fun i => i <+: dirname (stagingOf install component file))
      (fun i => i = stagingOf install component file) w.disk
      (stageFile env install component file w).1.disk := by
  rw [stageFile, safePaths_plain env install component file hplain]
  simp only []
  split
  · exact Disk.Confined.refl _ _ _
  · have htried := confined_tryDownload env
      (resolveDownloadUrl install.downloadBaseUrl component file)
      (stagingOf install component file) file install.maxAttemptsPerFile.toNat none w
    split <;> exact htried

theorem stageFile_served (file : FileEntry) (hplain : Plain file.path)
    (hserved : Served env install component file) (hmax : 2 ≤ install.maxAttemptsPerFile)
    (w : NodeWorld) (hstage : Stageable w.disk (stagingOf install component file)) :
    ∃ staged, (stageFile env install component file w).2 = .ok staged := by
  rcases hserved with ⟨content, hintact, hserves⟩
  rw [stageFile, safePaths_plain env install component file hplain]
  simp only []
  split
  · exact ⟨_, rfl⟩
  · rw [tryDownload_served env _ _ content file hserves hintact _ (by omega) none w hstage]
    exact ⟨_, rfl⟩

/-- The first phase goes through. -/
theorem stageAll_served (files : List FileEntry) (hplain : PlainPaths files)
    (hserved : ∀ file ∈ files, Served env install component file)
    (hmax : 2 ≤ install.maxAttemptsPerFile) (w : NodeWorld)
    (hstage : ∀ file ∈ files, Stageable w.disk (stagingOf install component file)) :
    ∃ ss, (stageAll env install component files w).2 = .ok ss := by
  induction files generalizing w with
  | nil => exact ⟨[], rfl⟩
  | cons file files ih =>
      have hfile := hplain.plain file List.mem_cons_self
      rcases List.pairwise_cons.mp hplain.apart with ⟨hapart, hrest⟩
      rcases stageFile_served env install component file hfile
        (hserved file List.mem_cons_self) hmax w (hstage file List.mem_cons_self) with
        ⟨staged, hone⟩
      -- The other files are staged apart from this one.
      have hothers : ∀ other ∈ files, Stageable (stageFile env install component file w).1.disk
          (stagingOf install component other) := by
        intro other hother
        have hplain' := hplain.plain other (List.mem_cons_of_mem file hother)
        refine Stageable.of_confined (confined_stageFile env install component file hfile w) ?_
          (hstage other (List.mem_cons_of_mem file hother))
        rw [stagingOf, stagingOf, pathJoin_plain _ _ hfile, pathJoin_plain _ _ hplain',
          List.prefix_append_right_inj, List.prefix_append_right_inj]
        exact hapart other hother
      rcases ih ⟨fun f hf => hplain.plain f (List.mem_cons_of_mem file hf), hrest⟩
        (fun f hf => hserved f (List.mem_cons_of_mem file hf)) _ hothers with ⟨ss, hss⟩
      exact ⟨staged :: ss, (stageAll_cons_ok env install component file files w _).mpr
        ⟨staged, ss, hone, hss, rfl⟩⟩

end Staging

section Item

variable (env : NodeEnv) (install : Install)

/-- What a component finds that is installed for the first time: nothing in its
    target directory, and nothing but files where its files are staged. What
    these files hold does not matter. -/
structure FirstTime (component : Component) (files : List FileEntry) (d : NodeDisk) : Prop where
  empty : ∀ l, Inside (targetDirPath install.appDataRoot component) l → d.tree.node l = none
  target : d.clear (targetDirPath install.appDataRoot component) = true
  staging : ∀ file ∈ files, Stageable d (stagingOf install component file)

theorem FirstTime.congr {component : Component} {files : List FileEntry} {d d' : NodeDisk}
    (hlevel : Level install component d d') (hplain : PlainPaths files)
    (h : FirstTime install component files d) : FirstTime install component files d' := by
  refine ⟨fun l hl => (hlevel.inside l (Or.inl hl)).trans (h.empty l hl), ?_, fun file hf => ?_⟩
  · exact (hlevel.clear _ (Or.inl (Or.inl (List.prefix_refl _)))).trans h.target
  · have hin : Inside (downloadsPath install.appDataRoot component)
        (stagingOf install component file) := by
      rw [stagingOf, pathJoin_plain _ _ (hplain.plain file hf)]
      exact inside_append _ _ (jsPath.components_ne_nil _)
    have halong := along_of_prefix_inside _ _ (dirname (stagingOf install component file)) hin
      (List.dropLast_prefix _)
    refine ⟨(hlevel.clear _ (Or.inr halong)).trans (h.staging file hf).way, ?_⟩
    rw [Disk.isDir, hlevel.inside _ (Or.inr hin)]
    exact (h.staging file hf).regular

/-- Moves to different places whose ways are clear are not blocked. -/
theorem movable_eq_self (d : NodeDisk) (earlier : List JsLoc) (ss : List Staged)
    (hnew : ∀ s ∈ ss, s.finalPath ∉ earlier)
    (hpair : ss.Pairwise (fun s s' => s.finalPath ≠ s'.finalPath))
    (hfree : ∀ s ∈ ss, d.clear (dirname s.finalPath) = true ∧ d.isDir s.finalPath = false) :
    movable d earlier ss = ss := by
  induction ss generalizing earlier with
  | nil => rfl
  | cons s ss ih =>
      rcases List.pairwise_cons.mp hpair with ⟨hapart, hrest⟩
      have hone : blocked d earlier s.finalPath = false :=
        (blocked_eq_false d earlier _).mpr
          ⟨hnew s List.mem_cons_self, hfree s List.mem_cons_self⟩
      rw [movable, hone, if_neg Bool.false_ne_true, ih]
      · intro s' hs' hmem
        rcases List.mem_cons.mp hmem with heq | hmem
        · exact hapart s' hs' heq.symm
        · exact hnew s' (List.mem_cons_of_mem s hs') hmem
      · exact hrest
      · exact fun s' hs' => hfree s' (List.mem_cons_of_mem s hs')

/-- An item of a plan for an empty ledger: everything is to be downloaded, and
    nothing to be removed. -/
structure FromScratch (item : PlanItem) : Prop where
  toDownload : item.toDownload = item.files
  unchanged : item.unchanged = []
  toRemove : item.toRemove = []

theorem fromScratch_of_plan (manifest : Manifest) (localVersion : Ledger) (item : PlanItem)
    (hempty : (localEntry localVersion item.component).files.getD [] = [])
    (h : item ∈ planUpdate manifest localVersion) : FromScratch item := by
  rcases (planComponent_eq_some _ _ _ _).mp ((mem_planUpdate _ _ _).mp h) with
    ⟨remote, _, hitem, _⟩
  rw [hempty] at hitem
  rw [hitem]
  exact ⟨List.filter_eq_self.mpr (fun _ _ => rfl),
    List.filter_eq_nil_iff.mpr (fun _ _ => Bool.false_ne_true), rfl⟩

variable (item : PlanItem) (hscratch : FromScratch item) (hplain : PlainPaths item.files)
  (w : NodeWorld)

include hscratch

theorem effectiveToDownload_fromScratch (d : NodeDisk) :
    effectiveToDownload env install d item = item.files := by
  rw [effectiveToDownload, hscratch.unchanged, hscratch.toDownload, List.filter_nil,
    List.append_nil]

include hplain

/-- Plain paths lead to different places of an empty target directory. -/
theorem unblocked_of_firstTime (hfirst : FirstTime install item.component item.files w.disk) :
    Unblocked env install item w := by
  intro ss hss
  rw [stageItem, effectiveToDownload_fromScratch env install item hscratch] at hss
  rcases (stageAll_spec env install item.component item.files w).2 ss hss with
    ⟨hfiles, hsafe, _⟩
  have hlisted : ∀ s ∈ ss, s.file ∈ item.files := fun s hs => hfiles ▸ List.mem_map_of_mem hs
  -- A plain path is appended to the target directory as it is.
  have hfinal : ∀ s ∈ ss, s.finalPath
      = targetOf install item ++ jsPath.components s.file.path := by
    intro s hs
    have hplace := hplain.plain s.file (hlisted s hs)
    have hs' := hsafe s hs
    rw [safePaths_plain env install item.component s.file hplace] at hs'
    rw [← pathJoin_plain _ _ hplace]
    exact (congrArg Staged.finalPath (Except.ok.inj hs')).symm
  have hin : ∀ s ∈ ss, Inside (targetOf install item) s.finalPath := by
    intro s hs
    rw [hfinal s hs]
    exact inside_append _ _ (jsPath.components_ne_nil _)
  have hpair : ss.Pairwise (fun s s' => s.finalPath ≠ s'.finalPath) := by
    have hapart := hplain.apart
    rw [← hfiles, List.pairwise_map] at hapart
    refine hapart.imp_of_mem (fun {s s'} hs hs' hne heq => hne.1 ?_)
    rw [hfinal s hs, hfinal s' hs', List.append_right_inj] at heq
    rw [heq]
  -- Nothing is below the target directory yet, so nothing is in the way.
  refine movable_eq_self w.disk [] ss (fun s _ => List.not_mem_nil) hpair (fun s hs => ⟨?_, ?_⟩)
  · refine (w.disk.clear_iff _).mpr (fun i hi => ?_)
    rcases along_of_prefix_inside _ _ i (hin s hs) (hi.trans (List.dropLast_prefix _)) with
      habove | hbelow
    · exact (w.disk.clear_iff _).mp hfirst.target i habove
    · rw [Disk.content, hfirst.empty i hbelow]
  · rw [Disk.isDir, hfirst.empty _ (hin s hs)]

/-- The item is reported ok, and its files are in place. -/
theorem applyItem_served (hserved : ∀ file ∈ item.files, Served env install item.component file)
    (hmax : 2 ≤ install.maxAttemptsPerFile)
    (hfirst : FirstTime install item.component item.files w.disk) :
    ∃ downloaded removed unchanged, (applyItem env install item w).2
        = some (.ok item.component item.targetVersion item.files downloaded removed unchanged) ∧
      ∀ file ∈ item.files,
        IntactOn env install item.component (applyItem env install item w).1.disk file := by
  rcases stageAll_served env install item.component item.files hplain hserved hmax w
    hfirst.staging with ⟨ss, hss⟩
  have hunblocked := unblocked_of_firstTime env install item hscratch hplain w hfirst
  -- The first phase goes through and no move is blocked, so it is reported ok.
  have hok : ∃ downloaded removed unchanged, (applyItem env install item w).2
      = some (.ok item.component item.targetVersion item.files downloaded removed unchanged) := by
    rcases applyItem_cases env install item w with
      ⟨_, hfailed, _⟩ | ⟨hfailed, _⟩ | ⟨_, _, hblocked, _⟩ | ⟨_, _, _, hok⟩
    · rw [stageItem, effectiveToDownload_fromScratch env install item hscratch, hss] at hfailed
      exact absurd hfailed (by simp only [reduceCtorEq, not_false_eq_true])
    · rw [stageItem, effectiveToDownload_fromScratch env install item hscratch, hss] at hfailed
      exact absurd hfailed (by simp only [reduceCtorEq, not_false_eq_true])
    · exact absurd hunblocked hblocked
    · exact hok
  rcases hok with ⟨downloaded, removed, unchanged, hok⟩
  refine ⟨downloaded, removed, unchanged, hok, fun file hf => ?_⟩
  have happlied := (applied_applyItem env install item w _ _ _ _ _ _ hok).2.2
  refine happlied.installed file _ ⟨?_, _,
    safePaths_plain env install item.component file (hplain.plain file hf), rfl⟩ ?_
  · rw [effectiveToDownload_fromScratch env install item hscratch]
    exact hf
  · rintro ⟨relPath, hmem, _⟩
    rw [hscratch.toRemove] at hmem
    exact absurd hmem List.not_mem_nil

end Item

section Update

variable (env : NodeEnv) (install : Install)

/-- The parts of an update that find nothing but leftovers are all reported ok,
    whatever the leftovers are. -/
theorem applyUpdate_served (manifest : Manifest) (localVersion : Ledger)
    (hempty : ∀ component, (localEntry localVersion component).files.getD [] = [])
    (plan : List PlanItem) (hplan : plan.Sublist (planUpdate manifest localVersion))
    (hmax : 2 ≤ install.maxAttemptsPerFile) (w : NodeWorld)
    (hplain : ∀ item ∈ plan, PlainPaths item.files)
    (hserved : ∀ item ∈ plan, ∀ file ∈ item.files, Served env install item.component file)
    (hfirst : ∀ item ∈ plan, FirstTime install item.component item.files w.disk) :
    ∃ results, (applyUpdate env install plan w).2 = some results ∧
      ∀ item ∈ plan, (∃ downloaded removed unchanged, .ok item.component item.targetVersion
          item.files downloaded removed unchanged ∈ results) ∧
        ∀ file ∈ item.files,
          IntactOn env install item.component (applyUpdate env install plan w).1.disk file := by
  have hapart := (pairwise_planUpdate manifest localVersion).sublist hplan
  have hscratch : ∀ item ∈ plan, FromScratch item := fun item hitem =>
    fromScratch_of_plan manifest localVersion item (hempty _) (hplan.subset hitem)
  clear hplan
  induction plan generalizing w with
  | nil => exact ⟨[], rfl, fun _ h => absurd h List.not_mem_nil⟩
  | cons item plan ih =>
      rcases List.pairwise_cons.mp hapart with ⟨hne, hrest⟩
      have hself : item ∈ item :: plan := List.mem_cons_self
      rcases applyItem_served env install item (hscratch item hself) (hplain item hself) w
        (hserved item hself) hmax (hfirst item hself) with
        ⟨downloaded, removed, unchanged, hone, hintact⟩
      -- The other items find what they would have found before.
      have hlater : ∀ other ∈ plan, FirstTime install other.component other.files
          (applyItem env install item w).1.disk := fun other hother =>
        FirstTime.congr install (level_applyItem env item (hne other hother) w)
          (hplain other (List.mem_cons_of_mem item hother))
          (hfirst other (List.mem_cons_of_mem item hother))
      rcases ih (applyItem env install item w).1
        (fun other hother => hplain other (List.mem_cons_of_mem item hother))
        (fun other hother => hserved other (List.mem_cons_of_mem item hother)) hlater hrest
        (fun other hother => hscratch other (List.mem_cons_of_mem item hother)) with
        ⟨results, hresults, hall⟩
      rw [applyUpdate_of_some env install item plan w _ hone, hresults]
      refine ⟨_, rfl, fun other hother => ?_⟩
      rcases List.mem_cons.mp hother with rfl | hother
      · refine ⟨⟨downloaded, removed, unchanged, List.mem_cons_self⟩, fun file hf => ?_⟩
        rcases hintact file hf with ⟨content, hc, hi⟩
        have hin : Inside (targetDirPath install.appDataRoot other.component)
            (pathJoin (targetDirPath install.appDataRoot other.component) file.path) := by
          rw [pathJoin_plain _ _ ((hplain other hself).plain file hf)]
          exact inside_append _ _ (jsPath.components_ne_nil _)
        have hkept := node_applyUpdate env install other.component plan
          (fun i hi => (hne i hi).symm) (applyItem env install other w).1 _ hin
        refine ⟨content, ?_, hi⟩
        rw [Disk.content, hkept]
        exact hc
      · rcases hall other hother with ⟨⟨dl, rm, un, hmem⟩, hfiles⟩
        exact ⟨⟨dl, rm, un, List.mem_cons_of_mem _ hmem⟩, hfiles⟩

end Update

section Foreign

/-- Two letters. -/
def word : Bytes := [97, 98]

/-- `word`, under some path. -/
def wordFile : FileEntry where
  path := js "a"
  size := .finite 2
  hash := .str (js "fb8e20fc2e4c3f248c60c39bd652f3c1347298bb977b8b4d5903b85055620603")
  version := js "1.0.0"
  url := none

/-- A server that has `word` and honours ranges. The other hash is that of `word`
    behind a wrong first letter. -/
def wordEnv : NodeEnv where
  canGet := fun _ => true
  sha256Hex := fun content =>
    if content = word then js "fb8e20fc2e4c3f248c60c39bd652f3c1347298bb977b8b4d5903b85055620603"
    else js "ff108ea1c0a069a00ee5a1c9bbe72fc3d67b5f0d3accb8e132cd9e1a8dbbd50f"
  server := fun requests =>
    match requests.getLast? with
    | some ⟨_, some offset⟩ => .response 206 none (word.drop offset) none
    | _ => .response 200 none word none
  fsMessage := letterEnv.fsMessage
  dirSize := letterEnv.dirSize
  cwd := letterEnv.cwd
  fmt := letterEnv.fmt

def wordManifest : Manifest
  | .runtime => some ⟨js "1.0.0", [wordFile]⟩
  | .resources => none

/-- The disk after an interrupted download of something else. -/
def foreignDisk : NodeDisk :=
  ((mkdirRecursive Disk.bare (downloadsPath letterInstall.appDataRoot .runtime)).1.write
    (stagingOf letterInstall .runtime wordFile) [120]).getD Disk.bare

theorem serves_word (url : JsString) : Serves wordEnv url word where
  plain := fun sent => ⟨none, by simp only [wordEnv, List.getLast?_append, List.getLast?_singleton,
    Option.some_or]⟩
  ranged := fun sent offset _ _ => ⟨none, Or.inl (by
    simp only [wordEnv, List.getLast?_append, List.getLast?_singleton, Option.some_or])⟩

theorem confined_foreignDisk : Disk.Confined
    (fun i => i <+: downloadsPath letterInstall.appDataRoot .runtime)
    (fun i => i = stagingOf letterInstall .runtime wordFile) Disk.bare foreignDisk := by
  rw [foreignDisk]
  cases hd : (mkdirRecursive Disk.bare (downloadsPath letterInstall.appDataRoot .runtime)).1.write
      (stagingOf letterInstall .runtime wordFile) [120] with
  | none => exact Disk.Confined.refl _ _ _
  | some d =>
      exact (confined_mkdirRecursive _ _ _).trans (Disk.confined_write _ _ _ d _ _ hd rfl)

theorem firstTime_foreign : FirstTime letterInstall .runtime [wordFile] foreignDisk where
  empty := fun l hl => by
    have hapart := not_along_downloads letterInstall .runtime .runtime l hl
    rw [confined_foreignDisk.node l (fun hp => hapart (Or.inl hp))
      (fun heq => downloadsPath_apart letterInstall .runtime .runtime l hl (heq ▸ by decide))]
    rcases hl with ⟨rest, _, rfl⟩
    rfl
  target := by decide
  staging := fun file hf => by
    rw [List.mem_singleton.mp hf]
    exact ⟨by decide, by decide⟩

/-- The rest is put behind the wrong letter, and the second attempt starts from
    nothing. -/
theorem served_foreign : ∃ results, (applyUpdate wordEnv letterInstall
      (planUpdate wordManifest (fun _ => none)) ⟨foreignDisk, []⟩).2 = some results ∧
    ∀ item ∈ planUpdate wordManifest (fun _ => none),
      (∃ downloaded removed unchanged, .ok item.component item.targetVersion item.files downloaded
        removed unchanged ∈ results) ∧
      ∀ file ∈ item.files, IntactOn wordEnv letterInstall item.component
        (applyUpdate wordEnv letterInstall (planUpdate wordManifest (fun _ => none))
          ⟨foreignDisk, []⟩).1.disk file := by
  have hitem : ∀ item ∈ planUpdate wordManifest (fun _ => none),
      item.component = .runtime ∧ item.files = [wordFile] := by
    intro item hitem
    have hplan : planUpdate wordManifest (fun _ => none)
        = [planItem ⟨js "1.0.0", [wordFile]⟩ [] .runtime] := rfl
    rw [hplan, List.mem_singleton] at hitem
    rw [hitem]
    exact ⟨rfl, rfl⟩
  refine applyUpdate_served wordEnv letterInstall wordManifest (fun _ => none) (fun _ => rfl)
    _ (List.Sublist.refl _) (by decide) ⟨foreignDisk, []⟩ (fun item hmem => ?_)
    (fun item hmem file hf => ?_) (fun item hmem => ?_)
  · rw [(hitem item hmem).2]
    refine ⟨fun file hf => ?_, List.pairwise_singleton _ _⟩
    rw [List.mem_singleton.mp hf]
    exact plain_letter
  · rw [(hitem item hmem).2] at hf
    rw [List.mem_singleton.mp hf]
    exact ⟨word, ⟨by decide, by rfl⟩, serves_word _⟩
  · rw [(hitem item hmem).1, (hitem item hmem).2]
    exact firstTime_foreign

end Foreign

end Bootstrapper

end MzzPlork
