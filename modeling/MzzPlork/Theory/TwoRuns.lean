import MzzPlork.Theory.Bystander

/-!
# Two Runs

What a component's item does on two disks that are the same to it.

On such disks, and with a network that answers each request by itself, every
call the item makes comes to the same, up to the directories the other disk had
already. So both runs report the same and leave disks that are the same to the
component again.

## Main definitions

* `PerUrl`: A network that answers each request by itself.
* `Abreast`: Two disks while one file is downloaded.

## Theorems

* `tryDownload_level`, `stageAll_level`: The first phase on both.
* `moveAll_level`, `removeAll_level`: The second phase on both.
* `applyItem_level`: The whole item, where both second looks agree.
-/

namespace MzzPlork

namespace Bootstrapper

/-- What a request brings depends on that request alone. -/
def PerUrl (env : NodeEnv) : Prop :=
  ∀ rs rs' request, env.server (rs ++ [request]) = env.server (rs' ++ [request])

section OneFile

variable (install : Install) (component : Component)

/-- Two disks that are the same to a component, with the directory one file is
    to lie in. -/
structure Abreast (destPath : JsLoc) (d d' : NodeDisk) : Prop where
  level : Level install component d d'
  here : d.isDir (dirname destPath) = true
  there : d'.isDir (dirname destPath) = true

variable {install component}

theorem along_of_own (l i : JsLoc) (hl : OwnFile install component l) (hi : i <+: l) :
    OwnDir install component i :=
  hl.imp (fun h => along_of_prefix_inside _ l i h hi) (fun h => along_of_prefix_inside _ l i h hi)

theorem Level.isDir {d d' : NodeDisk} (h : Level install component d d') (l : JsLoc)
    (hl : OwnFile install component l) : d'.isDir l = d.isDir l := by
  rw [Disk.isDir, h.inside l hl, Disk.isDir]

theorem Level.occupied {d d' : NodeDisk} (h : Level install component d d') (l : JsLoc)
    (hl : OwnFile install component l) : d'.occupied l = d.occupied l := by
  rw [Disk.occupied, h.inside l hl, Disk.occupied]

/-- Making the way to a file comes to the same. -/
theorem Level.mkdirs {d d' : NodeDisk} (h : Level install component d d') (l : JsLoc)
    (hl : OwnDir install component l) :
    (mkdirRecursive d' l).2 = (mkdirRecursive d l).2 ∧
      Level install component (mkdirRecursive d l).1 (mkdirRecursive d' l).1 := by
  rcases d.mkdirs_inits l with ⟨hok, hnode⟩
  rcases d'.mkdirs_inits l with ⟨hok', hnode'⟩
  refine ⟨hok'.trans ((h.clear l hl).trans hok.symm), fun i hi => ?_, fun i hi => ?_⟩
  · rw [mkdirRecursive, mkdirRecursive, hnode, hnode', h.clear i (along_of_own i i hi
      (List.prefix_refl i)), h.inside i hi]
  · rw [mkdirRecursive, mkdirRecursive, Disk.content_mkdirs, Disk.content_mkdirs, h.above i hi]

theorem Level.remove {d d' : NodeDisk} (h : Level install component d d') (l : JsLoc)
    (hl : OwnFile install component l) :
    (d'.remove l).2 = (d.remove l).2 ∧
      Level install component (d.remove l).1 (d'.remove l).1 := by
  have hcontent := h.content l (along_of_own l l hl (List.prefix_refl l))
  refine ⟨?_, fun i hi => ?_, fun i hi => ?_⟩
  · simp only [Disk.remove, hcontent]
    split <;> rfl
  · rw [Disk.node_remove, Disk.node_remove, hcontent, h.inside i hi]
  · rw [Disk.content_remove, Disk.content_remove, h.above i hi]

/-- Writing the file fails on both disks or on neither. -/
theorem Abreast.write {destPath : JsLoc} {d d' : NodeDisk}
    (h : Abreast install component destPath d d') (hdest : OwnFile install component destPath)
    (content : Bytes) :
    (d.write destPath content = none ∧ d'.write destPath content = none) ∨
      ∃ e e', d.write destPath content = some e ∧ d'.write destPath content = some e' ∧
        Abreast install component destPath e e' := by
  have hdir := h.level.isDir destPath hdest
  cases hw : d.write destPath content with
  | none =>
      refine Or.inl ⟨rfl, ?_⟩
      cases hw' : d'.write destPath content with
      | none => rfl
      | some e' =>
          rcases (d'.write_eq_some destPath content).mp ⟨e', hw'⟩ with ⟨_, hnot⟩
          rcases (d.write_eq_some destPath content).mpr ⟨h.here, hdir.symm.trans hnot⟩ with ⟨e, he⟩
          exact absurd (hw.symm.trans he) (by simp only [reduceCtorEq, not_false_eq_true])
  | some e =>
      rcases (d.write_eq_some destPath content).mp ⟨e, hw⟩ with ⟨_, hnot⟩
      rcases (d'.write_eq_some destPath content).mpr ⟨h.there, hdir.trans hnot⟩ with ⟨e', hw'⟩
      refine Or.inr ⟨e, e', rfl, hw', ⟨fun i hi => ?_, fun i hi => ?_⟩, ?_, ?_⟩
      · rw [d.node_write e _ i content hw, d'.node_write e' _ i content hw', h.level.inside i hi]
      · rw [d.content_write e _ i content hw, d'.content_write e' _ i content hw',
          h.level.above i hi]
      · rw [d.isDir_write e _ _ content hw]
        exact h.here
      · rw [d'.isDir_write e' _ _ content hw']
        exact h.there

theorem Abreast.remove {destPath : JsLoc} {d d' : NodeDisk}
    (h : Abreast install component destPath d d') {l : JsLoc} (hl : OwnFile install component l) :
    Abreast install component destPath (d.remove l).1 (d'.remove l).1 where
  level := (h.level.remove l hl).2
  here := by rw [Disk.isDir_remove]; exact h.here
  there := by rw [Disk.isDir_remove]; exact h.there

end OneFile

section Download

variable (env : NodeEnv) (install : Install) (component : Component) (destPath : JsLoc)
  (hdest : OwnFile install component destPath)

/-- Two runs side by side that came to the same. -/
def Same {α : Type} (R : NodeDisk → NodeDisk → Prop) (x y : NodeWorld × α) : Prop :=
  y.2 = x.2 ∧ R x.1.disk y.1.disk

include hdest

theorem receive_abreast (resumed : Bool) (body : Bytes) (dropped : Option JsString)
    (w w' : NodeWorld) (h : Abreast install component destPath w.disk w'.disk) :
    Same (Abreast install component destPath) (receive env destPath resumed body dropped w)
      (receive env destPath resumed body dropped w') := by
  have hcontent := h.level.content destPath (along_of_own destPath destPath hdest
    (List.prefix_refl _))
  rw [Same, receive, receive, hcontent]
  rcases h.write hdest ((if resumed = true then (w.disk.content destPath).getD [] else []) ++ body)
    with ⟨hw, hw'⟩ | ⟨e, e', hw, hw', he⟩
  · simp only [hw, hw', fsError, h.level.occupied destPath hdest]
    exact ⟨trivial, h⟩
  · simp only [hw, hw']
    exact ⟨trivial, he⟩

theorem settle_abreast (url : JsString) (status : Nat) (body : Bytes) (dropped : Option JsString)
    (w w' : NodeWorld) (h : Abreast install component destPath w.disk w'.disk) :
    Same (Abreast install component destPath) (settle env destPath url status body dropped w)
      (settle env destPath url status body dropped w') := by
  rw [settle, settle]
  split
  · exact ⟨rfl, h⟩
  · exact receive_abreast env install component destPath hdest _ body dropped w w' h

variable (hnet : PerUrl env)

include hnet

theorem attemptFresh_abreast (redirectsLeft : Nat) (url : JsString) (w w' : NodeWorld)
    (h : Abreast install component destPath w.disk w'.disk) :
    Same (Abreast install component destPath) (attemptFresh env destPath redirectsLeft url w)
      (attemptFresh env destPath redirectsLeft url w') := by
  induction redirectsLeft generalizing url w w' with
  | zero =>
      rw [attemptFresh, attemptFresh]
      simp only [hnet w'.requests w.requests]
      split
      · exact ⟨rfl, h⟩
      · exact settle_abreast env install component destPath hdest url _ _ _ _ _ h
  | succ n ih =>
      rw [attemptFresh, attemptFresh]
      simp only [hnet w'.requests w.requests]
      split
      · exact ⟨rfl, h⟩
      · split
        · rename_i left target hleft _
          cases hleft
          split
          · exact ih target _ _ h
          · exact ⟨rfl, h⟩
        · exact settle_abreast env install component destPath hdest url _ _ _ _ _ h

theorem attemptFrom_abreast (offset redirectsLeft : Nat) (url : JsString) (w w' : NodeWorld)
    (h : Abreast install component destPath w.disk w'.disk) :
    Same (Abreast install component destPath) (attemptFrom env destPath offset redirectsLeft url w)
      (attemptFrom env destPath offset redirectsLeft url w') := by
  induction redirectsLeft generalizing url w w' with
  | zero =>
      rw [attemptFrom, attemptFrom]
      simp only [hnet w'.requests w.requests]
      split
      · exact ⟨rfl, h⟩
      · split
        · exact settle_abreast env install component destPath hdest url _ _ _ _ _ h
        · exact attemptFresh_abreast env install component destPath hdest hnet _ url _ _
            (h.remove hdest)
  | succ n ih =>
      rw [attemptFrom, attemptFrom]
      simp only [hnet w'.requests w.requests]
      split
      · exact ⟨rfl, h⟩
      · split
        · rename_i left target hleft _
          cases hleft
          split
          · exact ih target _ _ h
          · exact ⟨rfl, h⟩
        · split
          · exact settle_abreast env install component destPath hdest url _ _ _ _ _ h
          · exact attemptFresh_abreast env install component destPath hdest hnet _ url _ _
              (h.remove hdest)

omit hnet

theorem statSize_abreast (d d' : NodeDisk) (h : Level install component d d') :
    statSizeIfExists env d' destPath = statSizeIfExists env d destPath := by
  rw [statSizeIfExists, statSizeIfExists, h.inside destPath hdest]

theorem initialOffset_abreast (expected : FileEntry) (w w' : NodeWorld)
    (h : Abreast install component destPath w.disk w'.disk) :
    Same (Abreast install component destPath) (initialOffset env destPath expected w)
      (initialOffset env destPath expected w') := by
  rw [initialOffset, initialOffset,
    statSize_abreast env install component destPath hdest _ _ h.level]
  split
  · exact ⟨rfl, h⟩
  · split
    · exact ⟨rfl, h⟩
    · exact ⟨rfl, h.remove hdest⟩

theorem checkDownload_abreast (expected : FileEntry) (w w' : NodeWorld)
    (h : Abreast install component destPath w.disk w'.disk) :
    Same (Abreast install component destPath) (checkDownload env destPath expected w)
      (checkDownload env destPath expected w') := by
  have hcontent := h.level.content destPath (along_of_own destPath destPath hdest
    (List.prefix_refl _))
  rw [Same, checkDownload, checkDownload, hcontent]
  split
  · simp only [fsError, h.level.occupied destPath hdest]
    exact ⟨trivial, h⟩
  · split
    · exact ⟨rfl, h.remove hdest⟩
    · split
      · split <;> exact ⟨rfl, h.remove hdest⟩
      · exact ⟨rfl, h⟩

include hnet

/-- A download comes to the same. -/
theorem downloadFile_level (url : JsString) (expected : FileEntry) (w w' : NodeWorld)
    (h : Level install component w.disk w'.disk) :
    Same (Level install component) (downloadFile env url destPath expected w)
      (downloadFile env url destPath expected w') := by
  have hup := along_of_own destPath (dirname destPath) hdest (List.dropLast_prefix _)
  rcases h.mkdirs (dirname destPath) hup with ⟨hok, hlevel⟩
  rw [Same, downloadFile, downloadFile]
  simp only [hok]
  split
  · rename_i hmade
    have hself := (List.mem_inits (dirname destPath) _).mpr (List.prefix_refl _)
    have habreast : Abreast install component destPath
        (mkdirRecursive w.disk (dirname destPath)).1
        (mkdirRecursive w'.disk (dirname destPath)).1 :=
      ⟨hlevel, Disk.isDir_mkdirs _ _ hmade _ hself, Disk.isDir_mkdirs _ _ (hok.trans hmade) _ hself⟩
    -- Three stages on one file, as in a single run.
    rcases initialOffset_abreast env install component destPath hdest expected
      { w with disk := (mkdirRecursive w.disk (dirname destPath)).1 }
      { w' with disk := (mkdirRecursive w'.disk (dirname destPath)).1 } habreast with
      ⟨hoffset, hstart⟩
    rw [hoffset]
    generalize initialOffset env destPath expected
      { w with disk := (mkdirRecursive w.disk (dirname destPath)).1 } = start at *
    generalize initialOffset env destPath expected
      { w' with disk := (mkdirRecursive w'.disk (dirname destPath)).1 } = start' at *
    have hreceived : Same (Abreast install component destPath)
        (if start.2 > 0 then attemptFrom env destPath start.2 3 url start.1
          else attemptFresh env destPath 3 url start.1)
        (if start.2 > 0 then attemptFrom env destPath start.2 3 url start'.1
          else attemptFresh env destPath 3 url start'.1) := by
      split
      · exact attemptFrom_abreast env install component destPath hdest hnet _ _ url _ _ hstart
      · exact attemptFresh_abreast env install component destPath hdest hnet _ url _ _ hstart
    generalize (if start.2 > 0 then attemptFrom env destPath start.2 3 url start.1
      else attemptFresh env destPath 3 url start.1) = received at *
    generalize (if start.2 > 0 then attemptFrom env destPath start.2 3 url start'.1
      else attemptFresh env destPath 3 url start'.1) = received' at *
    rcases hreceived with ⟨hres, hdisk⟩
    rw [hres]
    split
    · exact ⟨rfl, hdisk.level⟩
    · rcases checkDownload_abreast env install component destPath hdest expected _ _ hdisk with
        ⟨hcheck, hdone⟩
      exact ⟨hcheck, hdone.level⟩
  · rename_i hmade
    -- Below a file there is nothing, on either disk.
    have hclear : (mkdirRecursive w.disk (dirname destPath)).1.clear (dirname destPath) = false :=
      (Disk.clear_congr _ _ _ (fun i _ => Disk.content_mkdirs _ _ i)).trans
        ((Disk.mkdirs_inits w.disk (dirname destPath)).1.symm.trans (Bool.eq_false_iff.mpr hmade))
    have hocc : (mkdirRecursive w'.disk (dirname destPath)).1.occupied (dirname destPath)
        = (mkdirRecursive w.disk (dirname destPath)).1.occupied (dirname destPath) := by
      rw [Disk.occupied_of_not_clear _ _ hclear,
        Disk.occupied_of_not_clear _ _ ((hlevel.clear _ hup).trans hclear), hlevel.content _ hup]
    simp only [fsError, hocc]
    exact ⟨trivial, hlevel⟩

end Download

section Item

variable (env : NodeEnv) (install : Install) (component : Component)

theorem ownFile_of_safePaths (file : FileEntry) (staged : Staged)
    (h : safePaths env install component file = .ok staged) :
    OwnFile install component staged.finalPath ∧ OwnFile install component staged.stagingPath := by
  rcases inside_of_safePaths env install component file staged h with ⟨hfinal, hstaging⟩
  exact ⟨Or.inl hfinal, Or.inr hstaging⟩

theorem stagedFileMatches_level (stagingPath : JsLoc) (hl : OwnFile install component stagingPath)
    (expected : FileEntry) (d d' : NodeDisk) (h : Level install component d d') :
    stagedFileMatches env d' stagingPath expected =
      stagedFileMatches env d stagingPath expected := by
  rw [stagedFileMatches, stagedFileMatches,
    statSize_abreast env install component stagingPath hl _ _ h,
    h.content _ (along_of_own stagingPath stagingPath hl (List.prefix_refl _))]

section Phase

variable (hnet : PerUrl env)

include hnet

theorem tryDownload_level (url : JsString) (stagingPath : JsLoc)
    (hl : OwnFile install component stagingPath) (file : FileEntry) (attempts : Nat)
    (lastError : Option Thrown) (w w' : NodeWorld) (h : Level install component w.disk w'.disk) :
    Same (Level install component) (tryDownload env url stagingPath file attempts lastError w)
      (tryDownload env url stagingPath file attempts lastError w') := by
  induction attempts generalizing lastError w w' with
  | zero => exact ⟨rfl, h⟩
  | succ n ih =>
      rcases downloadFile_level env install component stagingPath hl hnet url file w w' h with
        ⟨hres, hlevel⟩
      rw [tryDownload, tryDownload]
      simp only [hres]
      split
      · exact ⟨rfl, hlevel⟩
      · split
        · exact ih _ _ _ hlevel
        · exact ⟨rfl, hlevel⟩

theorem stageFile_level (file : FileEntry) (w w' : NodeWorld)
    (h : Level install component w.disk w'.disk) :
    Same (Level install component) (stageFile env install component file w)
      (stageFile env install component file w') := by
  rw [stageFile, stageFile]
  cases hsafe : safePaths env install component file with
  | error message => exact ⟨rfl, h⟩
  | ok staged =>
      have hown := (ownFile_of_safePaths env install component file staged hsafe).2
      simp only [stagedFileMatches_level env install component _ hown file _ _ h]
      split
      · exact ⟨rfl, h⟩
      · rcases tryDownload_level env install component hnet
          (resolveDownloadUrl install.downloadBaseUrl component file) staged.stagingPath hown file
          install.maxAttemptsPerFile.toNat none w w' h with ⟨hres, hlevel⟩
        simp only [hres]
        split <;> exact ⟨rfl, hlevel⟩

/-- The first phase comes to the same. -/
theorem stageAll_level (files : List FileEntry) (w w' : NodeWorld)
    (h : Level install component w.disk w'.disk) :
    Same (Level install component) (stageAll env install component files w)
      (stageAll env install component files w') := by
  induction files generalizing w w' with
  | nil => exact ⟨rfl, h⟩
  | cons file files ih =>
      rcases stageFile_level env install component hnet file w w' h with ⟨hres, hlevel⟩
      rw [stageAll, stageAll]
      simp only [hres]
      split
      · exact ⟨rfl, hlevel⟩
      · rcases ih _ _ hlevel with ⟨hrest, hdisk⟩
        exact ⟨by rw [hrest], hdisk⟩

end Phase

theorem moveOne_level (s : Staged) (hfinal : OwnFile install component s.finalPath)
    (hstaging : OwnFile install component s.stagingPath) (d d' : NodeDisk)
    (h : Level install component d d') :
    (moveOne d' s).2 = (moveOne d s).2 ∧
      Level install component (moveOne d s).1 (moveOne d' s).1 := by
  rcases h.mkdirs (dirname s.finalPath) (along_of_own s.finalPath _ hfinal
    (List.dropLast_prefix _)) with ⟨hok, hlevel⟩
  have hself := (List.mem_inits (dirname s.finalPath) _).mpr (List.prefix_refl _)
  rw [moveOne, moveOne, hok]
  by_cases hmade : (mkdirRecursive d (dirname s.finalPath)).2 = true
  · rw [if_pos hmade, if_pos hmade]
    have habreast : Abreast install component s.finalPath
        (mkdirRecursive d (dirname s.finalPath)).1 (mkdirRecursive d' (dirname s.finalPath)).1 :=
      ⟨hlevel, Disk.isDir_mkdirs _ _ hmade _ hself, Disk.isDir_mkdirs _ _ (hok.trans hmade) _ hself⟩
    generalize (mkdirRecursive d (dirname s.finalPath)).1 = e at *
    generalize (mkdirRecursive d' (dirname s.finalPath)).1 = e' at *
    rw [Disk.rename, Disk.rename,
      hlevel.content _ (along_of_own s.stagingPath _ hstaging (List.prefix_refl _))]
    cases e.content s.stagingPath with
    | none => exact ⟨rfl, hlevel⟩
    | some c =>
        rcases (habreast.remove hstaging).write hfinal c with ⟨hw, hw'⟩ | ⟨f, f', hw, hw', hf⟩
        · simp only [hw, hw']
          exact ⟨trivial, hlevel⟩
        · simp only [hw, hw']
          exact ⟨trivial, hf.level⟩
  · rw [if_neg hmade, if_neg hmade]
    exact ⟨hok, hlevel⟩

theorem moveAll_level (ss : List Staged)
    (hown : ∀ s ∈ ss, OwnFile install component s.finalPath ∧
      OwnFile install component s.stagingPath) (d d' : NodeDisk)
    (h : Level install component d d') :
    (moveAll ss d').2 = (moveAll ss d).2 ∧
      Level install component (moveAll ss d).1 (moveAll ss d').1 := by
  induction ss generalizing d d' with
  | nil => exact ⟨rfl, h⟩
  | cons s ss ih =>
      rcases moveOne_level install component s (hown s List.mem_cons_self).1
        (hown s List.mem_cons_self).2 d d' h with ⟨hok, hlevel⟩
      rw [moveAll, moveAll, hok]
      split
      · exact ih (fun s' hs' => hown s' (List.mem_cons_of_mem s hs')) _ _ hlevel
      · exact ⟨hok, hlevel⟩

theorem removeAll_level (relPaths : List JsString) (d d' : NodeDisk)
    (h : Level install component d d') :
    (removeAll env (targetDirPath install.appDataRoot component) relPaths d').2
        = (removeAll env (targetDirPath install.appDataRoot component) relPaths d).2 ∧
      Level install component
        (removeAll env (targetDirPath install.appDataRoot component) relPaths d).1
        (removeAll env (targetDirPath install.appDataRoot component) relPaths d').1 := by
  induction relPaths generalizing d d' with
  | nil => exact ⟨rfl, h⟩
  | cons relPath relPaths ih =>
      rw [removeAll, removeAll]
      cases hok : resolveSafePath env.cwd (targetDirPath install.appDataRoot component) relPath with
      | error message => exact ih d d' h
      | ok obsoletePath =>
          rcases h.remove obsoletePath (Or.inl (resolveSafePath_ok _ _ _ _ hok).2) with
            ⟨hflag, hlevel⟩
          rcases ih _ _ hlevel with ⟨hrest, hdisk⟩
          simp only [hflag, hrest]
          exact ⟨trivial, hdisk⟩

/-- A whole item comes to the same, where both second looks agree. -/
theorem applyItem_level (hnet : PerUrl env) (item : PlanItem) (w w' : NodeWorld)
    (h : Level install item.component w.disk w'.disk)
    (hlook : ∀ file ∈ item.unchanged,
      presentOnDisk env w'.disk (targetOf install item) file
        = presentOnDisk env w.disk (targetOf install item) file) :
    Same (Level install item.component) (applyItem env install item w)
      (applyItem env install item w') := by
  have hunchanged : effectiveUnchanged env install w'.disk item
      = effectiveUnchanged env install w.disk item := List.filter_congr hlook
  have hdownload : effectiveToDownload env install w'.disk item
      = effectiveToDownload env install w.disk item :=
    congrArg _ (List.filter_congr (fun file hf => congrArg not (hlook file hf)))
  rcases stageAll_level env install item.component hnet
    (effectiveToDownload env install w.disk item) w w' h with ⟨hres, hlevel⟩
  rw [Same, applyItem, applyItem]
  simp only [hunchanged, hdownload, hres]
  cases hstaged : (stageAll env install item.component
      (effectiveToDownload env install w.disk item) w).2 with
  | error failure => exact ⟨rfl, hlevel⟩
  | ok ss =>
      have hsafe := ((stageAll_spec env install item.component
        (effectiveToDownload env install w.disk item) w).2 ss hstaged).2.1
      rcases moveAll_level install item.component ss
        (fun s hs => ownFile_of_safePaths env install item.component s.file s (hsafe s hs)) _ _
        hlevel with ⟨hok, hmoved⟩
      rcases removeAll_level env install item.component item.toRemove _ _ hmoved with
        ⟨hremoved, hdone⟩
      simp only [hok, hremoved]
      split
      · exact ⟨rfl, hdone⟩
      · exact ⟨rfl, hmoved⟩

end Item

end Bootstrapper

end MzzPlork
