import MzzPlork.Core.Bootstrap
import MzzPlork.Theory.Report

/-!
# Whether a Run Restores What Is Missing

A file of an installed component can be lost or cut short behind the
bootstrapper's back. The update looks at the disk before it leaves a file
alone, so a component that is planned at all gets such files back. But the
plan is made from the ledger alone: when the ledger agrees with the manifest
there is no plan, nothing is looked at, and what is missing stays missing.

## Main definitions

* `SizedOn`: A listed file that is there with its size.
* `Healable`: When a component's files are all there after the update.

## Theorems

* `sized_iff_of_applied`: A component that is planned.
* `sized_applyUpdate_iff`: Any component.
* `healed_iff`: The whole run.
* `not_healed_upToDate`: A run that restores nothing.
-/

namespace MzzPlork

namespace Bootstrapper

section Update

variable (env : NodeEnv) (install : Install)

/-- A listed file is in its place, with the size it should have. -/
def SizedOn (component : Component) (d : NodeDisk) (file : FileEntry) : Prop :=
  ∃ content, d.content (pathJoin (targetDirPath install.appDataRoot component) file.path)
    = some content ∧ file.size.isNat content.length = true

theorem inside_of_plain (component : Component) (file : FileEntry) (h : Plain file.path) :
    Inside (targetDirPath install.appDataRoot component)
      (pathJoin (targetDirPath install.appDataRoot component) file.path) := by
  rw [pathJoin_plain _ _ h]
  exact inside_append _ _ (jsPath.components_ne_nil _)

/-- With plain paths, nothing is installed at the place of a file that is left
    alone. -/
theorem not_installedAt_unchanged (item : PlanItem) (d : NodeDisk) (hplain : PlainPaths item.files)
    (hparts : Partitioned item) (file : FileEntry)
    (hf : file ∈ effectiveUnchanged env install d item) (other : FileEntry) :
    ¬ InstalledAt env install item (effectiveToDownload env install d item) other
      (placeOf install item file) := by
  rintro ⟨hother, staged, hsafe, hplace⟩
  have hlisted := listed_of_effectiveToDownload env install item d hparts other hother
  rw [safePaths_plain env install item.component other (hplain.plain other hlisted)] at hsafe
  rw [← Except.ok.inj hsafe] at hplace
  have heq := hplain.inj _ other file hlisted
    (listed_of_effectiveUnchanged env install item d hparts file hf) hplace
  exact not_mem_effective env install item d hparts file hf (heq ▸ hother)

/-- An item reported ok has all its files in place, unless the removal took one
    away or a directory was taken for one. -/
theorem sized_iff_of_applied (item : PlanItem) (d d' : NodeDisk)
    (happlied : Applied env install item d d') (hplain : PlainPaths item.files)
    (hparts : Partitioned item) :
    (∀ file ∈ item.files, SizedOn install item.component d' file) ↔
      (∀ file ∈ item.files, ¬ Obsolete env install item (placeOf install item file)) ∧
      ∀ file ∈ effectiveUnchanged env install d item,
        d.isDir (placeOf install item file) = false := by
  have hinside := fun file (hf : file ∈ item.files) =>
    inside_of_plain install item.component file (hplain.plain file hf)
  -- Plain paths tell files apart, so a file left alone is nobody else's place.
  have halone := not_installedAt_unchanged env install item d hplain hparts
  have hU := listed_of_effectiveUnchanged env install item d hparts
  constructor
  · intro hsized
    have hlasting : ∀ file ∈ item.files,
        ¬ Obsolete env install item (placeOf install item file) := by
      intro file hf hobs
      rcases hsized file hf with ⟨content, hc, _⟩
      exact absurd ((happlied.removed _ hobs).symm.trans hc)
        (by simp only [reduceCtorEq, not_false_eq_true])
    refine ⟨hlasting, fun file hf => ?_⟩
    rcases hsized file (hU file hf) with ⟨content, hc, _⟩
    rw [happlied.kept _ (hinside file (hU file hf)) (hlasting file (hU file hf)) (halone file hf)]
      at hc
    by_contra hdir
    rw [Bool.not_eq_false] at hdir
    exact absurd ((d.content_of_isDir _ hdir).symm.trans hc)
      (by simp only [reduceCtorEq, not_false_eq_true])
  · rintro ⟨hlasting, hregular⟩ file hf
    rcases mem_effective env install item d hparts file hf with hu | hd
    · rcases content_of_present env d _ file (List.mem_filter.mp hu).2 (hregular file hu) with
        ⟨content, hc, hsize⟩
      refine ⟨content, ?_, hsize⟩
      exact (happlied.kept _ (hinside file hf) (hlasting file hf) (halone file hu)).trans hc
    · have hat : InstalledAt env install item (effectiveToDownload env install d item) file
          (placeOf install item file) :=
        ⟨hd, _, safePaths_plain env install item.component file (hplain.plain file hf), rfl⟩
      rcases happlied.installed file _ hat (hlasting file hf) with ⟨content, hc, hi⟩
      exact ⟨content, hc, hi.size⟩

/-- When the files of a component are all there after an update whose downloads
    all succeed. If something is planned for it, the removal must not reach a
    listed file's place, and no directory may stand for a file that is left
    alone. If nothing is, the files must be there already. -/
structure Healable (manifest : Manifest) (localVersion : Ledger) (d : NodeDisk)
    (component : Component) (remote : ComponentManifest) : Prop where
  lasting : ∀ item, planComponent manifest localVersion component = some item →
    ∀ file ∈ item.files, ¬ Obsolete env install item (placeOf install item file)
  regular : ∀ item, planComponent manifest localVersion component = some item →
    ∀ file ∈ effectiveUnchanged env install d item, d.isDir (placeOf install item file) = false
  upToDate : planComponent manifest localVersion component = none →
    ∀ file ∈ remote.files, SizedOn install component d file

theorem sizedOn_congr (component : Component) (d d' : NodeDisk) (file : FileEntry)
    (hplain : Plain file.path)
    (hnode : ∀ l, Inside (targetDirPath install.appDataRoot component) l →
      d'.tree.node l = d.tree.node l) :
    SizedOn install component d' file ↔ SizedOn install component d file := by
  rw [SizedOn, SizedOn, Disk.content, Disk.content,
    hnode _ (inside_of_plain install component file hplain)]

theorem sized_applyUpdate_iff (manifest : Manifest) (localVersion : Ledger) (w : NodeWorld)
    (results : List ComponentResult) (component : Component) (remote : ComponentManifest)
    (hremote : manifest component = some remote) (hplain : PlainPaths remote.files)
    (hresults : (applyUpdate env install (planUpdate manifest localVersion) w).2 = some results)
    (hok : ∀ result ∈ results, result.isOk = true) :
    (∀ file ∈ remote.files, SizedOn install component
      (applyUpdate env install (planUpdate manifest localVersion) w).1.disk file) ↔
    Healable env install manifest localVersion w.disk component remote := by
  cases hplan : planComponent manifest localVersion component with
  | none =>
      -- No item is for this component, so its directory stays as it was.
      have hnode := fun l hl => node_applyUpdate env install component
        (planUpdate manifest localVersion) (fun item hitem heq => by
          rw [mem_planUpdate, heq, hplan] at hitem
          exact absurd hitem (by simp only [reduceCtorEq, not_false_eq_true])) w l hl
      have hsized := fun file (hf : file ∈ remote.files) =>
        sizedOn_congr install component w.disk _ file (hplain.plain file hf) hnode
      constructor
      · intro h
        refine ⟨fun item hitem => ?_, fun item hitem => ?_, fun _ file hf =>
          (hsized file hf).mp (h file hf)⟩ <;>
        · rw [hplan] at hitem
          exact absurd hitem (by simp only [reduceCtorEq, not_false_eq_true])
      · intro h file hf
        exact (hsized file hf).mpr (h.upToDate hplan file hf)
  | some item =>
      -- The one item for this component, between those for others.
      rcases (planComponent_eq_some _ _ _ _).mp hplan with ⟨remote', hremote', hitem, _⟩
      rw [Option.some.inj (hremote'.symm.trans hremote)] at hitem
      have hcomponent : item.component = component := congrArg PlanItem.component hitem
      have hfiles : item.files = remote.files := congrArg PlanItem.files hitem
      have hparts : Partitioned item := hitem ▸ partitioned_planItem remote _ _
      subst hcomponent
      rcases List.append_of_mem ((mem_planUpdate _ _ _).mpr hplan) with ⟨pre, post, hsplit⟩
      have haround := node_around env install pre item post
        (hsplit ▸ pairwise_planUpdate manifest localVersion) w
      rw [hsplit] at hresults ⊢
      rcases result_of_split env install pre item post w results hresults with
        ⟨before, result, after, hplace, _, hone, hworld⟩
      have hmem : result ∈ results := hplace ▸ List.mem_append_right before List.mem_cons_self
      have happlied : Applied env install item (applyUpdate env install pre w).1.disk
          (applyItem env install item (applyUpdate env install pre w).1).1.disk := by
        cases result with
        | failed _ _ => exact Bool.noConfusion (hok _ hmem)
        | ok => exact (applied_applyItem env install item _ _ _ _ _ _ _ hone).2.2
      rw [← hfiles] at hplain ⊢
      rw [hworld]
      have hbefore := fun file (hf : file ∈ item.files) =>
        (haround (applyItem env install item (applyUpdate env install pre w).1).1
          (placeOf install item file)
          (inside_of_plain install item.component file (hplain.plain file hf))).1
      have hafter := fun file (hf : file ∈ item.files) =>
        sizedOn_congr install item.component _ _ file (hplain.plain file hf) (fun l hl =>
          (haround (applyItem env install item (applyUpdate env install pre w).1).1 l hl).2)
      have hU := (effective_congr env install item _ _ hparts hbefore).1
      rw [forall₂_congr hafter, sized_iff_of_applied env install item _ _ happlied hplain hparts,
        hU]
      have hdir := fun file (hf : file ∈ effectiveUnchanged env install w.disk item) =>
        (hbefore file (listed_of_effectiveUnchanged env install item w.disk hparts file hf))
      constructor
      · rintro ⟨hlasting, hregular⟩
        refine ⟨fun i hi => ?_, fun i hi => ?_, fun hnone => ?_⟩
        · rw [← Option.some.inj (hplan.symm.trans hi)]
          exact hlasting
        · rw [← Option.some.inj (hplan.symm.trans hi)]
          intro file hf
          rw [Disk.isDir, ← hdir file hf]
          exact hregular file hf
        · rw [hplan] at hnone
          exact absurd hnone (Option.some_ne_none _)
      · intro h
        refine ⟨h.lasting item hplan, fun file hf => ?_⟩
        rw [Disk.isDir, hdir file hf]
        exact h.regular item hplan file hf

theorem Healable.congr (manifest : Manifest) (localVersion : Ledger) (component : Component)
    (remote : ComponentManifest) (hremote : manifest component = some remote)
    (hplain : PlainPaths remote.files) (d d' : NodeDisk)
    (hnode : ∀ l, Inside (targetDirPath install.appDataRoot component) l →
      d'.tree.node l = d.tree.node l)
    (h : Healable env install manifest localVersion d component remote) :
    Healable env install manifest localVersion d' component remote := by
  refine ⟨h.lasting, fun item hitem file hf => ?_, fun hnone file hf => ?_⟩
  · rcases (planComponent_eq_some _ _ _ _).mp hitem with ⟨remote', hremote', hplan, _⟩
    rw [Option.some.inj (hremote'.symm.trans hremote)] at hplan
    have hparts : Partitioned item := hplan ▸ partitioned_planItem remote _ _
    have hcomponent : item.component = component := congrArg PlanItem.component hplan
    have hfiles : item.files = remote.files := congrArg PlanItem.files hplan
    subst hcomponent
    have hplace := fun file (hf : file ∈ item.files) => hnode _
      (inside_of_plain install item.component file (hplain.plain file (hfiles ▸ hf)))
    rw [(effective_congr env install item d d' hparts hplace).1] at hf
    rw [Disk.isDir,
      hplace file (listed_of_effectiveUnchanged env install item d hparts file hf)]
    exact h.regular item hitem file hf
  · exact (sizedOn_congr install component d d' file (hplain.plain file hf) hnode).mpr
      (h.upToDate hnone file hf)

end Update

section Run

variable (env : NodeEnv) (config : Config)

theorem confined_makeAll (ls : List JsLoc) (d : NodeDisk) :
    Disk.Confined (fun i => ∃ l ∈ ls, i <+: l) (fun _ => False) d (makeAll ls d).1 := by
  induction ls generalizing d with
  | nil => exact Disk.Confined.refl _ _ _
  | cons l ls ih =>
      have hone := (confined_mkdirRecursive d l (fun _ => False)).mono
        (fun i hi => (⟨l, List.mem_cons_self, hi⟩ : ∃ l' ∈ l :: ls, i <+: l')) (fun _ h => h)
      rw [makeAll]
      split
      · refine hone.trans ((ih _).mono (fun i hi => ?_) (fun _ h => h))
        rcases hi with ⟨l', hl', hi⟩
        exact ⟨l', List.mem_cons_of_mem l hl', hi⟩
      · exact hone

/-- The start of a run leaves the target directories alone. -/
theorem node_ensureAppData (root : JsLoc) (d : NodeDisk) (component : Component) (l : JsLoc)
    (hl : Inside (targetDirPath root component) l) :
    (ensureAppData root d).1.tree.node l = d.tree.node l := by
  refine (confined_makeAll _ d).node l ?_ (fun h => h)
  rintro ⟨l', hl', hbefore⟩
  rcases hl with ⟨rest, hne, rfl⟩
  -- A directory made at the start is at most one level below the root.
  have hlength := hbefore.length_le
  have hrest := List.length_pos_of_ne_nil hne
  have hshort : l'.length ≤ root.length + 1 := by
    rcases List.mem_cons.mp hl' with rfl | hmem
    · exact Nat.le_succ _
    · rcases List.mem_map.mp hmem with ⟨dir, _, rfl⟩
      rw [List.length_append, List.length_singleton]
  rw [targetDirPath, List.length_append, List.length_append, List.length_singleton] at hlength
  omega

/-- The disk after the update stage is the one the update leaves. -/
theorem node_updateStage (state : InstallState) (manifest : Manifest) (localVersion : Ledger)
    (w : BootWorld) : (updateStage env config state manifest localVersion w).1.node
      = (applyUpdate env config.install (planUpdate manifest localVersion) w.node).1 := by
  rw [updateStage]
  simp only []
  split
  · rename_i hempty
    rw [List.isEmpty_iff.mp hempty]
    rfl
  · split
    · rfl
    · split
      · rfl
      · split
        · rfl
        · split
          · rfl
          · split <;> rfl

/-- So is the disk after a run with an accepted manifest. -/
theorem node_runBootstrapper (reply : ManifestReply) (manifest : JsValue) (w : BootWorld)
    (hfetched : fetchManifest env.fmt reply = .ok manifest)
    (hvalid : isValidManifest env.fmt manifest = .ok true)
    (hmade : (ensureAppData config.appDataRoot w.node.disk).2 = true) :
    (runBootstrapper env config reply w).1.node
      = (applyUpdate env config.install
          (planUpdate (manifestOf manifest) (readVersion w.versionFile))
          { w.node with disk := (ensureAppData config.appDataRoot w.node.disk).1 }).1 := by
  -- An accepted manifest goes to the update whatever the state of the installation.
  have hstage : ∀ state, fetchStage env.fmt reply state = .manifest (manifestOf manifest) := by
    intro state
    rw [fetchStage, hfetched]
    simp only [hvalid]
  rw [runBootstrapper]
  simp only [hstage, if_pos hmade]
  split <;> exact node_updateStage env config _ _ _ _

/-- Every listed file is in its place, with the size it should have. -/
def Complete (manifest : Manifest) (d : NodeDisk) : Prop :=
  ∀ component remote, manifest component = some remote →
    ∀ file ∈ remote.files, SizedOn config.install component d file

/-- A run with an accepted manifest of plain paths, whose downloads all succeed,
    leaves every file in its place exactly if each component was healable. -/
theorem healed_iff (reply : ManifestReply) (manifest : JsValue) (w : BootWorld)
    (results : List ComponentResult) (hfetched : fetchManifest env.fmt reply = .ok manifest)
    (hvalid : isValidManifest env.fmt manifest = .ok true)
    (hplain : ∀ component remote, manifestOf manifest component = some remote →
      PlainPaths remote.files)
    (hmade : (ensureAppData config.appDataRoot w.node.disk).2 = true)
    (hresults : (applyUpdate env config.install
      (planUpdate (manifestOf manifest) (readVersion w.versionFile))
      { w.node with disk := (ensureAppData config.appDataRoot w.node.disk).1 }).2 = some results)
    (hok : ∀ result ∈ results, result.isOk = true) :
    Complete config (manifestOf manifest) (runBootstrapper env config reply w).1.node.disk ↔
      ∀ component remote, manifestOf manifest component = some remote →
        Healable env config.install (manifestOf manifest) (readVersion w.versionFile)
          w.node.disk component remote := by
  rw [Complete, node_runBootstrapper env config reply manifest w hfetched hvalid hmade]
  refine forall₃_congr (fun component remote hremote => ?_)
  have hnode := node_ensureAppData config.appDataRoot w.node.disk component
  rw [sized_applyUpdate_iff env config.install _ _ _ results component remote hremote
    (hplain component remote hremote) hresults hok]
  constructor
  · exact Healable.congr env config.install _ _ component remote hremote
      (hplain component remote hremote) _ _ (fun l hl => (hnode l hl).symm)
  · exact Healable.congr env config.install _ _ component remote hremote
      (hplain component remote hremote) _ _ hnode

end Run

section Divergence

def letterConfig : Config where
  appDataRoot := letterInstall.appDataRoot
  absolute := letterInstall.absolute
  downloadBaseUrl := letterInstall.downloadBaseUrl

theorem plainPaths_letter (component : Component) (remote : ComponentManifest)
    (h : manifestOf letterManifest component = some remote) : PlainPaths remote.files := by
  cases component with
  | runtime =>
      have hremote : letterRemote = remote := Option.some.inj h
      rw [← hremote]
      refine ⟨fun file hf => ?_, List.pairwise_singleton _ _⟩
      rw [List.mem_singleton.mp hf]
      exact plain_letter
  | resources =>
      have hremote : ⟨js "1.0.0", []⟩ = remote := Option.some.inj h
      rw [← hremote]
      exact ⟨fun _ hf => absurd hf List.not_mem_nil, List.Pairwise.nil⟩

/-- The first run. -/
theorem healable_letter : Healable letterEnv letterConfig.install (manifestOf letterManifest)
    defaultVersion Disk.bare .runtime letterRemote := by
  refine (healed_iff letterEnv letterConfig (.response 200 (.ok letterManifest)) letterManifest
    ⟨⟨Disk.bare, []⟩, none⟩ letterResults rfl (by decide) plainPaths_letter rfl rfl
    (by decide)).mp ?_ .runtime letterRemote rfl
  intro component remote h file hf
  cases component with
  | runtime =>
      have hremote : letterRemote = remote := Option.some.inj h
      rw [← hremote] at hf
      rw [List.mem_singleton.mp hf]
      exact ⟨letter, rfl, by decide⟩
  | resources =>
      have hremote : ⟨js "1.0.0", []⟩ = remote := Option.some.inj h
      rw [← hremote] at hf
      exact absurd hf List.not_mem_nil

/-- A ledger that agrees with the manifest. -/
def letterLedger : Ledger := fun component =>
  (manifestOf letterManifest component).map
    (fun remote => ⟨some remote.version, some remote.files⟩)

/-- There is nothing to do, so the file that was lost stays lost. -/
theorem not_healed_upToDate :
    ¬ ∀ (env : NodeEnv) (config : Config) (reply : ManifestReply) (manifest : JsValue)
      (w : BootWorld) (results : List ComponentResult),
      fetchManifest env.fmt reply = .ok manifest →
      isValidManifest env.fmt manifest = .ok true →
      (∀ component remote, manifestOf manifest component = some remote →
        PlainPaths remote.files) →
      (ensureAppData config.appDataRoot w.node.disk).2 = true →
      (applyUpdate env config.install
        (planUpdate (manifestOf manifest) (readVersion w.versionFile))
        { w.node with disk := (ensureAppData config.appDataRoot w.node.disk).1 }).2
          = some results →
      (∀ result ∈ results, result.isOk = true) →
      Complete config (manifestOf manifest) (runBootstrapper env config reply w).1.node.disk := by
  intro h
  have hcomplete := h letterEnv letterConfig (.response 200 (.ok letterManifest)) letterManifest
    ⟨⟨Disk.bare, []⟩, some letterLedger⟩ [] rfl (by decide) plainPaths_letter rfl rfl
    (fun _ hmem => absurd hmem List.not_mem_nil)
  rcases hcomplete .runtime letterRemote rfl (letterFile "a") List.mem_cons_self with ⟨_, hc, _⟩
  have hnone : (runBootstrapper letterEnv letterConfig (.response 200 (.ok letterManifest))
      ⟨⟨Disk.bare, []⟩, some letterLedger⟩).1.node.disk.content
      (pathJoin (targetDirPath letterConfig.install.appDataRoot .runtime)
        (letterFile "a").path) = none := rfl
  exact absurd (hnone.symm.trans hc) (Option.some_ne_none _).symm

end Divergence

end Bootstrapper

end MzzPlork
