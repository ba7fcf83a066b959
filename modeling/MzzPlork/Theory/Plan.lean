import Mathlib.Data.List.Pairwise
import MzzPlork.Core.UpdateManager

/-!
# The Plan

What is planned for a component. A plan depends on the manifest and the ledger
alone, takes apart the manifest's list of files by what the ledger has for each
path, and has one item for a component at most. The files it leaves alone are
looked up on disk before it is carried out.

## Main definitions

* `Partitioned`: An item that takes the listed files apart.

## Theorems

* `exists_record`: What the ledger has as the manifest has it.
* `partitioned_planItem`: Every listed file is downloaded or left alone.
* `planComponent_eq_some`: What is planned for a component.
* `mem_planUpdate`, `pairwise_planUpdate`: The items of a plan.
* `mem_effective`, `content_of_present`: The second look.
-/

namespace MzzPlork

namespace Bootstrapper

theorem recordOf_spec (files : List FileEntry) (path : JsString) (record : FileEntry)
    (h : recordOf files path = some record) : record ∈ files ∧ record.path = path := by
  rw [recordOf] at h
  have hpath := List.find?_some h
  exact ⟨List.mem_reverse.mp (List.mem_of_find?_eq_some h), of_decide_eq_true hpath⟩

/-- A file the ledger has as the manifest has it. -/
theorem exists_record (files : List FileEntry) (file : FileEntry)
    (h : recordMatches files file = true) : ∃ record ∈ files, record.path = file.path ∧
      record.size = file.size ∧ JsValue.strictEq record.hash file.hash = true := by
  rw [recordMatches] at h
  split at h
  · rename_i record hrecord
    rcases recordOf_spec files _ record hrecord with ⟨hmem, hpath⟩
    rcases Bool.and_eq_true_iff.mp h with ⟨hhash, hsize⟩
    exact ⟨record, hmem, hpath, of_decide_eq_true hsize, hhash⟩
  · exact Bool.noConfusion h

/-- An item that takes the listed files apart. -/
structure Partitioned (item : PlanItem) : Prop where
  total : ∀ file ∈ item.files, file ∈ item.toDownload ∨ file ∈ item.unchanged
  download : ∀ file ∈ item.toDownload, file ∈ item.files
  unchanged : ∀ file ∈ item.unchanged, file ∈ item.files
  disjoint : ∀ file ∈ item.toDownload, file ∉ item.unchanged

theorem partitioned_planItem (remote : ComponentManifest) (localFiles : List FileEntry)
    (component : Component) : Partitioned (planItem remote localFiles component) where
  total := fun file hf => by
    cases hmatch : recordMatches localFiles file with
    | true => exact Or.inr (List.mem_filter.mpr ⟨hf, hmatch⟩)
    | false => exact Or.inl (List.mem_filter.mpr ⟨hf, by rw [hmatch]; rfl⟩)
  download := fun _ hf => (List.mem_filter.mp hf).1
  unchanged := fun _ hf => (List.mem_filter.mp hf).1
  disjoint := fun file hf hun => by
    have hdiffers := (List.mem_filter.mp hf).2
    rw [(List.mem_filter.mp hun).2] at hdiffers
    exact Bool.noConfusion hdiffers

/-- What is planned for a component. -/
theorem planComponent_eq_some (manifest : Manifest) (localVersion : Ledger) (component : Component)
    (item : PlanItem) : planComponent manifest localVersion component = some item ↔
      ∃ remote, manifest component = some remote ∧
        item = planItem remote ((localEntry localVersion component).files.getD []) component ∧
        needsAction item (localEntry localVersion component).version = true := by
  rw [planComponent]
  cases manifest component with
  | none => simp only [reduceCtorEq, false_and, exists_false]
  | some remote =>
      simp only [Option.some.injEq, exists_eq_left', Option.ite_none_right_eq_some]
      constructor
      · rintro ⟨haction, rfl⟩
        exact ⟨rfl, haction⟩
      · rintro ⟨rfl, haction⟩
        exact ⟨haction, rfl⟩

theorem mem_planUpdate (manifest : Manifest) (localVersion : Ledger) (item : PlanItem) :
    item ∈ planUpdate manifest localVersion ↔
      planComponent manifest localVersion item.component = some item := by
  rw [planUpdate, List.mem_filterMap]
  constructor
  · rintro ⟨component, _, h⟩
    rcases (planComponent_eq_some _ _ _ _).mp h with ⟨remote, _, rfl, _⟩
    exact h
  · intro h
    refine ⟨item.component, ?_, h⟩
    cases item.component <;> decide

/-- A plan has one item for a component. -/
theorem pairwise_planUpdate (manifest : Manifest) (localVersion : Ledger) :
    (planUpdate manifest localVersion).Pairwise (fun i i' => i.component ≠ i'.component) := by
  -- The plan keeps the order of the components, one item at most for each.
  have hcomponents : components.Pairwise (fun c c' => c ≠ c') := by decide
  rw [planUpdate, List.pairwise_filterMap]
  refine hcomponents.imp (fun {c c'} hne i hi i' hi' => ?_)
  rcases (planComponent_eq_some _ _ _ _).mp hi with ⟨_, _, rfl, _⟩
  rcases (planComponent_eq_some _ _ _ _).mp hi' with ⟨_, _, rfl, _⟩
  exact hne

section Recheck

variable (env : NodeEnv) (install : Install)

/-- A listed file is left alone or downloaded. -/
theorem mem_effective (item : PlanItem) (d : NodeDisk) (hparts : Partitioned item)
    (file : FileEntry) (h : file ∈ item.files) : file ∈ effectiveUnchanged env install d item ∨
      file ∈ effectiveToDownload env install d item := by
  simp only [effectiveUnchanged, effectiveToDownload, List.mem_append, List.mem_filter,
    Bool.not_eq_true']
  rcases hparts.total file h with hd | hu
  · exact Or.inr (Or.inl hd)
  · cases hp : presentOnDisk env d (targetDirPath install.appDataRoot item.component) file with
    | true => exact Or.inl ⟨hu, rfl⟩
    | false => exact Or.inr (Or.inr ⟨hu, rfl⟩)

/-- Only listed files are left alone. -/
theorem listed_of_effectiveUnchanged (item : PlanItem) (d : NodeDisk) (hparts : Partitioned item)
    (file : FileEntry) (h : file ∈ effectiveUnchanged env install d item) : file ∈ item.files :=
  hparts.unchanged file (List.mem_filter.mp h).1

/-- Only listed files are downloaded. -/
theorem listed_of_effectiveToDownload (item : PlanItem) (d : NodeDisk) (hparts : Partitioned item)
    (file : FileEntry) (h : file ∈ effectiveToDownload env install d item) : file ∈ item.files :=
  (List.mem_append.mp h).elim (hparts.download file)
    (fun hmem => hparts.unchanged file (List.mem_filter.mp hmem).1)

/-- A file that is left alone is not downloaded. -/
theorem not_mem_effective (item : PlanItem) (d : NodeDisk) (hparts : Partitioned item)
    (file : FileEntry) (h : file ∈ effectiveUnchanged env install d item) :
    file ∉ effectiveToDownload env install d item := by
  rcases List.mem_filter.mp h with ⟨hun, hpresent⟩
  intro hd
  rcases List.mem_append.mp hd with hmem | hmem
  · exact hparts.disjoint file hmem hun
  · have habsent := (List.mem_filter.mp hmem).2
    rw [hpresent] at habsent
    exact Bool.noConfusion habsent

theorem present_congr (d d' : NodeDisk) (targetDir : JsLoc) (file : FileEntry)
    (h : d'.tree.node (pathJoin targetDir file.path) = d.tree.node (pathJoin targetDir file.path)) :
    presentOnDisk env d' targetDir file = presentOnDisk env d targetDir file := by
  rw [presentOnDisk, presentOnDisk, statSizeIfExists, statSizeIfExists, h]

/-- Where the disks agree in the listed places, so do the decisions. -/
theorem effective_congr (item : PlanItem) (d d' : NodeDisk) (hparts : Partitioned item)
    (h : ∀ file ∈ item.files,
      d'.tree.node (pathJoin (targetDirPath install.appDataRoot item.component) file.path)
        = d.tree.node (pathJoin (targetDirPath install.appDataRoot item.component) file.path)) :
    effectiveUnchanged env install d' item = effectiveUnchanged env install d item ∧
      effectiveToDownload env install d' item = effectiveToDownload env install d item := by
  have hpresent := fun file (hf : file ∈ item.unchanged) =>
    present_congr env d d' _ file (h file (hparts.unchanged file hf))
  rw [effectiveToDownload, effectiveToDownload]
  exact ⟨List.filter_congr hpresent,
    congrArg _ (List.filter_congr (fun file hf => congrArg not (hpresent file hf)))⟩

/-- What passes the check on disk is a file of that size, or a directory. -/
theorem content_of_present (d : NodeDisk) (targetDir : JsLoc) (file : FileEntry)
    (h : presentOnDisk env d targetDir file = true)
    (hdir : d.isDir (pathJoin targetDir file.path) = false) :
    ∃ content, d.content (pathJoin targetDir file.path) = some content ∧
      file.size.isNat content.length = true := by
  rw [presentOnDisk, statSizeIfExists] at h
  cases hnode : d.tree.node (pathJoin targetDir file.path) with
  | none =>
      rw [hnode] at h
      exact Bool.noConfusion h
  | some node =>
      cases node with
      | dir =>
          rw [(d.isDir_iff _).mpr hnode] at hdir
          exact Bool.noConfusion hdir
      | file content =>
          rw [hnode] at h
          exact ⟨content, (d.content_eq_some _ content).mpr hnode, h⟩

end Recheck

end Bootstrapper

end MzzPlork
