import MzzPlork.Theory.Blocked

/-!
# Bystanders

What the items of other components leave alone.

An item may find that an earlier one has made the directories its own ones lie
in. Everything else it can see is as it was at the start: what is in its two
directories, and which files are on the way there.

## Main definitions

* `OwnFile`, `OwnDir`: The places a component's item works in.
* `Level`: Disks that are the same to a component.

## Theorems

* `Level.content`, `Level.clear`, `Level.blocked`: What such disks agree on.
* `level_applyItem`, `level_applyUpdate`: The items of other components.
-/

namespace MzzPlork

namespace Bootstrapper

section Bystander

variable (install : Install) (component : Component)

/-- A file of the component's target directory or of its staging directory. -/
abbrev OwnFile (l : JsLoc) : Prop :=
  Inside (targetDirPath install.appDataRoot component) l ∨
    Inside (downloadsPath install.appDataRoot component) l

/-- One of the two directories, one that they lie in, or one inside. -/
abbrev OwnDir (l : JsLoc) : Prop :=
  Along (targetDirPath install.appDataRoot component) l ∨
    Along (downloadsPath install.appDataRoot component) l

/-- Disks that are the same to a component: in its two directories, and as to
    the files on the way there. Whether the directories exist may differ. -/
structure Level (d d' : NodeDisk) : Prop where
  inside : ∀ l, OwnFile install component l → d'.tree.node l = d.tree.node l
  above : ∀ l, l <+: targetDirPath install.appDataRoot component ∨
    l <+: downloadsPath install.appDataRoot component → d'.content l = d.content l

variable {install component}

theorem Level.refl (d : NodeDisk) : Level install component d d :=
  ⟨fun _ _ => rfl, fun _ _ => rfl⟩

theorem Level.symm {d d' : NodeDisk} (h : Level install component d d') :
    Level install component d' d :=
  ⟨fun l hl => (h.inside l hl).symm, fun l hl => (h.above l hl).symm⟩

theorem Level.trans {d d' d'' : NodeDisk} (h : Level install component d d')
    (h' : Level install component d' d'') : Level install component d d'' :=
  ⟨fun l hl => (h'.inside l hl).trans (h.inside l hl),
    fun l hl => (h'.above l hl).trans (h.above l hl)⟩

/-- The same files lie in the directories and on the way there. -/
theorem Level.content {d d' : NodeDisk} (h : Level install component d d') (l : JsLoc)
    (hl : OwnDir install component l) : d'.content l = d.content l := by
  have hnode : OwnFile install component l → d'.content l = d.content l := by
    intro hin
    rw [Disk.content, h.inside l hin, Disk.content]
  rcases hl with (hl | hl) | (hl | hl)
  · exact h.above l (Or.inl hl)
  · exact hnode (Or.inl hl)
  · exact h.above l (Or.inr hl)
  · exact hnode (Or.inr hl)

theorem Level.clear {d d' : NodeDisk} (h : Level install component d d') (l : JsLoc)
    (hl : OwnDir install component l) : d'.clear l = d.clear l := by
  have hway : ∀ i, i <+: l → OwnDir install component i := fun i hi =>
    hl.imp (fun hl => hl.elim (fun hp => Or.inl (hi.trans hp))
      (fun hin => along_of_prefix_inside _ l i hin hi))
      (fun hl => hl.elim (fun hp => Or.inl (hi.trans hp))
        (fun hin => along_of_prefix_inside _ l i hin hi))
  exact Disk.clear_congr _ _ _ (fun i hi => h.content i (hway i hi))

/-- They block the same places. -/
theorem Level.blocked {d d' : NodeDisk} (h : Level install component d d') (places : List JsLoc)
    (l : JsLoc) (hl : Inside (targetDirPath install.appDataRoot component) l) :
    blocked d' places l = blocked d places l := by
  have halong := along_of_prefix_inside _ l (dirname l) hl (List.dropLast_prefix l)
  rw [Bootstrapper.blocked, Bootstrapper.blocked, h.clear _ (Or.inl halong), Disk.isDir,
    h.inside l (Or.inl hl), Disk.isDir]

variable (env : NodeEnv)

/-- The next name tells whose directory a place is in. -/
theorem apart_of_inside (c c' : Component) (hne : c' ≠ c) (l : JsLoc)
    (hl : OwnFile install c l) : ¬ OwnDir install c' l := by
  rcases hl with hl | ⟨t, _, hl⟩
  · exact apart_of_ne install c c' hne l hl
  · rw [downloadsPath, List.append_assoc] at hl
    rintro (h | h)
    · exact name_ne_downloads c' (next_of_along install.appDataRoot l (js "downloads") c'.name []
        (c.name :: t) hl h)
    · refine hne (name_inj c' c (next_of_along (install.appDataRoot ++ [js "downloads"]) l c.name
        c'.name [] t ?_ ?_))
      · rw [hl, List.append_assoc]
        rfl
      · rw [downloadsPath] at h
        rw [List.append_assoc]
        exact h

/-- To a component, an item of another one changes nothing. -/
theorem level_applyItem (item : PlanItem) (hne : item.component ≠ component) (w : NodeWorld) :
    Level install component w.disk (applyItem env install item w).1.disk := by
  have hconfined := confined_applyItem env install item w
  refine ⟨fun l hl => ?_, fun l hl => ?_⟩
  · have hapart := apart_of_inside component item.component hne l hl
    exact hconfined.node l hapart (fun h => hapart (h.imp Or.inr Or.inr))
  · refine hconfined.content l (fun hin => ?_)
    -- What leads to the one's directories does not lie in the other's.
    have hboth : ∀ c c' : Component, c' ≠ c → ∀ l, OwnFile install c' l →
        ¬ (l <+: targetDirPath install.appDataRoot c ∨
          l <+: downloadsPath install.appDataRoot c) := by
      intro c c' hcc l hin h
      exact apart_of_inside c' c (Ne.symm hcc) l hin (h.imp Or.inl Or.inl)
    exact hboth component item.component hne l hin hl

theorem level_applyUpdate (plan : List PlanItem) (hne : ∀ item ∈ plan, item.component ≠ component)
    (w : NodeWorld) : Level install component w.disk (applyUpdate env install plan w).1.disk := by
  induction plan generalizing w with
  | nil => exact Level.refl _
  | cons item plan ih =>
      have hone : Level install component w.disk (applyItem env install item w).1.disk :=
        level_applyItem env item (hne item List.mem_cons_self) w
      rw [applyUpdate]
      split
      · exact hone
      · exact hone.trans (ih (fun i hi => hne i (List.mem_cons_of_mem item hi)) _)

end Bystander

end Bootstrapper

end MzzPlork
