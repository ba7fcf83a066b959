import MzzPlork.Theory.Install

/-!
# Blocked Moves

Which of the moves into place can go through.

Three things block the move to a place: an earlier move to the same place,
which has taken what was staged; a file on the way to the place; and a
directory in it. All three can be told before the first download. Nothing else
comes in between, since the places of one item do not lie in one another: what
is staged for them is staged in the same shape, and there they are all files.

A call that rejects has done the moves ahead of the first blocked one, and
nothing else. An item can also be without a result because it waits for a
download that has no end; it has not come to its moves then.

## Main definitions

* `blocked`, `movable`: The blocked moves, and those ahead of them.
* `Ready`: What the first phase leaves when it goes through.
* `Settles`: An item whose first phase comes to an end.
* `Unblocked`: An item whose moves all go through once it comes to them.
* `Returns`: An item that has a result.

## Theorems

* `moveAll_movable`: What becomes of the moves.
* `isSome_applyItem`: When an item has a result.
* `applyItem_cases`: What can become of an item.
* `node_of_error`, `content_of_rejected`: What an item that is not reported ok
  leaves in its target directory.
* `isSome_applyUpdate`: When an update has results.
-/

namespace MzzPlork

namespace Bootstrapper

/-- Whether the move to a place is blocked, behind the moves to some others. -/
def blocked (d : NodeDisk) (earlier : List JsLoc) (place : JsLoc) : Bool :=
  earlier.contains place || !d.clear (dirname place) || d.isDir place

/-- The moves ahead of the first one that is blocked. -/
def movable (d : NodeDisk) : List JsLoc → List Staged → List Staged
  | _, [] => []
  | earlier, staged :: stagedPaths =>
    if blocked d earlier staged.finalPath then []
    else staged :: movable d (staged.finalPath :: earlier) stagedPaths

section Moves

theorem blocked_eq_false (d : NodeDisk) (earlier : List JsLoc) (place : JsLoc) :
    blocked d earlier place = false ↔
      place ∉ earlier ∧ d.clear (dirname place) = true ∧ d.isDir place = false := by
  rw [blocked, Bool.or_eq_false_iff, Bool.or_eq_false_iff, Bool.not_eq_false', and_assoc,
    ← List.contains_iff_mem, Bool.not_eq_true]

theorem movable_subset (d : NodeDisk) (earlier : List JsLoc) (ss : List Staged) (s : Staged)
    (h : s ∈ movable d earlier ss) : s ∈ ss := by
  induction ss generalizing earlier with
  | nil => exact h
  | cons s' ss ih =>
      rw [movable] at h
      split at h
      · exact absurd h List.not_mem_nil
      · exact (List.mem_cons.mp h).elim (fun heq => heq ▸ List.mem_cons_self)
          (fun hmem => List.mem_cons_of_mem s' (ih _ hmem))

/-- A move that is not blocked goes to a new place. -/
theorem new_of_movable (d : NodeDisk) (earlier : List JsLoc) (ss : List Staged) (s : Staged)
    (h : s ∈ movable d earlier ss) : s.finalPath ∉ earlier := by
  induction ss generalizing earlier with
  | nil => exact absurd h List.not_mem_nil
  | cons s' ss ih =>
      rw [movable] at h
      split at h
      · exact absurd h List.not_mem_nil
      · rename_i hfree
        rcases List.mem_cons.mp h with rfl | hmem
        · exact ((blocked_eq_false d earlier _).mp (Bool.eq_false_iff.mpr hfree)).1
        · exact fun hin => ih _ hmem (List.mem_cons_of_mem _ hin)

/-- Disks that agree on what blocks the places agree on what can be moved. -/
theorem movable_congr (d d' : NodeDisk) (earlier : List JsLoc) (ss : List Staged)
    (h : ∀ s ∈ ss, ∀ places, blocked d' places s.finalPath = blocked d places s.finalPath) :
    movable d' earlier ss = movable d earlier ss := by
  induction ss generalizing earlier with
  | nil => rfl
  | cons s ss ih =>
      rw [movable, movable, h s List.mem_cons_self,
        ih _ (fun s' hs' => h s' (List.mem_cons_of_mem s hs'))]

/-- A move goes through if there is something to move, no file on the way and
    no directory in the place. -/
theorem moveOne_iff (d : NodeDisk) (s : Staged) :
    (moveOne d s).2 = true ↔ d.clear (dirname s.finalPath) = true ∧
      (d.content s.stagingPath).isSome = true ∧ d.isDir s.finalPath = false := by
  have hmade : (mkdirRecursive d (dirname s.finalPath)).2 = d.clear (dirname s.finalPath) :=
    (d.mkdirs_inits _).1
  rw [moveOne, hmade]
  by_cases hclear : d.clear (dirname s.finalPath) = true
  · rw [if_pos hclear, ← d.rename_mkdirs s.stagingPath s.finalPath hclear, and_iff_right hclear]
    split
    · rename_i d' hd
      exact iff_of_true rfl ⟨d', hd⟩
    · rename_i hnone
      refine iff_of_false Bool.false_ne_true ?_
      rintro ⟨d', hd⟩
      exact absurd (hnone.symm.trans hd) (by simp only [reduceCtorEq, not_false_eq_true])
  · rw [if_neg hclear, hmade]
    exact iff_of_false hclear (fun h => hclear h.1)

/-- A move that does not go through moves nothing. -/
theorem content_of_stuck (d : NodeDisk) (s : Staged) (h : (moveOne d s).2 = false) (l : JsLoc) :
    (moveOne d s).1.content l = d.content l := by
  have hmkdir := Disk.content_mkdirs (dirname s.finalPath).inits d l
  rw [moveOne] at h ⊢
  split at h
  · rename_i hmade
    rw [if_pos hmade]
    split at h
    · exact Bool.noConfusion h
    · exact hmkdir
  · rename_i hmade
    rw [if_neg hmade]
    exact hmkdir

/-- What the first phase leaves when it goes through: everything lies staged,
    apart exactly as it will be installed, and the places do not lie in one
    another, nor is anything staged on the way to one. -/
structure Ready (d : NodeDisk) (ss : List Staged) : Prop where
  staged : ∀ s ∈ ss, (d.content s.stagingPath).isSome = true
  same : ∀ s ∈ ss, ∀ s' ∈ ss, s.stagingPath = s'.stagingPath ↔ s.finalPath = s'.finalPath
  flat : ∀ s ∈ ss, ∀ s' ∈ ss, ¬ Inside s.finalPath s'.finalPath
  off : ∀ s ∈ ss, ∀ s' ∈ ss, ¬ s.stagingPath <+: s'.finalPath

/-- The disk between two moves, next to the one before the first: what was moved
    is not staged any more, and for all other places nothing has changed. -/
structure Between (d d' : NodeDisk) (earlier : List JsLoc) (ss : List Staged) : Prop where
  source : ∀ s ∈ ss, d'.content s.stagingPath
    = if s.finalPath ∈ earlier then none else d.content s.stagingPath
  way : ∀ s ∈ ss, d'.clear (dirname s.finalPath) = d.clear (dirname s.finalPath)
  place : ∀ s ∈ ss, s.finalPath ∉ earlier → d'.isDir s.finalPath = d.isDir s.finalPath

theorem Between.refl (d : NodeDisk) (ss : List Staged) : Between d d [] ss where
  source := fun _ _ => (if_neg List.not_mem_nil).symm
  way := fun _ _ => rfl
  place := fun _ _ _ => rfl

theorem inside_of_prefix_dirname (base l : JsLoc) (hl : l ≠ []) (h : base <+: dirname l) :
    Inside base l := by
  refine (inside_iff base l).mpr ⟨h.trans (List.dropLast_prefix l), fun heq => ?_⟩
  have hlen := h.length_le
  have hpos := List.length_pos_of_ne_nil hl
  rw [← heq, dirname, List.length_dropLast] at hlen
  omega

variable (d : NodeDisk) (ss₀ : List Staged) (hready : Ready d ss₀)

include hready

/-- The next move goes through unless its place is blocked. -/
theorem moveOne_between (d' : NodeDisk) (earlier : List JsLoc) (s : Staged) (ss : List Staged)
    (hs : s ∈ ss₀) (hbetween : Between d d' earlier (s :: ss)) :
    (moveOne d' s).2 = true ↔ blocked d earlier s.finalPath = false := by
  have hself : s ∈ s :: ss := List.mem_cons_self
  rw [moveOne_iff, blocked_eq_false, hbetween.way s hself, hbetween.source s hself]
  by_cases hearlier : s.finalPath ∈ earlier
  · rw [if_pos hearlier]
    exact iff_of_false (fun h => Bool.noConfusion h.2.1) (fun h => h.1 hearlier)
  · rw [if_neg hearlier, hbetween.place s hself hearlier, hready.staged s hs]
    simp only [hearlier, true_and, not_false_eq_true]

/-- A move that goes through leads from one such disk to the next. -/
theorem between_moveOne (d' : NodeDisk) (earlier : List JsLoc) (s : Staged) (ss : List Staged)
    (hsub : ∀ s' ∈ s :: ss, s' ∈ ss₀) (hbetween : Between d d' earlier (s :: ss))
    (hmoved : (moveOne d' s).2 = true) :
    Between d (moveOne d' s).1 (s.finalPath :: earlier) ss := by
  rcases moveOne_spec d' s hmoved with ⟨content, _, hread⟩
  have hs := hsub s List.mem_cons_self
  have hplace : s.finalPath ≠ [] :=
    d'.ne_nil_of_isDir_false _ ((moveOne_iff d' s).mp hmoved).2.2
  refine ⟨fun s' hs' => ?_, fun s' hs' => ?_, fun s' hs' hnew => ?_⟩
  · have hmem := hsub s' (List.mem_cons_of_mem s hs')
    have hoff : s'.stagingPath ≠ s.finalPath := fun heq =>
      hready.off s' hmem s hs (heq ▸ List.prefix_refl _)
    rw [hread, if_neg hoff, hbetween.source s' (List.mem_cons_of_mem s hs')]
    simp only [hready.same s' hmem s hs, List.mem_cons]
    by_cases heq : s'.finalPath = s.finalPath
    · rw [if_pos heq, if_pos (Or.inl heq)]
    · simp only [heq, if_false, false_or]
  · have hmem := hsub s' (List.mem_cons_of_mem s hs')
    rw [← hbetween.way s' (List.mem_cons_of_mem s hs')]
    -- Neither end of the move is on the way to another place.
    refine Disk.clear_congr _ _ _ (fun i hi => ?_)
    rw [hread, if_neg (fun heq => ?_), if_neg (fun heq => ?_)]
    · exact hready.off s hs s' hmem (heq ▸ hi.trans (List.dropLast_prefix _))
    · refine hready.flat s hs s' hmem (heq ▸ inside_of_prefix_dirname i s'.finalPath ?_ hi)
      intro hnil
      rw [hnil] at hi
      exact hplace (heq ▸ List.prefix_nil.mp hi)
  · have hmem := hsub s' (List.mem_cons_of_mem s hs')
    rw [List.mem_cons, not_or] at hnew
    have hnode := (confined_moveOne d' s).node s'.finalPath
      (fun hi => hready.flat s' hmem s hs (inside_of_prefix_dirname _ _ hplace hi))
      (fun h => h.elim (fun heq => hready.off s hs s' hmem (heq ▸ List.prefix_refl _)) hnew.1)
    rw [← hbetween.place s' (List.mem_cons_of_mem s hs') hnew.2, Disk.isDir, hnode, Disk.isDir]

/-- What becomes of the moves: they all go through exactly if none is blocked,
    and otherwise those ahead of the first blocked one do. -/
theorem moveAll_movable (d' : NodeDisk) (earlier : List JsLoc) (ss : List Staged)
    (hsub : ∀ s ∈ ss, s ∈ ss₀) (hbetween : Between d d' earlier ss) :
    ((moveAll ss d').2 = true ↔ movable d earlier ss = ss) ∧
    (∀ s ∈ movable d earlier ss,
      (moveAll ss d').1.content s.finalPath = d.content s.stagingPath) ∧
    ∀ l, (∀ s ∈ ss, l ≠ s.stagingPath) → (∀ s ∈ movable d earlier ss, l ≠ s.finalPath) →
      (moveAll ss d').1.content l = d'.content l := by
  induction ss generalizing earlier d' with
  | nil => exact ⟨iff_of_true rfl rfl, fun _ hs => absurd hs List.not_mem_nil, fun _ _ _ => rfl⟩
  | cons s ss ih =>
      have hs := hsub s List.mem_cons_self
      have hone := moveOne_between d ss₀ hready d' earlier s ss hs hbetween
      rw [moveAll, movable]
      cases hblocked : blocked d earlier s.finalPath with
      | true =>
          have hstuck : (moveOne d' s).2 = false :=
            Bool.eq_false_iff.mpr (fun h => Bool.noConfusion (hblocked.symm.trans (hone.mp h)))
          rw [hstuck, if_neg Bool.false_ne_true, if_pos rfl]
          refine ⟨iff_of_false (by rw [hstuck]; exact Bool.false_ne_true)
              (List.cons_ne_nil s ss).symm,
            fun _ hmem => absurd hmem List.not_mem_nil, fun l _ _ => ?_⟩
          exact content_of_stuck d' s hstuck l
      | false =>
          have hmoved := hone.mpr hblocked
          rw [hmoved, if_pos rfl, if_neg Bool.false_ne_true]
          rcases moveOne_spec d' s hmoved with ⟨content, hc, hread⟩
          rcases ih (moveOne d' s).1 (s.finalPath :: earlier)
            (fun s' hs' => hsub s' (List.mem_cons_of_mem s hs'))
            (between_moveOne d ss₀ hready d' earlier s ss hsub hbetween hmoved) with
            ⟨hall, hplaced, hkept⟩
          -- What is moved later goes to other places than this one.
          have hother : ∀ s' ∈ movable d (s.finalPath :: earlier) ss,
              s.finalPath ≠ s'.finalPath := fun s' hs' heq =>
            new_of_movable d _ ss s' hs' (heq ▸ List.mem_cons_self)
          have hown : ∀ s' ∈ ss, s.finalPath ≠ s'.stagingPath := fun s' hs' heq =>
            hready.off s' (hsub s' (List.mem_cons_of_mem s hs')) s hs (heq ▸ List.prefix_refl _)
          refine ⟨hall.trans ⟨fun h => by rw [h], fun h => (List.cons.inj h).2⟩,
            fun s' hs' => ?_, fun l hstaged hfinal => ?_⟩
          · rcases List.mem_cons.mp hs' with rfl | hs'
            · rw [hkept _ hown hother, hread, if_pos rfl, ← hc,
                hbetween.source _ List.mem_cons_self,
                if_neg ((blocked_eq_false d earlier _).mp hblocked).1]
            · exact hplaced s' hs'
          · rw [hkept l (fun s' hs' => hstaged s' (List.mem_cons_of_mem s hs'))
              (fun s' hs' => hfinal s' (List.mem_cons_of_mem s hs')), hread,
              if_neg (hfinal s List.mem_cons_self), if_neg (hstaged s List.mem_cons_self)]

end Moves

section Phases

variable (env : NodeEnv) (install : Install)

/-- A target directory and what leads there has no part below `downloads`. -/
theorem not_inside_downloads (c c' : Component) (l : JsLoc)
    (h : Along (targetDirPath install.appDataRoot c) l) :
    ¬ Inside (downloadsPath install.appDataRoot c') l := by
  rcases h with h | h
  · intro hin
    have hlen := (hin.below.trans h).length_le
    simp only [targetDirPath, downloadsPath, List.length_append, List.length_cons,
      List.length_nil] at hlen
    omega
  · exact downloadsPath_apart install c c' l h

/-- Nor is a target directory on the way to a staging directory. -/
theorem not_along_downloads (c c' : Component) (l : JsLoc)
    (h : Inside (targetDirPath install.appDataRoot c) l) :
    ¬ Along (downloadsPath install.appDataRoot c') l := by
  rcases h with ⟨t, _, rfl⟩
  exact fun h => name_ne_downloads c (next_of_along install.appDataRoot _ c.name (js "downloads")
    [c'.name] t (by rw [targetDirPath, List.append_assoc]; rfl) h).symm

/-- When the first phase goes through, everything lies staged: a file that is
    staged again is there again afterwards. -/
theorem isSome_of_stageAll (component : Component) (files : List FileEntry) (w : NodeWorld)
    (ss : List Staged) (h : (stageAll env install component files w).2 = .ok ss) :
    ∀ s ∈ ss, ((stageAll env install component files w).1.disk.content s.stagingPath).isSome
      = true := by
  induction files generalizing w ss with
  | nil =>
      rw [← Except.ok.inj h]
      exact fun _ hs => absurd hs List.not_mem_nil
  | cons file files ih =>
      rcases (stageAll_cons_ok env install component file files w ss).mp h with
        ⟨staged, others, hres, hothers, rfl⟩
      rcases (stageFile_spec env install component file w).2 staged hres with
        ⟨_, content, hc, _⟩
      rcases stageAll_spec env install component files
        (stageFile env install component file w).1 with ⟨honly, hall⟩
      rcases hall others hothers with ⟨hfiles, hsafe, _⟩
      rw [stageAll_cons_world env install component file files w staged hres]
      intro s hs
      rcases List.mem_cons.mp hs with rfl | hs
      · by_cases hagain : StagedAt env install component files s.stagingPath
        · rcases hagain with ⟨file', hfile', staged', hsafe', heq⟩
          rw [← hfiles] at hfile'
          rcases List.mem_map.mp hfile' with ⟨s', hs', rfl⟩
          rw [heq, Except.ok.inj (hsafe'.symm.trans (hsafe s' hs'))]
          exact ih _ others hothers s' hs'
        · rw [honly.content _ hagain, hc]
          rfl
      · exact ih _ others hothers s hs

/-- What the first phase leaves when it goes through. -/
theorem ready_of_stageAll (component : Component) (files : List FileEntry) (w : NodeWorld)
    (ss : List Staged) (h : (stageAll env install component files w).2 = .ok ss) :
    Ready (stageAll env install component files w).1.disk ss := by
  have hstaged := isSome_of_stageAll env install component files w ss h
  have hsafe := ((stageAll_spec env install component files w).2 ss h).2.1
  have hrest := fun s (hs : s ∈ ss) =>
    exists_rest_of_safePaths env install component s.file s (hsafe s hs)
  refine ⟨hstaged, fun s hs s' hs' => ?_, fun s hs s' hs' hin => ?_, fun s hs s' hs' hp => ?_⟩
  -- Two files have one final place exactly if they have one staging place.
  · rcases hrest s hs with ⟨t, _, hf, hst⟩
    rcases hrest s' hs' with ⟨t', _, hf', hst'⟩
    rw [hf, hf', hst, hst', List.append_right_inj, List.append_right_inj]
  · -- Below `downloads` the same would hold, of two files.
    rcases hrest s hs with ⟨t, _, hf, hst⟩
    rcases hrest s' hs' with ⟨t', _, hf', hst'⟩
    have hinside : Inside s.stagingPath s'.stagingPath := by
      rcases hin with ⟨u, hu, heq⟩
      rw [hf, hf', List.append_assoc, List.append_right_inj] at heq
      exact ⟨u, hu, by rw [hst, hst', heq, List.append_assoc]⟩
    rcases Option.isSome_iff_exists.mp (hstaged s' hs') with ⟨content, hc⟩
    have hdir := Disk.isDir_dropLast _ _ (Disk.occupied_of_content _ _ content hc)
    have habove : s.stagingPath <+: s'.stagingPath.dropLast := by
      rcases hinside with ⟨u, hu, heq⟩
      rw [heq, List.dropLast_append_of_ne_nil hu]
      exact List.prefix_append _ _
    rcases Option.isSome_iff_exists.mp (hstaged s hs) with ⟨content', hc'⟩
    have hnot := Disk.isDir_of_content _ _ content' hc'
    rw [Disk.isDir_of_prefix _ _ _ hdir habove] at hnot
    exact Bool.noConfusion hnot
  -- A final place is never on the way to a staging place.
  · have hin := (inside_of_safePaths env install component s'.file s' (hsafe s' hs')).1
    have hst := (inside_of_safePaths env install component s.file s (hsafe s hs)).2
    exact not_inside_downloads install component component s.stagingPath
      (along_of_prefix_inside _ _ _ hin hp) hst

/-- What blocks a place can be told before the first download. -/
theorem blocked_of_stagingOnly (component : Component) (files : List FileEntry) (d d' : NodeDisk)
    (honly : StagingOnly env install component files d d') (places : List JsLoc) (l : JsLoc)
    (hl : Inside (targetDirPath install.appDataRoot component) l) :
    blocked d' places l = blocked d places l := by
  have hclear : d'.clear (dirname l) = d.clear (dirname l) := by
    refine Disk.clear_congr _ _ _ (fun i hi => ?_)
    have halong := along_of_prefix_inside _ l i hl (hi.trans (List.dropLast_prefix l))
    exact honly.content i (fun hat => not_inside_downloads install component component i halong
      (inside_of_stagedAt env install component files i hat))
  have hdir : d'.isDir l = d.isDir l := by
    have hnode := honly.node l (not_along_downloads install component component l hl)
      (fun hat => downloadsPath_apart install component component l hl
        (inside_of_stagedAt env install component files l hat))
    rw [Disk.isDir, hnode, Disk.isDir]
  rw [blocked, blocked, hclear, hdir]

/-- The first phase of an item. -/
abbrev stageItem (item : PlanItem) (w : NodeWorld) :
    NodeWorld × Except (Option Failure) (List Staged) :=
  stageAll env install item.component (effectiveToDownload env install w.disk item) w

/-- An item whose first phase comes to an end: no redirect that it follows leads
    to a URL that `client.get` throws at. -/
def Settles (item : PlanItem) (w : NodeWorld) : Prop :=
  (stageItem env install item w).2 ≠ .error none

theorem settles_of_followable (hnet : Followable env) (item : PlanItem) (w : NodeWorld) :
    Settles env install item w :=
  ends_stageAll env hnet item.component install _ w

/-- An item whose moves all go through once it comes to them. -/
def Unblocked (item : PlanItem) (w : NodeWorld) : Prop :=
  ∀ ss, (stageItem env install item w).2 = .ok ss → movable w.disk [] ss = ss

/-- An item that has a result: its first phase comes to an end, and if it goes
    through, so do the moves. -/
def Returns (item : PlanItem) (w : NodeWorld) : Prop :=
  Settles env install item w ∧ Unblocked env install item w

/-- The moves of an item whose first phase goes through. -/
theorem moves_spec (item : PlanItem) (w : NodeWorld) (ss : List Staged)
    (h : (stageItem env install item w).2 = .ok ss) :
    ((moveAll ss (stageItem env install item w).1.disk).2 = true ↔ movable w.disk [] ss = ss) ∧
    (∀ s ∈ movable w.disk [] ss,
      (moveAll ss (stageItem env install item w).1.disk).1.content s.finalPath
        = (stageItem env install item w).1.disk.content s.stagingPath) ∧
    ∀ l, Inside (targetOf install item) l → (∀ s ∈ movable w.disk [] ss, l ≠ s.finalPath) →
      (moveAll ss (stageItem env install item w).1.disk).1.content l = w.disk.content l := by
  rcases stageAll_spec env install item.component (effectiveToDownload env install w.disk item) w
    with ⟨honly, hstaged⟩
  have hin := fun s (hs : s ∈ ss) =>
    inside_of_safePaths env install item.component s.file s ((hstaged ss h).2.1 s hs)
  have hmovable : movable (stageItem env install item w).1.disk [] ss = movable w.disk [] ss :=
    movable_congr _ _ [] ss (fun s hs places => blocked_of_stagingOnly env install item.component
      _ _ _ honly places s.finalPath (hin s hs).1)
  have hmoves := moveAll_movable _ ss (ready_of_stageAll env install item.component _ w ss h) _
    [] ss (fun _ hs => hs) (Between.refl _ ss)
  rw [hmovable] at hmoves
  rcases hmoves with ⟨hall, hplaced, hkept⟩
  refine ⟨hall, hplaced, fun l hl hfinal => (hkept l (fun s hs heq => ?_) hfinal).trans ?_⟩
  · exact downloadsPath_apart install item.component item.component l hl
      (heq ▸ (hin s hs).2)
  · exact honly.content l (fun hat => downloadsPath_apart install item.component item.component l hl
      (inside_of_stagedAt env install item.component _ l hat))

/-- An item without a result waits forever, or it gets to its moves and one of
    them is blocked. -/
theorem isSome_applyItem (item : PlanItem) (w : NodeWorld) :
    (applyItem env install item w).2.isSome = true ↔ Returns env install item w := by
  have hmoves := moves_spec env install item w
  rw [Returns, Settles, Unblocked]
  rw [applyItem]
  simp only [stageItem] at hmoves ⊢
  cases hres : (stageAll env install item.component
      (effectiveToDownload env install w.disk item) w).2 with
  | error failure =>
      cases failure with
      | none => exact iff_of_false Bool.false_ne_true (fun h => h.1 rfl)
      | some failure =>
          exact iff_of_true rfl ⟨by simp only [ne_eq, Except.error.injEq, reduceCtorEq,
            not_false_eq_true], fun _ h => absurd h (by simp only [reduceCtorEq,
            not_false_eq_true])⟩
  | ok ss =>
      have hone := (hmoves ss hres).1
      simp only [Except.ok.injEq, forall_eq', ne_eq, reduceCtorEq, not_false_eq_true, true_and]
      rw [← hone]
      split
      · rename_i hmoved
        exact iff_of_true rfl hmoved
      · rename_i hmoved
        exact iff_of_false Bool.false_ne_true hmoved

/-- An item whose first phase fails is done with that, if it comes to an end. -/
theorem applyItem_of_error (item : PlanItem) (w : NodeWorld) (failure : Option Failure)
    (h : (stageItem env install item w).2 = .error failure) :
    applyItem env install item w = ((stageItem env install item w).1,
      failure.map (fun failure => .failed item.component failure)) := by
  rw [applyItem]
  simp only [stageItem] at h ⊢
  rw [h]

/-- What can become of an item: it is given up in the first phase, or waits there
    forever, or it rejects, or it is reported ok. -/
theorem applyItem_cases (item : PlanItem) (w : NodeWorld) :
    (∃ failure, (stageItem env install item w).2 = .error (some failure) ∧
      applyItem env install item w
        = ((stageItem env install item w).1, some (.failed item.component failure))) ∨
    ((stageItem env install item w).2 = .error none ∧
      applyItem env install item w = ((stageItem env install item w).1, none)) ∨
    (∃ ss, (stageItem env install item w).2 = .ok ss ∧ ¬ Unblocked env install item w ∧
      (applyItem env install item w).2 = none) ∨
    ∃ ss, (stageItem env install item w).2 = .ok ss ∧ Unblocked env install item w ∧
      ∃ downloaded removed unchanged, (applyItem env install item w).2
        = some (.ok item.component item.targetVersion item.files downloaded removed unchanged) := by
  cases hres : (stageItem env install item w).2 with
  | error failure =>
      have hitem := applyItem_of_error env install item w failure hres
      cases failure with
      | none => exact Or.inr (Or.inl ⟨rfl, hitem⟩)
      | some failure => exact Or.inl ⟨failure, rfl, hitem⟩
  | ok ss =>
      have hmoves := (moves_spec env install item w ss hres).1
      have hfree : Unblocked env install item w ↔ movable w.disk [] ss = ss := by
        rw [Unblocked]
        simp only [hres, Except.ok.injEq, forall_eq']
      rw [← hfree] at hmoves
      right
      right
      rw [applyItem]
      simp only [stageItem] at hres hmoves ⊢
      rw [hres]
      simp only []
      by_cases hmoved : (moveAll ss (stageAll env install item.component
          (effectiveToDownload env install w.disk item) w).1.disk).2 = true
      · rw [if_pos hmoved]
        exact Or.inr ⟨ss, rfl, hmoves.mp hmoved, _, _, _, rfl⟩
      · rw [if_neg hmoved]
        exact Or.inl ⟨ss, rfl, fun h => hmoved (hmoves.mpr h), rfl⟩

/-- An item whose first phase fails has not touched its target directory. -/
theorem node_of_error (item : PlanItem) (w : NodeWorld) (failure : Option Failure)
    (h : (stageItem env install item w).2 = .error failure) (l : JsLoc)
    (hl : Inside (targetOf install item) l) :
    (applyItem env install item w).1.disk.tree.node l = w.disk.tree.node l := by
  have honly := (stageAll_spec env install item.component
    (effectiveToDownload env install w.disk item) w).1
  rw [applyItem_of_error env install item w failure h]
  exact honly.node l (not_along_downloads install item.component item.component l hl)
    (fun hat => downloadsPath_apart install item.component item.component l hl
      (inside_of_stagedAt env install item.component _ l hat))

/-- Only an item whose first phase fails is reported failed. -/
theorem stageItem_of_failed (item : PlanItem) (w : NodeWorld) (component : Component)
    (failure : Failure) (h : (applyItem env install item w).2 = some (.failed component failure)) :
    (stageItem env install item w).2 = .error (some failure) ∧ component = item.component := by
  rcases applyItem_cases env install item w with
    ⟨failure', hstaged, hitem⟩ | ⟨_, hnone⟩ | ⟨ss, _, _, hnone⟩ | ⟨ss, _, _, _, _, _, hok⟩
  · rw [hitem, Option.some.injEq, ComponentResult.failed.injEq] at h
    exact ⟨h.2 ▸ hstaged, h.1.symm⟩
  · rw [hnone] at h
    exact absurd h (by simp only [reduceCtorEq, not_false_eq_true])
  · rw [hnone] at h
    exact absurd h (by simp only [reduceCtorEq, not_false_eq_true])
  · rw [hok] at h
    exact absurd h (by simp only [Option.some.injEq, reduceCtorEq, not_false_eq_true])

/-- An item that is reported failed has not touched its target directory. -/
theorem node_of_failed (item : PlanItem) (w : NodeWorld) (component : Component) (failure : Failure)
    (h : (applyItem env install item w).2 = some (.failed component failure)) (l : JsLoc)
    (hl : Inside (targetOf install item) l) :
    (applyItem env install item w).1.disk.tree.node l = w.disk.tree.node l :=
  node_of_error env install item w _ (stageItem_of_failed env install item w component failure h).1
    l hl

/-- An item without a result has not come to its moves, or it has moved what was
    ahead of the first blocked one. -/
theorem content_of_rejected (item : PlanItem) (w : NodeWorld)
    (h : (applyItem env install item w).2 = none) :
    (stageItem env install item w).2 = .error none ∨
    ∃ ss, (stageItem env install item w).2 = .ok ss ∧ movable w.disk [] ss ≠ ss ∧
      (∀ s ∈ movable w.disk [] ss,
        (applyItem env install item w).1.disk.content s.finalPath
          = (stageItem env install item w).1.disk.content s.stagingPath) ∧
      ∀ l, Inside (targetOf install item) l → (∀ s ∈ movable w.disk [] ss, l ≠ s.finalPath) →
        (applyItem env install item w).1.disk.content l = w.disk.content l := by
  have hmoves := moves_spec env install item w
  cases hres : (stageItem env install item w).2 with
  | error failure =>
      rw [applyItem_of_error env install item w failure hres] at h
      rw [Option.map_eq_none_iff.mp h]
      exact Or.inl rfl
  | ok ss =>
      rcases hmoves ss hres with ⟨hall, hplaced, hkept⟩
      rw [applyItem] at h ⊢
      simp only [stageItem] at h hres hplaced hkept hall ⊢
      rw [hres] at h ⊢
      simp only [] at h ⊢
      by_cases hmoved : (moveAll ss (stageAll env install item.component
          (effectiveToDownload env install w.disk item) w).1.disk).2 = true
      · rw [if_pos hmoved] at h
        exact absurd h (by simp only [reduceCtorEq, not_false_eq_true])
      · rw [if_neg hmoved]
        exact Or.inr ⟨ss, rfl, fun heq => hmoved (hall.mpr heq), hplaced, hkept⟩

/-- Only an item's own component is reported for it. -/
theorem component_of_failed (item : PlanItem) (w : NodeWorld) (component : Component)
    (failure : Failure) (h : (applyItem env install item w).2 = some (.failed component failure)) :
    component = item.component :=
  (stageItem_of_failed env install item w component failure h).2

end Phases

section Update

variable (env : NodeEnv) (install : Install)

/-- An update goes on behind the items it has gone through. -/
theorem applyUpdate_append (pre plan : List PlanItem) (w : NodeWorld)
    (h : (applyUpdate env install pre w).2.isSome = true) :
    (applyUpdate env install (pre ++ plan) w).1
        = (applyUpdate env install plan (applyUpdate env install pre w).1).1 ∧
      (applyUpdate env install (pre ++ plan) w).2.isSome
        = (applyUpdate env install plan (applyUpdate env install pre w).1).2.isSome := by
  induction pre generalizing w with
  | nil => exact ⟨rfl, rfl⟩
  | cons item pre ih =>
      cases hone : (applyItem env install item w).2 with
      | none =>
          rw [applyUpdate_of_none env install item pre w hone] at h
          exact Bool.noConfusion h
      | some result =>
          rw [applyUpdate_of_some env install item pre w result hone, Option.isSome_map] at h
          rw [List.cons_append, applyUpdate_of_some env install item pre w result hone,
            applyUpdate_of_some env install item (pre ++ plan) w result hone, Option.isSome_map]
          exact ih _ h

/-- An update has results exactly if each of its items has one, in the world it
    finds. -/
theorem isSome_applyUpdate (plan : List PlanItem) (w : NodeWorld) :
    (applyUpdate env install plan w).2.isSome = true ↔ ∀ pre item post, plan = pre ++ item :: post →
      Returns env install item (applyUpdate env install pre w).1 := by
  induction plan generalizing w with
  | nil => exact iff_of_true rfl (fun pre item post h =>
      absurd h (List.append_ne_nil_of_right_ne_nil pre (List.cons_ne_nil item post)).symm)
  | cons first plan ih =>
      cases hone : (applyItem env install first w).2 with
      | none =>
          rw [applyUpdate_of_none env install first plan w hone]
          refine iff_of_false Bool.false_ne_true (fun h => ?_)
          have hsome := (isSome_applyItem env install first w).mpr (h [] first plan rfl)
          rw [hone] at hsome
          exact Bool.noConfusion hsome
      | some result =>
          -- The world an item finds is the one that the items before it leave.
          have hgoes : ∀ pre, (applyUpdate env install (first :: pre) w).1
              = (applyUpdate env install pre (applyItem env install first w).1).1 := by
            intro pre
            rw [applyUpdate_of_some env install first pre w result hone]
          rw [applyUpdate_of_some env install first plan w result hone, Option.isSome_map, ih]
          constructor
          · intro h pre item post heq
            cases pre with
            | nil =>
                rw [List.nil_append, List.cons.injEq] at heq
                rw [← heq.1]
                refine (isSome_applyItem env install first w).mp ?_
                rw [hone]
                rfl
            | cons first' pre =>
                rw [List.cons_append, List.cons.injEq] at heq
                rw [← heq.1, hgoes]
                exact h pre item post heq.2
          · intro h pre item post heq
            rw [← hgoes]
            exact h (first :: pre) item post (by rw [heq, List.cons_append])

end Update

end Bootstrapper

end MzzPlork
