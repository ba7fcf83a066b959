import Mathlib.Data.List.Pairwise
import MzzPlork.Theory.Staging

/-!
# The Second Phase of an Update

What the moves into place and the removals do, and what an item that is
reported ok has done altogether.

If all moves go through, no two files were staged at one place: the first move
would have taken away what the second one looks for. So every file that was
downloaded is in its place and intact, everything else in the target directory
is as it was, and then the obsolete files go. Whatever comes of an item, it
works below its own two directories, so items do not disturb each other.

## Main definitions

* `Obsolete`: The places the removal reaches.
* `InstalledAt`: The places files are installed at.
* `Applied`: What an item reported ok has done.

## Theorems

* `moveAll_spec`: Moves that all go through.
* `content_removeAll`: The removals.
* `applied_applyItem`: An item reported ok.
* `confined_applyItem`: Any item.
* `node_applyUpdate`: The target directories of other components.
* `split_of_result`: The item a result is about.
-/

namespace MzzPlork

namespace Bootstrapper

section Moves

/-- A move that goes through takes what was staged and puts it in place. -/
theorem moveOne_spec (d : NodeDisk) (s : Staged) (h : (moveOne d s).2 = true) :
    ∃ content, d.content s.stagingPath = some content ∧
      ∀ l, (moveOne d s).1.content l = if l = s.finalPath then some content
        else if l = s.stagingPath then none else d.content l := by
  rw [moveOne] at h ⊢
  have hmkdir := fun l => Disk.content_mkdirs (dirname s.finalPath).inits d l
  split at h
  · rename_i hmade
    rw [if_pos hmade]
    split at h
    · rename_i d' hrename
      have hsome := ((Disk.rename_eq_some _ _ _).mp ⟨d', hrename⟩).1
      rcases Option.isSome_iff_exists.mp hsome with ⟨content, hc⟩
      refine ⟨content, (hmkdir _).symm.trans hc, fun l => ?_⟩
      rw [Disk.content_rename _ d' _ _ l hrename, hc]
      have hl := hmkdir l
      rw [mkdirRecursive, hl]
    · exact Bool.noConfusion h
  · rename_i hmade
    exact absurd h hmade

theorem confined_moveOne (d : NodeDisk) (s : Staged) :
    Disk.Confined (fun i => i <+: dirname s.finalPath)
      (fun l => l = s.stagingPath ∨ l = s.finalPath) d (moveOne d s).1 := by
  have hmade := confined_mkdirRecursive d (dirname s.finalPath)
    (fun l => l = s.stagingPath ∨ l = s.finalPath)
  rw [moveOne]
  split
  · split
    · rename_i d' hrename
      exact hmade.trans (Disk.confined_rename _ _ _ d' _ _ hrename (Or.inl rfl) (Or.inr rfl))
    · exact hmade
  · exact hmade

/-- Moves that all go through find something staged for each file, and so no
    two files were staged at one place. -/
theorem staged_of_moveAll (ss : List Staged) (d : NodeDisk)
    (hapart : ∀ s ∈ ss, ∀ s' ∈ ss, s.stagingPath ≠ s'.finalPath) (h : (moveAll ss d).2 = true) :
    (∀ s ∈ ss, (d.content s.stagingPath).isSome = true) ∧
      ss.Pairwise (fun s s' => s.stagingPath ≠ s'.stagingPath) := by
  induction ss generalizing d with
  | nil => exact ⟨fun _ hs => absurd hs List.not_mem_nil, List.Pairwise.nil⟩
  | cons s ss ih =>
      rw [moveAll] at h
      by_cases hone : (moveOne d s).2 = true
      · rw [if_pos hone] at h
        rcases moveOne_spec d s hone with ⟨content, hc, hread⟩
        rcases ih _ (fun a ha b hb => hapart a (List.mem_cons_of_mem s ha) b
          (List.mem_cons_of_mem s hb)) h with ⟨hsome, hpair⟩
        -- What is still staged after the move was staged before it, elsewhere.
        have hearlier : ∀ s' ∈ ss, s'.stagingPath ≠ s.stagingPath ∧
            (d.content s'.stagingPath).isSome = true := by
          intro s' hs'
          have hlater := hsome s' hs'
          rw [hread, if_neg (hapart s' (List.mem_cons_of_mem s hs') s List.mem_cons_self)]
            at hlater
          by_cases heq : s'.stagingPath = s.stagingPath
          · rw [if_pos heq] at hlater
            exact Bool.noConfusion hlater
          · rw [if_neg heq] at hlater
            exact ⟨heq, hlater⟩
        refine ⟨fun s' hs' => ?_, List.pairwise_cons.mpr
          ⟨fun s' hs' heq => (hearlier s' hs').1 heq.symm, hpair⟩⟩
        rcases List.mem_cons.mp hs' with rfl | hs'
        · rw [hc]
          rfl
        · exact (hearlier s' hs').2
      · rw [if_neg hone] at h
        exact absurd h hone

/-- Moves that all go through, to different places: every file is in place,
    and nothing else has changed but that nothing is staged any more. -/
theorem moveAll_spec (ss : List Staged) (d : NodeDisk)
    (hapart : ∀ s ∈ ss, ∀ s' ∈ ss, s.stagingPath ≠ s'.finalPath)
    (hfinal : ss.Pairwise (fun s s' => s.finalPath ≠ s'.finalPath))
    (h : (moveAll ss d).2 = true) :
    (∀ s ∈ ss, (moveAll ss d).1.content s.finalPath = d.content s.stagingPath) ∧
      ∀ l, (∀ s ∈ ss, l ≠ s.finalPath ∧ l ≠ s.stagingPath) →
        (moveAll ss d).1.content l = d.content l := by
  have hstaged := (staged_of_moveAll ss d hapart h).2
  induction ss generalizing d with
  | nil => exact ⟨fun _ hs => absurd hs List.not_mem_nil, fun _ _ => rfl⟩
  | cons s ss ih =>
      rw [moveAll] at h ⊢
      by_cases hone : (moveOne d s).2 = true
      · rw [if_pos hone] at h ⊢
        rcases moveOne_spec d s hone with ⟨content, hc, hread⟩
        rcases List.pairwise_cons.mp hfinal with ⟨hnew, hfinal⟩
        rcases List.pairwise_cons.mp hstaged with ⟨hgone, hstaged⟩
        rcases ih _ (fun a ha b hb => hapart a (List.mem_cons_of_mem s ha) b
          (List.mem_cons_of_mem s hb)) hfinal h hstaged with ⟨hplaced, hkept⟩
        -- The first file is in place after its own move, and no later move reaches it.
        refine ⟨fun s' hs' => ?_, fun l hl => ?_⟩
        · rcases List.mem_cons.mp hs' with rfl | hs'
          · rw [hkept s'.finalPath (fun a ha => ⟨hnew a ha, fun heq =>
              hapart a (List.mem_cons_of_mem s' ha) s' List.mem_cons_self heq.symm⟩),
              hread, if_pos rfl, hc]
          · rw [hplaced s' hs', hread,
              if_neg (hapart s' (List.mem_cons_of_mem s hs') s List.mem_cons_self),
              if_neg (fun heq => hgone s' hs' heq.symm)]
        · have hs := hl s List.mem_cons_self
          rw [hkept l (fun a ha => hl a (List.mem_cons_of_mem s ha)), hread, if_neg hs.1,
            if_neg hs.2]
      · rw [if_neg hone] at h
        exact absurd h hone

theorem confined_moveAll (M T : JsLoc → Prop) (ss : List Staged) (d : NodeDisk)
    (hM : ∀ s ∈ ss, ∀ i, i <+: dirname s.finalPath → M i)
    (hT : ∀ s ∈ ss, T s.stagingPath ∧ T s.finalPath) :
    Disk.Confined M T d (moveAll ss d).1 := by
  induction ss generalizing d with
  | nil => exact Disk.Confined.refl _ _ _
  | cons s ss ih =>
      have hone : Disk.Confined M T d (moveOne d s).1 :=
        (confined_moveOne d s).mono (hM s List.mem_cons_self) (fun l hl => by
          rcases hl with rfl | rfl
          · exact (hT s List.mem_cons_self).1
          · exact (hT s List.mem_cons_self).2)
      rw [moveAll]
      split
      · exact hone.trans (ih _ (fun a ha => hM a (List.mem_cons_of_mem s ha))
          (fun a ha => hT a (List.mem_cons_of_mem s ha)))
      · exact hone

end Moves

section Removals

variable (env : NodeEnv) (targetDir : JsLoc)

/-- The places the removal of some paths reaches. -/
def ObsoleteAt (relPaths : List JsString) (l : JsLoc) : Prop :=
  ∃ relPath ∈ relPaths, resolveSafePath env.cwd targetDir relPath = .ok l

theorem obsoleteAt_cons (relPath : JsString) (relPaths : List JsString) (l : JsLoc) :
    ObsoleteAt env targetDir (relPath :: relPaths) l ↔
      resolveSafePath env.cwd targetDir relPath = .ok l ∨ ObsoleteAt env targetDir relPaths l := by
  simp only [ObsoleteAt, List.mem_cons, exists_eq_or_imp]

/-- The removals take the files at the places they reach, and no others. -/
theorem content_removeAll (relPaths : List JsString) (d : NodeDisk) (l : JsLoc) :
    (ObsoleteAt env targetDir relPaths l →
      (removeAll env targetDir relPaths d).1.content l = none) ∧
    (¬ ObsoleteAt env targetDir relPaths l →
      (removeAll env targetDir relPaths d).1.content l = d.content l) := by
  induction relPaths generalizing d with
  | nil => exact ⟨fun h => by rcases h with ⟨_, hmem, _⟩; exact absurd hmem List.not_mem_nil,
      fun _ => rfl⟩
  | cons relPath relPaths ih =>
      rw [obsoleteAt_cons, removeAll]
      cases hok : resolveSafePath env.cwd targetDir relPath with
      | error message =>
          simp only [reduceCtorEq, false_or]
          exact ih d
      | ok obsoletePath =>
          simp only [Except.ok.injEq]
          rcases ih (d.remove obsoletePath).1 with ⟨hgone, hkept⟩
          -- A later removal takes whatever is left at `l` by this one.
          by_cases hl : ObsoleteAt env targetDir relPaths l
          · exact ⟨fun _ => hgone hl, fun hnot => absurd (Or.inr hl) hnot⟩
          · rw [hkept hl, Disk.content_remove]
            refine ⟨fun h => if_pos (h.resolve_right hl).symm, fun hnot => if_neg (fun heq => ?_)⟩
            exact hnot (Or.inl heq.symm)

theorem confined_removeAll (M : JsLoc → Prop) (relPaths : List JsString) (d : NodeDisk) :
    Disk.Confined M (Inside targetDir) d (removeAll env targetDir relPaths d).1 := by
  induction relPaths generalizing d with
  | nil => exact Disk.Confined.refl _ _ _
  | cons relPath relPaths ih =>
      rw [removeAll]
      cases hok : resolveSafePath env.cwd targetDir relPath with
      | error message => exact ih d
      | ok obsoletePath =>
          exact (Disk.confined_remove _ _ d obsoletePath
            (resolveSafePath_ok _ _ _ _ hok).2).trans (ih _)

end Removals

section Item

variable (env : NodeEnv) (install : Install)

/-- The component's target directory. -/
abbrev targetOf (item : PlanItem) : JsLoc := targetDirPath install.appDataRoot item.component

/-- The place a listed file is looked for at. -/
abbrev placeOf (item : PlanItem) (file : FileEntry) : JsLoc :=
  pathJoin (targetOf install item) file.path

/-- The places the removal for an item reaches. -/
abbrev Obsolete (item : PlanItem) (l : JsLoc) : Prop :=
  ObsoleteAt env (targetOf install item) item.toRemove l

/-- One of these files is installed at a place. -/
def InstalledAt (item : PlanItem) (files : List FileEntry) (file : FileEntry) (l : JsLoc) : Prop :=
  file ∈ files ∧ ∃ staged, safePaths env install item.component file = .ok staged ∧
    staged.finalPath = l

/-- What an item reported ok has done to its target directory: the files it had
    to download are there, one at a place; the obsolete ones are gone; and
    everything else is as it was. -/
structure Applied (item : PlanItem) (d d' : NodeDisk) : Prop where
  safe : ∀ file ∈ effectiveToDownload env install d item, ∃ l,
    InstalledAt env install item (effectiveToDownload env install d item) file l
  single : ∀ file file' l,
    InstalledAt env install item (effectiveToDownload env install d item) file l →
    InstalledAt env install item (effectiveToDownload env install d item) file' l → file = file'
  installed : ∀ file l,
    InstalledAt env install item (effectiveToDownload env install d item) file l →
    ¬ Obsolete env install item l → ∃ content, d'.content l = some content ∧ Intact env file content
  removed : ∀ l, Obsolete env install item l → d'.content l = none
  kept : ∀ l, Inside (targetOf install item) l → ¬ Obsolete env install item l →
    (∀ file, ¬ InstalledAt env install item (effectiveToDownload env install d item) file l) →
    d'.content l = d.content l

/-- Members of a list that are apart wherever they stand are equal when they
    are not. -/
theorem eq_of_pairwise (ss : List Staged) (h : ss.Pairwise (fun s s' => s.finalPath ≠ s'.finalPath))
    (s s' : Staged) (hs : s ∈ ss) (hs' : s' ∈ ss) (heq : s.finalPath = s'.finalPath) : s = s' := by
  by_contra hne
  have hsymm : Std.Symm (fun s s' : Staged => s.finalPath ≠ s'.finalPath) :=
    ⟨fun _ _ hab => hab.symm⟩
  exact h.forall hs hs' hne heq

section Moved

variable (item : PlanItem) (ss : List Staged)
  (hsafe : ∀ s ∈ ss, safePaths env install item.component s.file = .ok s)

include hsafe

/-- Both directories are kept apart by the guard. -/
theorem apart_of_safe (s : Staged) (hs : s ∈ ss) (l : JsLoc)
    (hl : Inside (targetOf install item) l) : s.stagingPath ≠ l := by
  intro heq
  exact downloadsPath_apart install item.component item.component l hl
    (heq ▸ (inside_of_safePaths env install item.component s.file s (hsafe s hs)).2)

/-- The files installed, read off the list of what was staged. -/
theorem installedAt_iff (files : List FileEntry) (hfiles : ss.map Staged.file = files)
    (file : FileEntry) (l : JsLoc) :
    InstalledAt env install item files file l ↔ ∃ s ∈ ss, s.file = file ∧ s.finalPath = l := by
  rw [InstalledAt, ← hfiles]
  constructor
  · rintro ⟨hfile, staged, hok, hl⟩
    rcases List.mem_map.mp hfile with ⟨s, hs, rfl⟩
    rw [Except.ok.inj (hok.symm.trans (hsafe s hs))] at hl
    exact ⟨s, hs, rfl, hl⟩
  · rintro ⟨s, hs, rfl, hl⟩
    exact ⟨List.mem_map_of_mem hs, s, hsafe s hs, hl⟩

/-- Moves that all go through have final paths of their own, and leave at each
    what was staged. -/
theorem placed_of_moveAll (d : NodeDisk) (hmoved : (moveAll ss d).2 = true) :
    ss.Pairwise (fun s s' => s.stagingPath ≠ s'.stagingPath) ∧
      ss.Pairwise (fun s s' => s.finalPath ≠ s'.finalPath) ∧
      (∀ s ∈ ss, (moveAll ss d).1.content s.finalPath = d.content s.stagingPath) ∧
      ∀ l, Inside (targetOf install item) l → (∀ s ∈ ss, s.finalPath ≠ l) →
        (moveAll ss d).1.content l = d.content l := by
  have hapart : ∀ s ∈ ss, ∀ s' ∈ ss, s.stagingPath ≠ s'.finalPath := by
    intro s hs s' hs'
    exact apart_of_safe env install item ss hsafe s hs _
      (inside_of_safePaths env install item.component s'.file s' (hsafe s' hs')).1
  have hpair := (staged_of_moveAll ss d hapart hmoved).2
  have hfinal : ss.Pairwise (fun s s' => s.finalPath ≠ s'.finalPath) := by
    refine hpair.imp_of_mem (fun {s s'} hs hs' hne heq => hne ?_)
    exact finalPath_inj env install item.component s.file s'.file s s' (hsafe s hs)
      (hsafe s' hs') heq
  rcases moveAll_spec ss d hapart hfinal hmoved with ⟨hplaced, hkept⟩
  refine ⟨hpair, hfinal, hplaced, fun l hin hfree => hkept l (fun s hs => ?_)⟩
  exact ⟨fun heq => hfree s hs heq.symm,
    fun heq => apart_of_safe env install item ss hsafe s hs l hin heq.symm⟩

end Moved

/-- An item reported ok. -/
theorem applied_applyItem (item : PlanItem) (w : NodeWorld) (component : Component)
    (targetVersion : JsString) (files : List FileEntry)
    (downloaded removed unchanged : List JsString)
    (h : (applyItem env install item w).2
      = some (.ok component targetVersion files downloaded removed unchanged)) :
    component = item.component ∧ files = item.files ∧
      Applied env install item w.disk (applyItem env install item w).1.disk := by
  rw [applyItem] at h ⊢
  simp only [] at h ⊢
  rcases stageAll_spec env install item.component
    (effectiveToDownload env install w.disk item) w with ⟨hstaging, hstaged⟩
  cases hres : (stageAll env install item.component
      (effectiveToDownload env install w.disk item) w).2 with
  | error failure =>
      rw [hres] at h
      rcases Option.map_eq_some_iff.mp h with ⟨_, _, heq⟩
      exact absurd heq (by simp only [reduceCtorEq, not_false_eq_true])
  | ok ss =>
      rw [hres] at h
      simp only [] at h ⊢
      rcases hstaged ss hres with ⟨hfiles, hsafe, hintact⟩
      generalize (stageAll env install item.component
        (effectiveToDownload env install w.disk item) w).1 = w1 at *
      by_cases hmoved : (moveAll ss w1.disk).2 = true
      · rw [if_pos hmoved] at h ⊢
        simp only [Option.some.injEq, ComponentResult.ok.injEq] at h
        refine ⟨h.1.symm, h.2.2.1.symm, ?_⟩
        rcases placed_of_moveAll env install item ss hsafe w1.disk hmoved with
          ⟨hpair, hfinal, hplaced, hkept⟩
        have hremoval := content_removeAll env (targetOf install item) item.toRemove
          (moveAll ss w1.disk).1
        have hmem := installedAt_iff env install item ss hsafe _ hfiles
        refine ⟨fun file hfile => ?_, fun file file' l hf hf' => ?_, fun file l hf hnot => ?_,
          fun l hl => (hremoval l).1 hl, fun l hin hnot hfree => ?_⟩
        · rw [← hfiles] at hfile
          rcases List.mem_map.mp hfile with ⟨s, hs, rfl⟩
          exact ⟨s.finalPath, (hmem _ _).mpr ⟨s, hs, rfl, rfl⟩⟩
        · rcases (hmem _ _).mp hf with ⟨s, hs, rfl, hl⟩
          rcases (hmem _ _).mp hf' with ⟨s', hs', rfl, hl'⟩
          rw [eq_of_pairwise ss hfinal s s' hs hs' (hl.trans hl'.symm)]
        · rcases (hmem _ _).mp hf with ⟨s, hs, rfl, rfl⟩
          rcases hintact hpair s hs with ⟨content, hc, hi⟩
          exact ⟨content, ((hremoval _).2 hnot).trans ((hplaced s hs).trans hc), hi⟩
        -- Three steps leave a place of the target directory alone that no file is for.
        · have hunmoved := hkept l hin (fun s hs heq =>
            hfree s.file ((hmem _ _).mpr ⟨s, hs, rfl, heq⟩))
          have hunstaged := hstaging.content l (fun hat =>
            downloadsPath_apart install item.component item.component l hin
              (inside_of_stagedAt env install item.component _ l hat))
          exact ((hremoval l).2 hnot).trans (hunmoved.trans hunstaged)
      · rw [if_neg hmoved] at h
        exact absurd h (by simp only [reduceCtorEq, not_false_eq_true])

/-- Whatever comes of an item, it works below its two directories, and only
    makes directories there or on the way. -/
theorem confined_applyItem (item : PlanItem) (w : NodeWorld) :
    Disk.Confined
      (fun l => Along (targetOf install item) l ∨
        Along (downloadsPath install.appDataRoot item.component) l)
      (fun l => Inside (targetOf install item) l ∨
        Inside (downloadsPath install.appDataRoot item.component) l)
      w.disk (applyItem env install item w).1.disk := by
  rw [applyItem]
  simp only []
  rcases stageAll_spec env install item.component
    (effectiveToDownload env install w.disk item) w with ⟨hstaging, hstaged⟩
  -- The first phase stays below the download directory.
  have hfirst := hstaging.mono
    (fun l hl => (Or.inr hl : Along (targetOf install item) l ∨
      Along (downloadsPath install.appDataRoot item.component) l))
    (fun l hl => (Or.inr (inside_of_stagedAt env install item.component _ l hl) :
      Inside (targetOf install item) l ∨
        Inside (downloadsPath install.appDataRoot item.component) l))
  cases hres : (stageAll env install item.component
      (effectiveToDownload env install w.disk item) w).2 with
  | error failure => exact hfirst
  | ok ss =>
      have hsafe := (hstaged ss hres).2.1
      have hin := fun s (hs : s ∈ ss) =>
        inside_of_safePaths env install item.component s.file s (hsafe s hs)
      -- A move takes a file from there to below the target directory.
      have hmoves := confined_moveAll
        (fun l => Along (targetOf install item) l ∨
          Along (downloadsPath install.appDataRoot item.component) l)
        (fun l => Inside (targetOf install item) l ∨
          Inside (downloadsPath install.appDataRoot item.component) l) ss
        (stageAll env install item.component (effectiveToDownload env install w.disk item) w).1.disk
        (fun s hs i hi => Or.inl (along_of_prefix_inside _ _ i (hin s hs).1
          (hi.trans (List.dropLast_prefix _))))
        (fun s hs => ⟨Or.inr (hin s hs).2, Or.inl (hin s hs).1⟩)
      simp only []
      split
      · exact (hfirst.trans hmoves).trans ((confined_removeAll env _ _ _ _).mono
          (fun _ h => h) (fun _ hl => Or.inl hl))
      · exact hfirst.trans hmoves

end Item

section Update

variable (env : NodeEnv) (install : Install)

theorem name_inj (c c' : Component) (h : c.name = c'.name) : c = c' := by
  cases c <;> cases c' <;> first | rfl | exact absurd h (by decide)

/-- Behind a directory's way, the next name tells which part of the tree a place
    is in. -/
theorem next_of_along (base l : JsLoc) (name x : JsString) (rest t : JsLoc)
    (hl : l = base ++ name :: t) (h : Along (base ++ x :: rest) l) : x = name := by
  -- Either way round, one of the two goes on where the other one does.
  have hcomparable : l <+: base ++ x :: rest ∨ base ++ x :: rest <+: l :=
    h.imp (fun hp => hp) (fun hi => hi.below)
  rw [hl] at hcomparable
  rcases hcomparable with hp | hp <;>
  · have hcons := (List.prefix_append_right_inj base).mp hp
    first | exact (List.cons_prefix_cons.mp hcons).1.symm | exact (List.cons_prefix_cons.mp hcons).1

/-- Nothing an item does happens in the target directory of another component. -/
theorem apart_of_ne (c c' : Component) (hne : c' ≠ c) (l : JsLoc)
    (hl : Inside (targetDirPath install.appDataRoot c) l) :
    ¬ (Along (targetDirPath install.appDataRoot c') l ∨
      Along (downloadsPath install.appDataRoot c') l) := by
  rcases hl with ⟨t, _, rfl⟩
  rintro (h | h)
  · exact hne (name_inj c' c (next_of_along install.appDataRoot _ c.name c'.name [] t
      (by rw [targetDirPath, List.append_assoc]; rfl) h))
  · exact name_ne_downloads c (next_of_along install.appDataRoot _ c.name (js "downloads")
      [c'.name] t (by rw [targetDirPath, List.append_assoc]; rfl) h).symm

theorem node_applyItem (c : Component) (item : PlanItem) (hne : item.component ≠ c) (w : NodeWorld)
    (l : JsLoc) (hl : Inside (targetDirPath install.appDataRoot c) l) :
    (applyItem env install item w).1.disk.tree.node l = w.disk.tree.node l := by
  have hapart := apart_of_ne install c item.component hne l hl
  refine (confined_applyItem env install item w).node l hapart (fun h => hapart ?_)
  exact h.imp Or.inr Or.inr

/-- The target directory of a component is left alone by an update that has no
    item for it. -/
theorem node_applyUpdate (c : Component) (plan : List PlanItem)
    (hne : ∀ item ∈ plan, item.component ≠ c) (w : NodeWorld) (l : JsLoc)
    (hl : Inside (targetDirPath install.appDataRoot c) l) :
    (applyUpdate env install plan w).1.disk.tree.node l = w.disk.tree.node l := by
  induction plan generalizing w with
  | nil => rfl
  | cons item plan ih =>
      have hone := node_applyItem env install c item (hne item List.mem_cons_self) w l hl
      rw [applyUpdate]
      split
      · exact hone
      · exact (ih (fun i hi => hne i (List.mem_cons_of_mem item hi)) _).trans hone

/-- Between the other items of a plan, an item finds and leaves its target
    directory as if it were alone. -/
theorem node_around (pre : List PlanItem) (item : PlanItem) (post : List PlanItem)
    (hapart : (pre ++ item :: post).Pairwise (fun i i' => i.component ≠ i'.component))
    (w w' : NodeWorld) (l : JsLoc) (hl : Inside (targetOf install item) l) :
    (applyUpdate env install pre w).1.disk.tree.node l = w.disk.tree.node l ∧
      (applyUpdate env install post w').1.disk.tree.node l = w'.disk.tree.node l := by
  rcases List.pairwise_append.mp hapart with ⟨_, hlater, hearlier⟩
  exact ⟨node_applyUpdate env install item.component pre
      (fun i hi => hearlier i hi item List.mem_cons_self) w l hl,
    node_applyUpdate env install item.component post
      (fun i hi => ((List.pairwise_cons.mp hlater).1 i hi).symm) w' l hl⟩

theorem applyUpdate_of_some (item : PlanItem) (plan : List PlanItem) (w : NodeWorld)
    (result : ComponentResult) (h : (applyItem env install item w).2 = some result) :
    applyUpdate env install (item :: plan) w =
      ((applyUpdate env install plan (applyItem env install item w).1).1,
        (applyUpdate env install plan (applyItem env install item w).1).2.map
          (fun results => result :: results)) := by
  simp only [applyUpdate, h]

theorem applyUpdate_of_none (item : PlanItem) (plan : List PlanItem) (w : NodeWorld)
    (h : (applyItem env install item w).2 = none) :
    applyUpdate env install (item :: plan) w = ((applyItem env install item w).1, none) := by
  simp only [applyUpdate, h]

theorem applyUpdate_singleton (item : PlanItem) (w : NodeWorld) :
    applyUpdate env install [item] w = ((applyItem env install item w).1,
      (applyItem env install item w).2.map (fun result => [result])) := by
  rw [applyUpdate]
  cases (applyItem env install item w).2 <;> rfl

/-- An update that goes through has gone through its first item, and then
    through the rest. -/
theorem results_of_cons (item : PlanItem) (plan : List PlanItem) (w : NodeWorld)
    (results : List ComponentResult)
    (h : (applyUpdate env install (item :: plan) w).2 = some results) :
    ∃ result rest, results = result :: rest ∧ (applyItem env install item w).2 = some result ∧
      (applyUpdate env install plan (applyItem env install item w).1).2 = some rest ∧
      (applyUpdate env install (item :: plan) w).1
        = (applyUpdate env install plan (applyItem env install item w).1).1 := by
  cases hone : (applyItem env install item w).2 with
  | none =>
      rw [applyUpdate_of_none env install item plan w hone] at h
      exact absurd h (by simp only [reduceCtorEq, not_false_eq_true])
  | some result =>
      rw [applyUpdate_of_some env install item plan w result hone] at h ⊢
      rcases Option.map_eq_some_iff.mp h with ⟨rest, hrest, rfl⟩
      exact ⟨result, rest, rfl, rfl, hrest, rfl⟩

/-- An update that goes through has a result for each of its items, in the place
    of the item. -/
theorem result_of_split (pre : List PlanItem) (item : PlanItem) (post : List PlanItem)
    (w : NodeWorld) (results : List ComponentResult)
    (h : (applyUpdate env install (pre ++ item :: post) w).2 = some results) :
    ∃ before result after, results = before ++ result :: after ∧ before.length = pre.length ∧
      (applyItem env install item (applyUpdate env install pre w).1).2 = some result ∧
      (applyUpdate env install (pre ++ item :: post) w).1 = (applyUpdate env install post
        (applyItem env install item (applyUpdate env install pre w).1).1).1 := by
  induction pre generalizing w results with
  | nil =>
      rcases results_of_cons env install item post w results h with
        ⟨result, rest, rfl, hone, _, hworld⟩
      exact ⟨[], result, rest, rfl, rfl, hone, hworld⟩
  | cons first pre ih =>
      rcases results_of_cons env install first (pre ++ item :: post) w results h with
        ⟨one, rest, rfl, hone, hrest, hworld⟩
      rcases ih _ rest hrest with ⟨before, result, after, rfl, hlen, hitem, hworld'⟩
      rw [List.cons_append, hworld, applyUpdate_of_some env install first pre w one hone]
      exact ⟨one :: before, result, after, rfl, congrArg Nat.succ hlen, hitem, hworld'⟩

/-- A result that was reported came from one item of the plan. -/
theorem split_of_result (plan : List PlanItem) (w : NodeWorld) (results : List ComponentResult)
    (h : (applyUpdate env install plan w).2 = some results) (result : ComponentResult)
    (hresult : result ∈ results) :
    ∃ pre item post, plan = pre ++ item :: post ∧
      (applyItem env install item (applyUpdate env install pre w).1).2 = some result ∧
      (applyUpdate env install plan w).1 = (applyUpdate env install post
        (applyItem env install item (applyUpdate env install pre w).1).1).1 := by
  induction plan generalizing w results with
  | nil =>
      rw [← Option.some.inj h] at hresult
      exact absurd hresult List.not_mem_nil
  | cons item plan ih =>
      rcases results_of_cons env install item plan w results h with
        ⟨one, rest, rfl, hone, hrest, hworld⟩
      rcases List.mem_cons.mp hresult with rfl | hmem
      · exact ⟨[], item, plan, rfl, hone, hworld⟩
      · rcases ih _ rest hrest hmem with ⟨pre, item', post, rfl, hitem, hworld'⟩
        -- The split of the rest, with this item put in front.
        refine ⟨item :: pre, item', post, rfl, ?_, ?_⟩
        · rw [applyUpdate_of_some env install item pre w one hone]
          exact hitem
        · rw [hworld, applyUpdate_of_some env install item pre w one hone]
          exact hworld'

end Update

end Bootstrapper

end MzzPlork
