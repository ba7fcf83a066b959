import MzzPlork.Theory.Bystander
import MzzPlork.Theory.Report

/-!
# All or Nothing

What becomes of the target directory of a component that is not reported ok.

An item that is reported failed has not come to its moves, and its target
directory is as it was; so it is with an item that waits for a download without
an end. An item that rejects has come to them, and the moves ahead of the first
blocked one are not taken back. The directory is then as it
was only if those files already lay there as they were staged (`Spared`).

## Main definitions

* `ReportedFailed`, `RejectsAt`: A component that is not reported ok.
* `AllOrNothing`: What it should come to.
* `Spared`: When it does.

## Theorems

* `allOrNothing_iff`: When an update is all or nothing.
* `not_allOrNothing_listedTwice`: A manifest that has a file twice.
-/

namespace MzzPlork

namespace Bootstrapper

section Spared

variable (env : NodeEnv) (install : Install)

/-- A component that is reported failed. -/
def ReportedFailed (plan : List PlanItem) (w : NodeWorld) (component : Component) : Prop :=
  ∃ results failure, (applyUpdate env install plan w).2 = some results ∧
    .failed component failure ∈ results

/-- A component that the call rejects over, or waits for without an end. -/
def RejectsAt (plan : List PlanItem) (w : NodeWorld) (component : Component) : Prop :=
  ∃ pre item post, plan = pre ++ item :: post ∧ item.component = component ∧
    (applyUpdate env install pre w).2.isSome = true ∧
    (applyItem env install item (applyUpdate env install pre w).1).2 = none

/-- A component that is not reported ok keeps the files in its target directory
    as they were. -/
def AllOrNothing (plan : List PlanItem) (w : NodeWorld) (component : Component) : Prop :=
  ReportedFailed env install plan w component ∨ RejectsAt env install plan w component →
    ∀ l, Inside (targetDirPath install.appDataRoot component) l →
      (applyUpdate env install plan w).1.disk.content l = w.disk.content l

/-- Whenever an item comes to its moves, none of them is blocked, or what is
    ahead of the first blocked one lies in its place already, as it is staged. -/
def Spared (plan : List PlanItem) (w : NodeWorld) (component : Component) : Prop :=
  ∀ pre item post ss, plan = pre ++ item :: post → item.component = component →
    (applyUpdate env install pre w).2.isSome = true →
    (stageItem env install item (applyUpdate env install pre w).1).2 = .ok ss →
    movable w.disk [] ss = ss ∨ ∀ s ∈ movable w.disk [] ss, w.disk.content s.finalPath
      = (stageItem env install item (applyUpdate env install pre w).1).1.disk.content s.stagingPath

/-- The first phase stages for places of the target directory. -/
theorem inside_of_stageItem (item : PlanItem) (w : NodeWorld) (ss : List Staged)
    (h : (stageItem env install item w).2 = .ok ss) (s : Staged) (hs : s ∈ ss) :
    Inside (targetOf install item) s.finalPath := by
  have hsafe := ((stageAll_spec env install item.component
    (effectiveToDownload env install w.disk item) w).2 ss h).2.1 s hs
  exact (inside_of_safePaths env install item.component s.file s hsafe).1

/-- Whatever the items before it did, the same moves are blocked. -/
theorem movable_of_level (item : PlanItem) (w w' : NodeWorld)
    (hlevel : Level install item.component w.disk w'.disk) (ss : List Staged)
    (h : (stageItem env install item w').2 = .ok ss) :
    movable w'.disk [] ss = movable w.disk [] ss :=
  movable_congr _ _ [] ss (fun s hs places =>
    hlevel.blocked places s.finalPath (inside_of_stageItem env install item w' ss h s hs))

/-- The update that rejects over an item ends where the item does. -/
theorem applyUpdate_of_rejected (pre : List PlanItem) (item : PlanItem) (post : List PlanItem)
    (w : NodeWorld) (hpre : (applyUpdate env install pre w).2.isSome = true)
    (h : (applyItem env install item (applyUpdate env install pre w).1).2 = none) :
    (applyUpdate env install (pre ++ item :: post) w).1
      = (applyItem env install item (applyUpdate env install pre w).1).1 := by
  rw [(applyUpdate_append env install pre (item :: post) w hpre).1,
    applyUpdate_of_none env install item post _ h]

/-- When an update is all or nothing for a component. -/
theorem allOrNothing_iff (manifest : Manifest) (ledger : Ledger) (w : NodeWorld)
    (component : Component) :
    AllOrNothing env install (planUpdate manifest ledger) w component ↔
      Spared env install (planUpdate manifest ledger) w component := by
  have hapart := pairwise_planUpdate manifest ledger
  generalize planUpdate manifest ledger = plan at *
  -- The items before one are of other components.
  have hlevel : ∀ pre item post, plan = pre ++ item :: post →
      Level install item.component w.disk (applyUpdate env install pre w).1.disk := by
    intro pre item post hplan
    rw [hplan] at hapart
    exact level_applyUpdate env pre
      (fun i hi => (List.pairwise_append.mp hapart).2.2 i hi item List.mem_cons_self) w
  constructor
  · intro h pre item post ss hplan hcomponent hpre hstaged
    have hmovable := movable_of_level env install item w _ (hlevel pre item post hplan) ss hstaged
    by_cases hall : movable w.disk [] ss = ss
    · exact Or.inl hall
    have hrejects : (applyItem env install item (applyUpdate env install pre w).1).2 = none := by
      rw [← Option.not_isSome_iff_eq_none, isSome_applyItem]
      exact fun hreturns => hall (hmovable.symm.trans (hreturns.2 ss hstaged))
    rcases content_of_rejected env install item _ hrejects with
      hpending | ⟨ss', hstaged', _, hplaced, _⟩
    · exact absurd (hpending.symm.trans hstaged) (by simp only [reduceCtorEq, not_false_eq_true])
    rw [Except.ok.inj (hstaged'.symm.trans hstaged), hmovable] at hplaced
    refine Or.inr (fun s hs => ?_)
    have hin := inside_of_stageItem env install item _ ss hstaged s (movable_subset _ [] ss s hs)
    rw [← hplaced s hs, ← applyUpdate_of_rejected env install pre item post w hpre hrejects,
      ← hplan]
    exact (h (Or.inr ⟨pre, item, post, hplan, hcomponent, hpre, hrejects⟩) _
      (hcomponent ▸ hin)).symm
  · rintro hspared (⟨results, failure, hresults, hmem⟩ |
      ⟨pre, item, post, hplan, rfl, hpre, hrejects⟩) l hl
    · rcases split_of_result env install plan w results hresults _ hmem with
        ⟨pre, item, post, hplan, hone, hworld⟩
      rw [component_of_failed env install item _ component failure hone] at hl
      -- The item did nothing there, and neither did the others.
      have haround := node_around env install pre item post (hplan ▸ hapart) w
        (applyItem env install item (applyUpdate env install pre w).1).1 l hl
      rw [hworld, Disk.content, haround.2,
        node_of_failed env install item _ component failure hone l hl, haround.1, Disk.content]
    · rw [hplan, applyUpdate_of_rejected env install pre item post w hpre hrejects]
      rcases content_of_rejected env install item _ hrejects with
        hpending | ⟨ss, hstaged, hblocked, hplaced, hkept⟩
      -- It has not come to its moves.
      · rw [Disk.content, node_of_error env install item _ none hpending l hl]
        exact (hlevel pre item post hplan).content l (Or.inl (Or.inr hl))
      rw [movable_of_level env install item w _ (hlevel pre item post hplan) ss hstaged]
        at hblocked hplaced hkept
      have hsame := (hspared pre item post ss hplan rfl hpre hstaged).resolve_left hblocked
      by_cases hmoved : ∃ s ∈ movable w.disk [] ss, l = s.finalPath
      · rcases hmoved with ⟨s, hs, rfl⟩
        rw [hplaced s hs, hsame s hs]
      · rw [hkept l hl (fun s hs heq => hmoved ⟨s, hs, heq⟩)]
        exact (hlevel pre item post hplan).content l (Or.inl (Or.inr hl))

end Spared

section Divergence

/-- A manifest that has one file twice. -/
def twiceManifest : JsValue :=
  let file := .obj [(js "path", .str (js "a")), (js "size", .num (.finite 1)),
    (js "hash", .str letterHash), (js "version", .str (js "1.0.0"))]
  .obj [(js "version", .str (js "1.0.0")), (js "runtime", componentJson [file, file]),
    (js "resources", componentJson [])]

/-- A disk with another file in the place. -/
def staleDisk : NodeDisk :=
  ((mkdirRecursive Disk.bare (targetDirPath letterInstall.appDataRoot .runtime)).1.write
    (pathJoin (targetDirPath letterInstall.appDataRoot .runtime) (js "a"))
    (ascii "b")).getD Disk.bare

/-- The first move replaces the file, and the second one finds nothing to
    move. -/
theorem not_allOrNothing_listedTwice :
    ¬ ∀ (env : NodeEnv) (install : Install) (manifest : JsValue) (ledger : Ledger) (w : NodeWorld)
      (component : Component), isValidManifest env.fmt manifest = .ok true →
      AllOrNothing env install (planUpdate (manifestOf manifest) ledger) w component := by
  intro h
  have hrejects : RejectsAt letterEnv letterInstall
      (planUpdate (manifestOf twiceManifest) (fun _ => none)) ⟨staleDisk, []⟩ .runtime :=
    ⟨[], _, _, rfl, rfl, rfl, rfl⟩
  have hkept := h letterEnv letterInstall twiceManifest (fun _ => none) ⟨staleDisk, []⟩ .runtime
    (by decide) (Or.inr hrejects) [js "C:", js "MzzPlork", js "runtime", js "a"] (by decide)
  have hbefore : staleDisk.content [js "C:", js "MzzPlork", js "runtime", js "a"]
      = some (ascii "b") := rfl
  have hafter : (applyUpdate letterEnv letterInstall
      (planUpdate (manifestOf twiceManifest) (fun _ => none)) ⟨staleDisk, []⟩).1.disk.content
      [js "C:", js "MzzPlork", js "runtime", js "a"] = some letter := rfl
  rw [hafter, hbefore] at hkept
  exact absurd (Option.some.inj hkept) (by decide)

end Divergence

end Bootstrapper

end MzzPlork
