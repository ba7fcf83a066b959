import MzzPlork.Theory.Registry

/-!
# The Pre-pass

What the repeated pass at the head of a load fails, and that it fails all of it.

A record is loadable when it is cached and everything it declares is loadable,
all the way down. The relation is inductive, so a record on a cycle is not
loadable, and neither is one above a missing or failed dependency. The
pre-pass only ever fails records that are not loadable (`PreInv`), and it does
not stop before every record still cached has only live dependencies
(`Settled`). Cycles are invisible to it, which is what the sort is for.

The number of rounds is bounded because a round that changes something fails
a cached record. `settled_prePass` is the fact that the bound is never what ends
the loop.

## Main definitions

* `Loadable`: Cached, with everything below it loadable.
* `PreInv`: The registry during the pre-pass, against the one it began with.
* `Settled`: No cached record has a missing or failed dependency.

## Theorems

* `prePassOne_cases`: What one record's turn can do.
* `prePass_induct`: What every turn keeps, the pre-pass keeps.
* `preInv_prePass`: The pre-pass keeps the invariant.
* `settled_prePass`: It settles.
-/

namespace MzzPlork

namespace ResourceRegistry

/-- Cached, and so is everything reachable through declared dependencies,
    without going in circles. -/
inductive Loadable (r : ResourceRegistry) : Bytes → Prop where
  | intro (id : Bytes) (hc : r.stateOf id = some .cached)
      (hd : ∀ d ∈ r.depsOf id, Loadable r d) : Loadable r id

theorem Loadable.cached {r : ResourceRegistry} {id : Bytes} (h : Loadable r id) :
    r.stateOf id = some .cached := by
  cases h with
  | intro _ hc _ => exact hc

theorem Loadable.deps {r : ResourceRegistry} {id : Bytes} (h : Loadable r id) :
    ∀ d ∈ r.depsOf id, Loadable r d := by
  cases h with
  | intro _ _ hd => exact hd

/-- A dependency is live when it is in the registry and has not failed. -/
def Live (r : ResourceRegistry) (d : Bytes) : Prop :=
  ∃ s, r.stateOf d = some s ∧ s ≠ .failed

theorem badDependency_eq_none (r : ResourceRegistry) (deps : List Bytes) :
    r.badDependency deps = none ↔ ∀ d ∈ deps, r.Live d := by
  induction deps with
  | nil => simp only [badDependency, List.not_mem_nil, false_implies, implies_true]
  | cons dep deps ih =>
      rw [badDependency]
      cases hf : r.records.find dep with
      | none =>
          simp only [reduceCtorEq, false_iff]
          intro h
          rcases h dep List.mem_cons_self with ⟨s, hs, _⟩
          rw [stateOf, hf] at hs
          exact absurd hs (by simp only [Option.map_none, reduceCtorEq, not_false_eq_true])
      | some record =>
          simp only []
          have hst := r.stateOf_eq_some dep record hf
          by_cases hfail : record.state = .failed
          · rw [if_pos hfail]
            simp only [reduceCtorEq, false_iff]
            intro h
            rcases h dep List.mem_cons_self with ⟨s, hs, hne⟩
            rw [hst, Option.some.injEq] at hs
            exact hne (hs ▸ hfail)
          · rw [if_neg hfail, ih]
            constructor
            · intro h d hd
              rcases List.mem_cons.mp hd with rfl | hd
              · exact ⟨record.state, hst, hfail⟩
              · exact h d hd
            · exact fun h d hd => h d (List.mem_cons_of_mem dep hd)

/-- One record's turn: nothing, if the record is not cached or all its
    dependencies are live; otherwise the record fails and the turn is noted. -/
theorem prePassOne_cases (acc : Load × Bool) (id : Bytes) :
    (prePassOne acc id = acc ∧
      (acc.1.1.stateOf id = some .cached → ∀ d ∈ acc.1.1.depsOf id, acc.1.1.Live d)) ∨
    ((prePassOne acc id).2 = true ∧ acc.1.1.stateOf id = some .cached ∧
      (∃ d ∈ acc.1.1.depsOf id, ¬ acc.1.1.Live d) ∧
      SameEntries acc.1.1 (prePassOne acc id).1.1 ∧
      ∀ i, (prePassOne acc id).1.1.stateOf i
        = if i = id then some .failed else acc.1.1.stateOf i) := by
  rw [prePassOne]
  cases hf : acc.1.1.records.find id with
  | none =>
      refine Or.inl ⟨rfl, fun hc => ?_⟩
      rw [stateOf, hf] at hc
      exact absurd hc (by simp only [Option.map_none, reduceCtorEq, not_false_eq_true])
  | some record =>
      have hst := acc.1.1.stateOf_eq_some id record hf
      have hdeps := acc.1.1.depsOf_eq_some id record hf
      simp only []
      by_cases hc : record.state = .cached
      · rw [if_neg (not_not_intro hc)]
        rw [hc] at hst
        -- The first dependency that is not live is what the record fails for.
        cases hbad : acc.1.1.badDependency record.entry.dependencies with
        | none =>
            refine Or.inl ⟨rfl, fun _ => ?_⟩
            rw [hdeps]
            exact (badDependency_eq_none _ _).mp hbad
        | some error =>
            have ht := acc.1.1.stateOf_transitionTo id .cached .failed error hst rfl
            refine Or.inr ⟨rfl, hst, ?_, acc.1.1.sameEntries_transitionTo id .failed error, ht.2⟩
            rw [hdeps]
            by_contra hall
            have hlive : ∀ d ∈ record.entry.dependencies, acc.1.1.Live d := by
              intro d hd
              by_contra hnot
              exact hall ⟨d, hd, hnot⟩
            rw [(badDependency_eq_none _ _).mpr hlive] at hbad
            exact absurd hbad (by simp only [reduceCtorEq, not_false_eq_true])
      · rw [if_pos hc]
        refine Or.inl ⟨rfl, fun hcached => ?_⟩
        rw [hst, Option.some.injEq] at hcached
        exact absurd hcached hc

/-- The registry during the pre-pass: the entries are those it began with, and
    a record either has its old state, or was cached, is not loadable, and has
    failed. -/
structure PreInv (r₀ r : ResourceRegistry) : Prop where
  same : SameEntries r₀ r
  state : ∀ i, r.stateOf i = r₀.stateOf i ∨
    (r₀.stateOf i = some .cached ∧ r.stateOf i = some .failed ∧ ¬ Loadable r₀ i)

theorem PreInv.refl (r : ResourceRegistry) : PreInv r r :=
  ⟨SameEntries.refl r, fun _ => Or.inl rfl⟩

/-- What is still cached was cached to begin with. -/
theorem PreInv.cached {r₀ r : ResourceRegistry} (h : PreInv r₀ r) (i : Bytes)
    (hc : r.stateOf i = some .cached) : r₀.stateOf i = some .cached := by
  rcases h.state i with hs | ⟨h0, _, _⟩
  · rw [← hs, hc]
  · exact h0

/-- A loadable record is still cached. -/
theorem PreInv.cached_of_loadable {r₀ r : ResourceRegistry} (h : PreInv r₀ r) (i : Bytes)
    (hl : Loadable r₀ i) : r.stateOf i = some .cached := by
  rcases h.state i with hs | ⟨_, _, hnot⟩
  · rw [hs, hl.cached]
  · exact absurd hl hnot

/-- One record's turn keeps the invariant: it fails a record only when a
    dependency is missing or has failed, and then the record is not loadable. -/
theorem preInv_prePassOne (r₀ : ResourceRegistry) (acc : Load × Bool) (id : Bytes)
    (h : PreInv r₀ acc.1.1) : PreInv r₀ (prePassOne acc id).1.1 := by
  rcases prePassOne_cases acc id with ⟨heq, _⟩ | ⟨_, hc, ⟨d, hd, hnot⟩, hsame, hst⟩
  · rw [heq]
    exact h
  · refine ⟨h.same.trans hsame, fun i => ?_⟩
    rw [hst i]
    by_cases hi : i = id
    · subst hi
      rw [if_pos rfl]
      -- A loadable record has loadable dependencies, and those are still cached.
      refine Or.inr ⟨h.cached i hc, rfl, fun hl => hnot ?_⟩
      rw [h.same.depsOf_eq] at hd
      exact ⟨.cached, h.cached_of_loadable d (hl.deps d hd), by decide⟩
    · rw [if_neg hi]
      exact h.state i

/-- What every record's turn keeps, the whole pre-pass keeps. -/
theorem prePass_induct (P : Load → Prop)
    (hone : ∀ acc id, P acc.1 → P (prePassOne acc id).1) (ids : List Bytes) (fuel : Nat)
    (l : Load) (h : P l) : P (prePass ids fuel l) := by
  have hpass : ∀ (js : List Bytes) (acc : Load × Bool), P acc.1 →
      P (js.foldl prePassOne acc).1 := by
    intro js
    induction js with
    | nil => exact fun _ hacc => hacc
    | cons j js ih => exact fun acc hacc => ih _ (hone acc j hacc)
  induction fuel generalizing l with
  | zero => exact h
  | succ n ih =>
      rw [prePass]
      have hl := hpass ids (l, false) h
      split
      · exact ih _ hl
      · exact hl

/-- No cached record has a missing or failed dependency. -/
def Settled (r : ResourceRegistry) (ids : List Bytes) : Prop :=
  ∀ i ∈ ids, r.stateOf i = some .cached → ∀ d ∈ r.depsOf i, r.Live d

/-- How many of the listed records are cached. -/
def cachedCount (r : ResourceRegistry) (ids : List Bytes) : Nat :=
  ids.countP (fun i => r.stateOf i = some .cached)

/-- A failure in the list lowers the count of cached records. -/
theorem cachedCount_lt (r r' : ResourceRegistry) (ids : List Bytes) (id : Bytes)
    (hid : id ∈ ids) (hc : r.stateOf id = some .cached)
    (hst : ∀ i, r'.stateOf i = if i = id then some .failed else r.stateOf i) :
    r'.cachedCount ids < r.cachedCount ids := by
  -- The count drops at `id` and does not rise on either side of it.
  have hle : ∀ l : List Bytes, r'.cachedCount l ≤ r.cachedCount l := by
    intro l
    refine List.countP_mono_left (fun i _ hi => ?_)
    have hi := of_decide_eq_true hi
    rw [hst i] at hi
    by_cases heq : i = id
    · rw [if_pos heq] at hi
      exact absurd hi (by decide)
    · rw [if_neg heq] at hi
      exact decide_eq_true hi
  rcases List.append_of_mem hid with ⟨l₁, l₂, rfl⟩
  have h1 := hle l₁
  have h2 := hle l₂
  simp only [cachedCount] at h1 h2 ⊢
  rw [List.countP_append, List.countP_append, List.countP_cons, List.countP_cons, hst id,
    if_pos rfl, hc]
  simp only [Option.some.injEq, reduceCtorEq, decide_false, Bool.false_eq_true, if_false,
    decide_true, if_true]
  omega

/-- A pass that notes nothing found nothing to do; a pass that notes something
    failed a cached record. -/
theorem foldl_prePassOne (all ids : List Bytes) (hsub : ∀ i ∈ ids, i ∈ all)
    (acc : Load × Bool) :
    ((ids.foldl prePassOne acc).2 = false →
      ids.foldl prePassOne acc = acc ∧ Settled acc.1.1 ids) ∧
    (ids.foldl prePassOne acc).1.1.cachedCount all ≤ acc.1.1.cachedCount all ∧
    ((ids.foldl prePassOne acc).2 = true → acc.2 = false →
      (ids.foldl prePassOne acc).1.1.cachedCount all < acc.1.1.cachedCount all) := by
  induction ids generalizing acc with
  | nil =>
      refine ⟨fun _ => ⟨rfl, fun i hi => absurd hi List.not_mem_nil⟩, le_refl _, fun h h' => ?_⟩
      rw [List.foldl_nil, h'] at h
      exact Bool.noConfusion h
  | cons id ids ih =>
      rcases ih (fun i hi => hsub i (List.mem_cons_of_mem id hi)) (prePassOne acc id) with
        ⟨hquiet, hle, hlt⟩
      rw [List.foldl_cons]
      rcases prePassOne_cases acc id with ⟨heq, hlive⟩ | ⟨hflag, hc, _, _, hst⟩
      · rw [heq] at hquiet hle hlt ⊢
        refine ⟨fun h => ⟨(hquiet h).1, fun i hi => ?_⟩, hle, hlt⟩
        rcases List.mem_cons.mp hi with rfl | hi
        · exact hlive
        · exact (hquiet h).2 i hi
      · have hdrop := cachedCount_lt acc.1.1 _ all id (hsub id List.mem_cons_self) hc hst
        refine ⟨fun h => ?_, by omega, fun _ _ => by omega⟩
        -- A pass that ends quietly never set the flag.
        rw [(hquiet h).1, hflag] at h
        exact Bool.noConfusion h

/-- The pre-pass keeps the invariant. -/
theorem preInv_prePass (r₀ : ResourceRegistry) (ids : List Bytes) (fuel : Nat) (l : Load)
    (h : PreInv r₀ l.1) : PreInv r₀ (prePass ids fuel l).1 :=
  prePass_induct (fun l => PreInv r₀ l.1) (fun acc id hacc => preInv_prePassOne r₀ acc id hacc) ids
    fuel l h

/-- With a round for every cached record and one more, the pre-pass settles: its
    last round finds nothing to do, and one more would find nothing either. -/
theorem prePass_ends (ids : List Bytes) (fuel : Nat) (l : Load)
    (hfuel : l.1.cachedCount ids < fuel) :
    Settled (prePass ids fuel l).1 ids ∧
      (ids.foldl prePassOne (prePass ids fuel l, false)).2 = false := by
  induction fuel generalizing l with
  | zero => omega
  | succ n ih =>
      rcases foldl_prePassOne ids ids (fun _ hi => hi) (l, false) with ⟨hquiet, _, hlt⟩
      simp only [prePass]
      by_cases hp : (ids.foldl prePassOne (l, false)).2 = true
      · rw [if_pos hp]
        -- The round failed a cached record, which is what the bound counts.
        have hdrop : _ < l.1.cachedCount ids := hlt hp rfl
        exact ih _ (by omega)
      · rw [if_neg hp]
        have hdone := Bool.eq_false_iff.mpr hp
        have hq := hquiet hdone
        rw [hq.1]
        exact ⟨hq.2, hdone⟩

theorem settled_prePass (ids : List Bytes) (fuel : Nat) (l : Load)
    (hfuel : l.1.cachedCount ids < fuel) : Settled (prePass ids fuel l).1 ids :=
  (prePass_ends ids fuel l hfuel).1

end ResourceRegistry

end MzzPlork
