import MzzPlork.Theory.LoadAll

/-!
# What a Load Attempts, and in Which Order

`Theory.LoadAll` describes a load of a registry that a manifest has just left
behind, where every record is cached or failed. Here the registry is
arbitrary. A dependency that is registered but neither cached nor failed, a
record loaded earlier for instance, then counts for nothing: the pre-pass lets
it pass and the sort does not wait for it.

What keeps a cached record from being attempted is therefore a path, not the
whole of what lies below it. `Doomed` names the three ends such a path can
have: an id nobody registered, a record that had failed before, and a cycle.
The pre-pass fails doomed records only, by induction over its turns, and what
it leaves for the sort is on or above a cycle when the sort does not reach it.

## Main definitions

* `attempts`: The records `loadOne` is called on, in order.
* `Needs`: A declared dependency between two cached records.
* `Doomed`: A path to a missing id, a failed record or a cycle.

## Theorems

* `mem_attempts_iff`: Exactly the records that are not doomed are attempted.
* `stateOf_loadAll_of_cached`: Where a cached record ends up.
* `loadAll_attempts`: What is attempted, how often, and after what.
-/

namespace MzzPlork

namespace ResourceRegistry

open Relation

section Paths

variable (r : ResourceRegistry)

/-- A declared dependency between two cached records. -/
def Needs (a d : Bytes) : Prop :=
  r.stateOf a = some .cached ∧ d ∈ r.depsOf a ∧ r.stateOf d = some .cached

/-- From the record a path through cached records leads to one that declares a
    missing or failed dependency, or to a cycle. -/
def Doomed (id : Bytes) : Prop :=
  ∃ j, ReflTransGen r.Needs id j ∧
    ((∃ d ∈ r.depsOf j, r.stateOf d = none ∨ r.stateOf d = some .failed) ∨
      TransGen r.Needs j j)

/-- Doom spreads to whatever needs the doomed. -/
theorem Doomed.head {r : ResourceRegistry} {a d : Bytes} (hn : r.Needs a d) (h : r.Doomed d) :
    r.Doomed a := by
  rcases h with ⟨j, hpath, hend⟩
  exact ⟨j, ReflTransGen.head hn hpath, hend⟩

/-- A doomed record declares something missing, failed or doomed. -/
theorem Doomed.cases {r : ResourceRegistry} {id : Bytes} (h : r.Doomed id) :
    (∃ d ∈ r.depsOf id, r.stateOf d = none ∨ r.stateOf d = some .failed) ∨
      ∃ d, r.Needs id d ∧ r.Doomed d := by
  rcases h with ⟨j, hpath, hend⟩
  rcases ReflTransGen.cases_head hpath with rfl | ⟨d, hn, hrest⟩
  · rcases hend with hbad | hcycle
    · exact Or.inl hbad
    -- The first record of the cycle is on the cycle as well.
    · rcases TransGen.head'_iff.mp hcycle with ⟨d, hn, hrest⟩
      exact Or.inr ⟨d, hn, id, hrest, Or.inr hcycle⟩
  · exact Or.inr ⟨d, hn, j, hrest, hend⟩

/-- The pre-pass fails doomed records only. -/
theorem doomed_of_prePass (i : Bytes) (hc : r.stateOf i = some .cached)
    (hf : r.afterPrePass.1.stateOf i = some .failed) : r.Doomed i := by
  have hkept := prePass_induct
    (fun l => PreInv r l.1 ∧ ∀ i, r.stateOf i = some .cached →
      l.1.stateOf i = some .failed → r.Doomed i)
    (fun acc id h => by
      refine ⟨preInv_prePassOne r acc id h.1, fun i hi hif => ?_⟩
      rcases prePassOne_cases acc id with ⟨heq, _⟩ | ⟨_, _, ⟨d, hd, hnot⟩, _, hst⟩
      · rw [heq] at hif
        exact h.2 i hi hif
      · rw [hst i] at hif
        by_cases hid : i = id
        · subst hid
          rw [h.1.same.depsOf_eq] at hd
          -- The dependency is missing or failed now; look at what it was to begin with.
          rcases h.1.state d with heq | ⟨hdc, hdf, _⟩
          · refine ⟨i, ReflTransGen.refl, Or.inl ⟨d, hd, ?_⟩⟩
            rw [← heq]
            by_contra hlive
            rcases not_or.mp hlive with ⟨hsome, hnf⟩
            rcases Option.ne_none_iff_exists'.mp hsome with ⟨s, hs⟩
            exact hnot ⟨s, hs, fun heqf => hnf (heqf ▸ hs)⟩
          · exact Doomed.head ⟨hi, hd, hdc⟩ (h.2 d hdc hdf)
        · rw [if_neg hid] at hif
          exact h.2 i hi hif)
    r.eligible (r.eligible.length + 1) (r, ⟨0, 0, []⟩)
    ⟨PreInv.refl r, fun i hi hif => by
      rw [hi, Option.some.injEq] at hif
      exact absurd hif (by decide)⟩
  exact hkept.2 i hc hf

/-- The edges of the sort's graph are needs. -/
theorem needs_of_below (a d : Bytes) (h : Kahn.Below r.sortGraph d a) : r.Needs a d := by
  rcases h with ⟨hd, ha, hdep⟩
  have hinv := r.afterPrePass_spec.1
  have hdep : d ∈ r.afterPrePass.1.depsOf a := hdep
  rw [hinv.same.depsOf_eq] at hdep
  exact ⟨hinv.cached a ((r.mem_sortGraph a).mp ha), hdep,
    hinv.cached d ((r.mem_sortGraph d).mp hd)⟩

/-- What the sort runs on has live dependencies, and those that were cached to
    begin with are in the graph themselves. -/
theorem below_of_needs (a d : Bytes) (ha : a ∈ r.sortGraph.nodes) (hn : r.Needs a d) :
    Kahn.Below r.sortGraph d a := by
  rcases r.afterPrePass_spec with ⟨hinv, hsettled⟩
  have hac := (r.mem_sortGraph a).mp ha
  have hdep : d ∈ r.afterPrePass.1.depsOf a := by
    rw [hinv.same.depsOf_eq]
    exact hn.2.1
  refine ⟨(r.mem_sortGraph d).mpr ?_, ha, hdep⟩
  rcases hsettled a (r.eligible_of_afterPrePass a hac) hac d hdep with ⟨s, hs, hne⟩
  rcases hinv.state d with heq | ⟨_, hf, _⟩
  · rw [heq]
    exact hn.2.2
  · rw [hs, Option.some.injEq] at hf
    exact absurd hf hne

end Paths

section Attempts

variable (r : ResourceRegistry) (disk : ClientDisk)

/-- The records `loadOne` is called on, in the order of the calls: the nodes
    Kahn's loop visits. -/
def attempts : List Bytes := (r.sorted disk).1.done

/-- A load is the pre-pass, an attempt for each of these records in turn, and
    the sweep. -/
theorem loadAll_eq : r.loadAll disk
    = r.sortGraph.nodes.foldl (sweepOne (r.attempts disk))
        ((r.attempts disk).foldl (fun acc id => attempt disk id acc) r.afterPrePass) := by
  rw [attempts, ← (r.sorted_spec disk).2]
  rfl

/-- A record that is attempted is not doomed. -/
theorem not_doomed_of_mem (v : Bytes) (hv : v ∈ r.attempts disk) : ¬ r.Doomed v := by
  rcases (r.mem_processed_iff_acc disk v).mp hv with ⟨hn, hacc⟩
  rcases r.afterPrePass_spec with ⟨hinv, hsettled⟩
  induction hacc with
  | intro v hall ih =>
      intro hdoom
      rcases hdoom.cases with ⟨d, hd, hbad⟩ | ⟨d, hneeds, hdd⟩
      · -- Missing or failed from the start, so not live after the pre-pass either.
        have hc := (r.mem_sortGraph v).mp hn
        rw [← hinv.same.depsOf_eq] at hd
        rcases hsettled v (r.eligible_of_afterPrePass v hc) hc d hd with ⟨s, hs, hne⟩
        rcases hinv.state d with heq | ⟨hdc, _, _⟩
        · rw [← heq, hs] at hbad
          rcases hbad with hnone | hfail
          · exact Option.some_ne_none s hnone
          · exact hne (Option.some.inj hfail)
        · rw [hdc] at hbad
          exact absurd hbad (by decide)
      · have hbelow := r.below_of_needs v d hn hneeds
        have hmem := (r.mem_processed_iff_acc disk d).mpr ⟨hbelow.1, hall d hbelow⟩
        exact ih d hbelow hmem hbelow.1 hdd

/-- Exactly the cached records that are not doomed are attempted. -/
theorem mem_attempts_iff (v : Bytes) :
    v ∈ r.attempts disk ↔ r.stateOf v = some .cached ∧ ¬ r.Doomed v := by
  have hinv := r.afterPrePass_spec.1
  constructor
  · intro hv
    have hn := ((r.mem_processed_iff_acc disk v).mp hv).1
    exact ⟨hinv.cached v ((r.mem_sortGraph v).mp hn), r.not_doomed_of_mem disk v hv⟩
  · rintro ⟨hc, hnd⟩
    have hstill : r.afterPrePass.1.stateOf v = some .cached := by
      rcases hinv.state v with heq | ⟨_, hf, _⟩
      · rw [heq, hc]
      · exact absurd (r.doomed_of_prePass v hc hf) hnd
    refine (r.mem_processed_iff_acc disk v).mpr ⟨(r.mem_sortGraph v).mpr hstill, ?_⟩
    by_contra hacc
    rcases Kahn.exists_cycle r.sortGraph v hacc with ⟨j, hpath, hcycle⟩
    exact hnd ⟨j, ReflTransGen.mono r.needs_of_below _ _ hpath,
      Or.inr (TransGen.mono r.needs_of_below _ _ hcycle)⟩

theorem nodup_attempts : (r.attempts disk).Nodup := (r.sorted_spec disk).1

/-- What a cached record ends up as: decided by its own check where it is
    attempted, failed where it is not. -/
theorem stateOf_loadAll_of_cached (i : Bytes) (hc : r.stateOf i = some .cached) :
    (r.loadAll disk).1.stateOf i
      = some (if i ∈ r.attempts disk ∧ r.passesCheck disk i = true then .loaded
          else .failed) := by
  rw [r.stateOf_swept disk i, r.stateOf_done disk i, ← attempts]
  by_cases hmem : i ∈ r.attempts disk
  · rw [if_neg (fun h => h.2 hmem), if_pos hmem]
    simp only [hmem, true_and]
  · have hnoload : ¬ (i ∈ r.attempts disk ∧ r.passesCheck disk i = true) := fun h => hmem h.1
    rw [if_neg hnoload, if_neg hmem]
    by_cases hn : i ∈ r.sortGraph.nodes
    · rw [if_pos ⟨hn, hmem⟩]
    · rw [if_neg (fun h => hn h.1)]
      -- Not in the graph: the pre-pass has failed it.
      rcases r.afterPrePass_spec.1.state i with heq | ⟨_, hf, _⟩
      · exact absurd ((r.mem_sortGraph i).mpr (heq.trans hc)) hn
      · exact hf

/-- What is attempted comes after everything cached that it declares. -/
theorem attempts_ordered (l₁ : List Bytes) (v : Bytes) (l₂ : List Bytes)
    (hsplit : r.attempts disk = l₁ ++ v :: l₂) (d : Bytes) (hd : d ∈ r.depsOf v)
    (hc : r.stateOf d = some .cached) : d ∈ l₁ := by
  have hinv := (Kahn.inv_loop r.sortGraph (attempt disk) r.sortGraph.nodes.length
    (Kahn.start r.sortGraph) r.afterPrePass (Kahn.inv_start _) (by omega)).1
  have hv : v ∈ r.attempts disk := by
    rw [hsplit]
    exact List.mem_append_right l₁ List.mem_cons_self
  have hvc := ((r.mem_attempts_iff disk v).mp hv).1
  have hvn := ((r.mem_processed_iff_acc disk v).mp hv).1
  exact hinv.ordered l₁ v l₂ hsplit d (r.below_of_needs v d hvn ⟨hvc, hd, hc⟩)

/-- A load calls `loadOne` on the attempted records only, on each of them in
    turn. A cached record fails without an attempt exactly when it is doomed.
    Every other cached record is attempted once, behind all its cached
    dependencies, and nothing else is attempted. -/
theorem loadAll_attempts :
    r.loadAll disk = r.sortGraph.nodes.foldl (sweepOne (r.attempts disk))
      ((r.attempts disk).foldl (fun acc id => attempt disk id acc) r.afterPrePass) ∧
    (∀ i, r.stateOf i = some .cached →
      ((i ∉ r.attempts disk ∧ (r.loadAll disk).1.stateOf i = some .failed) ↔ r.Doomed i) ∧
      (¬ r.Doomed i → (r.attempts disk).count i = 1)) ∧
    (∀ i ∈ r.attempts disk, r.stateOf i = some .cached) ∧
    ∀ l₁ i l₂, r.attempts disk = l₁ ++ i :: l₂ →
      ∀ d ∈ r.depsOf i, r.stateOf d = some .cached → d ∈ l₁ := by
  refine ⟨r.loadAll_eq disk, fun i hc => ⟨?_, fun hnd => ?_⟩,
    fun i hi => ((r.mem_attempts_iff disk i).mp hi).1, r.attempts_ordered disk⟩
  · constructor
    · rintro ⟨hnot, _⟩
      by_contra hnd
      exact hnot ((r.mem_attempts_iff disk i).mpr ⟨hc, hnd⟩)
    · intro hdoom
      have hnot : i ∉ r.attempts disk := fun hi => r.not_doomed_of_mem disk i hi hdoom
      rw [r.stateOf_loadAll_of_cached disk i hc, if_neg (fun h => hnot h.1)]
      exact ⟨hnot, rfl⟩
  · exact List.count_eq_one_of_mem (r.nodup_attempts disk)
      ((r.mem_attempts_iff disk i).mpr ⟨hc, hnd⟩)

end Attempts

end ResourceRegistry

end MzzPlork
