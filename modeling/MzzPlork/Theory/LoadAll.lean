import Mathlib.Logic.Relation
import MzzPlork.Theory.PrePass

/-!
# Loading in Dependency Order

Where every record ends up after `loadAll`, and when that keeps dependents of
a failed dependency from loading.

The tables the code builds for Kahn's algorithm are those of the dependency
graph over the records still cached after the pre-pass (`graphOf`), so the
nodes attempted are the accessible ones. Put together with the pre-pass, a
record is attempted exactly when it is loadable, and an attempt is decided by
the on-disk check. `stateOf_loadAll` says so for every record at once.

The attempts do not look at each other. A dependency that fails its check is
counted as visited like one that passed, so its dependents come up next and
load if their own files are fine. `DependencySafe` therefore holds on exactly
the inputs where no loadable record that passes its check sits directly above
one that does not.

## Main definitions

* `graphOf`: The graph the code's tables describe.
* `DependencySafe`: Loaded records have loaded dependencies, and what fails
  takes everything above it along.

## Theorems

* `buildGraph_spec`: What the tables hold.
* `mem_processed_iff`: Exactly the loadable records are attempted.
* `stateOf_loadAll`: The state of every record after a load.
* `dependencySafe_iff`: When a load keeps dependencies safe.
-/

namespace MzzPlork

namespace ResourceRegistry

/-- The dependencies of one record, folded into the tables: each that takes
    part is counted and lists the record. -/
theorem foldl_addEdge (r : ResourceRegistry) (elig : List Bytes) (id : Bytes) (deps : List Bytes)
    (acc : Int × (Bytes → List Bytes)) :
    (deps.foldl (r.addEdge elig id) acc).1 = acc.1 + deps.countP (r.participates elig) ∧
      ∀ d v, ((deps.foldl (r.addEdge elig id) acc).2 d).countP (· = v)
        = (acc.2 d).countP (· = v)
          + if v = id ∧ r.participates elig d = true then deps.countP (· = d) else 0 := by
  induction deps generalizing acc with
  | nil =>
      refine ⟨by rw [List.countP_nil, Int.natCast_zero, Int.add_zero, List.foldl_nil],
        fun d v => ?_⟩
      rw [List.countP_nil, ite_self, Nat.add_zero, List.foldl_nil]
  | cons dep deps ih =>
      rcases ih (r.addEdge elig id acc dep) with ⟨h1, h2⟩
      rw [List.foldl_cons, h1, List.countP_cons]
      refine ⟨?_, fun d v => ?_⟩
      · rw [addEdge]
        by_cases hp : r.participates elig dep = true
        · rw [if_pos hp, if_pos hp]
          omega
        · rw [if_neg hp, if_neg hp]
          omega
      · rw [h2, List.countP_cons, addEdge]
        -- Only the list under the dependency itself grows, and only by this record.
        by_cases hd : dep = d
        · subst hd
          by_cases hp : r.participates elig dep = true
          · rw [if_pos hp]
            simp only [Function.update_self, List.countP_append, List.countP_singleton]
            by_cases hv : v = id
            · simp only [hv, decide_true, if_true, hp, and_self]
              omega
            · simp only [hv, Ne.symm hv, decide_false, Bool.false_eq_true, if_false, false_and]
          · rw [if_neg hp]
            simp only [hp, Bool.false_eq_true, and_false, if_false]
        · have hother : ((if r.participates elig dep = true then
              (acc.1 + 1, Function.update acc.2 dep (acc.2 dep ++ [id])) else acc).2 d)
              = acc.2 d := by
            split
            · exact Function.update_of_ne (Ne.symm hd) _ _
            · rfl
          rw [hother]
          simp only [hd, decide_false, Bool.false_eq_true, if_false, Nat.add_zero]

/-- One record folded into the graph. -/
theorem addNode_eq (r : ResourceRegistry) (elig : List Bytes) (g : LoadGraph) (id : Bytes) :
    (r.stateOf id ≠ some .cached ∧ r.addNode elig g id = g) ∨
    (r.stateOf id = some .cached ∧
      (r.addNode elig g id).inDegree
        = g.inDegree.insert id ((r.depsOf id).countP (r.participates elig)) ∧
      ∀ d v, ((r.addNode elig g id).dependents d).countP (· = v)
        = (g.dependents d).countP (· = v)
          + if v = id ∧ r.participates elig d = true then (r.depsOf id).countP (· = d)
            else 0) := by
  rw [addNode]
  cases hf : r.records.find id with
  | none =>
      refine Or.inl ⟨?_, rfl⟩
      rw [stateOf, hf]
      simp only [Option.map_none, ne_eq, reduceCtorEq, not_false_eq_true]
  | some record =>
      have hst := r.stateOf_eq_some id record hf
      have hdeps := r.depsOf_eq_some id record hf
      simp only []
      by_cases hc : record.state = .cached
      · rw [if_neg (not_not_intro hc)]
        rcases foldl_addEdge r elig id record.entry.dependencies (0, g.dependents) with ⟨h1, h2⟩
        refine Or.inr ⟨by rw [hst, hc], ?_, ?_⟩
        · rw [h1, hdeps, Int.zero_add]
        · rw [hdeps]
          exact h2
      · rw [if_pos hc]
        refine Or.inl ⟨?_, rfl⟩
        rw [hst]
        simp only [ne_eq, Option.some.injEq, hc, not_false_eq_true]

/-- What the tables hold: a counter for every cached record of the list, and
    under each participating dependency the records that declare it. -/
theorem buildGraph_spec (r : ResourceRegistry) (elig ids : List Bytes) (g : LoadGraph)
    (hnd : ids.Nodup) :
    (∀ v, (ids.foldl (r.addNode elig) g).inDegree.find v
      = if v ∈ ids ∧ r.stateOf v = some .cached
        then some ((r.depsOf v).countP (r.participates elig) : Int) else g.inDegree.find v) ∧
    ∀ d v, ((ids.foldl (r.addNode elig) g).dependents d).countP (· = v)
      = (g.dependents d).countP (· = v)
        + if (v ∈ ids ∧ r.stateOf v = some .cached) ∧ r.participates elig d = true
          then (r.depsOf v).countP (· = d) else 0 := by
  induction ids generalizing g with
  | nil =>
      simp only [List.foldl_nil, List.not_mem_nil, false_and, if_false, Nat.add_zero,
        implies_true, and_self]
  | cons id ids ih =>
      rcases List.nodup_cons.mp hnd with ⟨hid, hnd⟩
      rcases ih (r.addNode elig g id) hnd with ⟨h1, h2⟩
      rw [List.foldl_cons]
      -- A record of the list comes up once, so later rounds leave its counter alone.
      rcases addNode_eq r elig g id with ⟨hc, heq⟩ | ⟨hc, hdeg, hdep⟩
      · rw [heq] at h1 h2 ⊢
        have hmem : ∀ v, (v ∈ id :: ids ∧ r.stateOf v = some .cached)
            ↔ (v ∈ ids ∧ r.stateOf v = some .cached) := by
          intro v
          rw [List.mem_cons]
          constructor
          · rintro ⟨rfl | hv, hs⟩
            · exact absurd hs hc
            · exact ⟨hv, hs⟩
          · exact fun h => ⟨Or.inr h.1, h.2⟩
        refine ⟨fun v => ?_, fun d v => ?_⟩
        · simp only [hmem]
          exact h1 v
        · simp only [hmem]
          exact h2 d v
      · refine ⟨fun v => ?_, fun d v => ?_⟩
        · rw [h1 v, hdeg, OrdMap.find_insert]
          by_cases hv : v = id
          · subst hv
            simp only [hid, false_and, if_false, if_true, List.mem_cons_self, hc, and_self]
          · simp only [hv, if_false, List.mem_cons, false_or]
        · rw [h2 d v, hdep d v]
          by_cases hv : v = id
          · subst hv
            simp only [hid, false_and, if_false, Nat.add_zero, true_and, List.mem_cons_self, hc]
          · simp only [hv, false_and, if_false, Nat.add_zero, List.mem_cons, false_or]

theorem mem_buildGraph_keys (r : ResourceRegistry) (elig : List Bytes) (hnd : elig.Nodup)
    (helig : ∀ v, r.stateOf v = some .cached → v ∈ elig) (v : Bytes) :
    v ∈ (r.buildGraph elig).inDegree.keys ↔ r.stateOf v = some .cached := by
  rw [OrdMap.mem_keys, buildGraph,
    (buildGraph_spec r elig elig ⟨OrdMap.empty, fun _ => []⟩ hnd).1 v]
  by_cases hc : r.stateOf v = some .cached
  · simp only [helig v hc, hc, and_self, if_true, Option.isSome_some]
  · simp only [hc, and_false, if_false, OrdMap.empty, Option.isSome_none, Bool.false_eq_true]

theorem participates_iff (r : ResourceRegistry) (elig : List Bytes)
    (helig : ∀ v, r.stateOf v = some .cached → v ∈ elig) (d : Bytes) :
    r.participates elig d = true ↔ r.stateOf d = some .cached := by
  rw [participates, Bool.and_eq_true, decide_eq_true_eq, List.contains_iff_mem]
  exact ⟨fun h => h.2, fun h => ⟨helig d h, h⟩⟩

/-- The dependency graph over the cached records of a registry, with the
    code's tables as its counters and dependents. -/
def graphOf (r : ResourceRegistry) (elig : List Bytes) (hnd : elig.Nodup)
    (helig : ∀ v, r.stateOf v = some .cached → v ∈ elig) : Kahn.Graph Bytes where
  nodes := (r.buildGraph elig).inDegree.keys
  deps := r.depsOf
  degree := (r.buildGraph elig).degree
  dependents := (r.buildGraph elig).dependents
  nodup := OrdMap.nodup_keys _
  degree_eq := fun v hv => by
    have hc := (mem_buildGraph_keys r elig hnd helig v).mp hv
    -- The counter of the code counts the participants, that of the graph the nodes.
    have hfind : (r.buildGraph elig).inDegree.find v
        = some ((r.depsOf v).countP (r.participates elig) : Int) := by
      rw [buildGraph, (buildGraph_spec r elig elig ⟨OrdMap.empty, fun _ => []⟩ hnd).1 v,
        if_pos ⟨helig v hc, hc⟩]
    rw [LoadGraph.degree, hfind, Option.getD_some, Int.natCast_inj]
    refine List.countP_congr (fun d _ => ?_)
    rw [participates_iff r elig helig, ← mem_buildGraph_keys r elig hnd helig]
    simp only [decide_eq_true_eq]
  listed := fun d hd v => by
    have hdc := (mem_buildGraph_keys r elig hnd helig d).mp hd
    have hspec := (buildGraph_spec r elig elig ⟨OrdMap.empty, fun _ => []⟩ hnd).2 d v
    rw [List.countP_nil, Nat.zero_add] at hspec
    refine hspec.trans ?_
    by_cases hc : r.stateOf v = some .cached
    · rw [if_pos ⟨⟨helig v hc, hc⟩, (participates_iff r elig helig d).mpr hdc⟩,
        if_pos ((mem_buildGraph_keys r elig hnd helig v).mpr hc)]
    · rw [if_neg (fun h => hc h.1.2),
        if_neg (fun h => hc ((mem_buildGraph_keys r elig hnd helig v).mp h))]

/-- Every record is cached or failed, as a manifest leaves them. -/
def Ready (r : ResourceRegistry) : Prop :=
  ∀ i ∈ r.records.keys, r.stateOf i = some .cached ∨ r.stateOf i = some .failed

instance (r : ResourceRegistry) : Decidable r.Ready := by unfold Ready; infer_instance

theorem mem_keys_of_stateOf (r : ResourceRegistry) (i : Bytes) (s : ResourceState)
    (h : r.stateOf i = some s) : i ∈ r.records.keys := by
  rcases r.find_of_stateOf i s h with ⟨record, hf, _⟩
  exact r.records.mem_keys_of_find i record hf

theorem Ready.state {r : ResourceRegistry} (h : r.Ready) (i : Bytes) (s : ResourceState)
    (hs : r.stateOf i = some s) : s = .cached ∨ s = .failed := by
  have hi := h i (r.mem_keys_of_stateOf i s hs)
  rwa [hs, Option.some.injEq, Option.some.injEq] at hi

theorem mem_eligible (r : ResourceRegistry) (i : Bytes) :
    i ∈ r.eligible ↔ r.stateOf i = some .cached := by
  rw [eligible, List.mem_filter, decide_eq_true_eq]
  exact ⟨fun h => h.2, fun h => ⟨r.mem_keys_of_stateOf i .cached h, h⟩⟩

section Outcome

variable (r : ResourceRegistry) (disk : ClientDisk)

/-- The registry and summary after the pre-pass. -/
def afterPrePass : Load := prePass r.eligible (r.eligible.length + 1) (r, ⟨0, 0, []⟩)

theorem afterPrePass_spec :
    PreInv r r.afterPrePass.1 ∧ Settled r.afterPrePass.1 r.eligible :=
  ⟨preInv_prePass r r.eligible _ (r, ⟨0, 0, []⟩) (PreInv.refl r),
    settled_prePass r.eligible _ (r, ⟨0, 0, []⟩) (Nat.lt_succ_of_le List.countP_le_length)⟩

theorem nodup_eligible : r.eligible.Nodup := (OrdMap.nodup_keys _).filter _

theorem eligible_of_afterPrePass (v : Bytes) (h : r.afterPrePass.1.stateOf v = some .cached) :
    v ∈ r.eligible :=
  (r.mem_eligible v).mpr (r.afterPrePass_spec.1.cached v h)

/-- The graph the sort runs on. -/
def sortGraph : Kahn.Graph Bytes :=
  graphOf r.afterPrePass.1 r.eligible r.nodup_eligible r.eligible_of_afterPrePass

/-- The nodes Kahn's loop attempts, and the registry after it. -/
def sorted : Kahn.State Bytes × Load :=
  loadInOrder (r.afterPrePass.1.buildGraph r.eligible) disk r.afterPrePass

theorem mem_sortGraph (v : Bytes) :
    v ∈ r.sortGraph.nodes ↔ r.afterPrePass.1.stateOf v = some .cached :=
  mem_buildGraph_keys _ _ r.nodup_eligible r.eligible_of_afterPrePass v

/-- The nodes attempted are the accessible ones. -/
theorem mem_processed_iff_acc (v : Bytes) :
    v ∈ (r.sorted disk).1.done ↔ v ∈ r.sortGraph.nodes ∧ Acc (Kahn.Below r.sortGraph) v :=
  Kahn.mem_done_iff r.sortGraph (attempt disk) r.afterPrePass v

/-- Exactly the loadable records are attempted. -/
theorem mem_processed_iff (hr : r.Ready) (v : Bytes) :
    v ∈ (r.sorted disk).1.done ↔ Loadable r v := by
  rw [mem_processed_iff_acc]
  rcases r.afterPrePass_spec with ⟨hinv, hsettled⟩
  constructor
  · rintro ⟨hv, hacc⟩
    induction hacc with
    | intro v _ ih =>
        have hc := (r.mem_sortGraph v).mp hv
        refine Loadable.intro v (hinv.cached v hc) (fun d hd => ?_)
        rw [← hinv.same.depsOf_eq] at hd
        -- After the pre-pass a live dependency can only be a cached one.
        rcases hsettled v (r.eligible_of_afterPrePass v hc) hc d hd with ⟨s, hs, hne⟩
        have hsc : s = .cached := by
          rcases hinv.state d with heq | ⟨_, hfail, _⟩
          · rw [hs] at heq
            exact (hr.state d s heq.symm).resolve_right hne
          · rw [hs, Option.some.injEq] at hfail
            exact absurd hfail hne
        rw [hsc] at hs
        have hdn := (r.mem_sortGraph d).mpr hs
        exact ih d ⟨hdn, hv, hd⟩ hdn
  · intro hl
    induction hl with
    | intro v hc hd ih =>
        have hcv := hinv.cached_of_loadable v (Loadable.intro v hc hd)
        refine ⟨(r.mem_sortGraph v).mpr hcv, Acc.intro v (fun d hb => ?_)⟩
        have hmem : d ∈ r.depsOf v := by
          rw [← hinv.same.depsOf_eq]
          exact hb.2.2
        exact (ih d hmem).2

/-- The visiting order has no repetitions, and the loop is the sequence of
    attempts along it. -/
theorem sorted_spec : (r.sorted disk).1.done.Nodup ∧
    (r.sorted disk).2
      = (r.sorted disk).1.done.foldl (fun acc id => attempt disk id acc) r.afterPrePass := by
  have hinv := (Kahn.inv_loop r.sortGraph (attempt disk) r.sortGraph.nodes.length
    (Kahn.start r.sortGraph) r.afterPrePass (Kahn.inv_start _) (by omega)).1
  rcases Kahn.loop_snd r.sortGraph.dependents (attempt disk) r.sortGraph.nodes.length
    (Kahn.start r.sortGraph) r.afterPrePass with ⟨order, hdone, hout⟩
  have hdone : (r.sorted disk).1.done = order := hdone
  refine ⟨(List.nodup_append.mp hinv.nodup).1, ?_⟩
  rw [hdone]
  exact hout

/-- The states after the attempts. -/
theorem stateOf_done (i : Bytes) : (r.sorted disk).2.1.stateOf i
    = if i ∈ (r.sorted disk).1.done then
        some (if r.passesCheck disk i then .loaded else .failed)
      else r.afterPrePass.1.stateOf i := by
  rcases r.sorted_spec disk with ⟨hnd, hfold⟩
  have hatt := (stateOf_foldl_attempt disk (r.sorted disk).1.done r.afterPrePass hnd
    (fun j hj => (r.mem_sortGraph j).mp ((r.mem_processed_iff_acc disk j).mp hj).1)).2 i
  rw [hfold, ← r.afterPrePass_spec.1.same.passesCheck_eq]
  exact hatt

/-- The sweep fails what is left over in the graph. -/
theorem stateOf_swept (i : Bytes) : (r.loadAll disk).1.stateOf i
    = if i ∈ r.sortGraph.nodes ∧ i ∉ (r.sorted disk).1.done then some .failed
      else (r.sorted disk).2.1.stateOf i :=
  (stateOf_foldl_sweep (r.sorted disk).1.done r.sortGraph.nodes (r.sorted disk).2
    r.sortGraph.nodup (fun j hj hjp => by
      rw [r.stateOf_done disk j, if_neg hjp]
      exact (r.mem_sortGraph j).mp hj)).2 i

/-- The state of every record after a load. A record that was not cached keeps
    its state, a loadable one is decided by its check, and the others fail. -/
theorem stateOf_loadAll (hr : r.Ready) (i : Bytes) :
    (r.stateOf i ≠ some .cached → (r.loadAll disk).1.stateOf i = r.stateOf i) ∧
    (Loadable r i → (r.loadAll disk).1.stateOf i
      = some (if r.passesCheck disk i then .loaded else .failed)) ∧
    (r.stateOf i = some .cached → ¬ Loadable r i →
      (r.loadAll disk).1.stateOf i = some .failed) := by
  rcases r.afterPrePass_spec with ⟨hinv, _⟩
  have hproc := r.mem_processed_iff disk hr
  rw [r.stateOf_swept disk i, r.stateOf_done disk i]
  refine ⟨fun hnc => ?_, fun hl => ?_, fun hc hnl => ?_⟩
  · have hnl : i ∉ (r.sorted disk).1.done := fun h => hnc ((hproc i).mp h).cached
    have hnp : i ∉ r.sortGraph.nodes :=
      fun h => hnc (hinv.cached i ((r.mem_sortGraph i).mp h))
    rw [if_neg (fun h => hnp h.1), if_neg hnl]
    exact (hinv.state i).resolve_right (fun h => hnc h.1)
  -- Attempted, and out of the sweep's reach.
  · have hp := (hproc i).mpr hl
    rw [if_neg (fun h => h.2 hp), if_pos hp]
  · have hnp : i ∉ (r.sorted disk).1.done := fun h => hnl ((hproc i).mp h)
    -- Left over for the sweep, or failed by the pre-pass.
    by_cases hn : i ∈ r.sortGraph.nodes
    · rw [if_pos ⟨hn, hnp⟩]
    · rw [if_neg (fun h => hn h.1), if_neg hnp]
      rcases hinv.state i with heq | ⟨_, hfail, _⟩
      · exact absurd ((r.mem_sortGraph i).mpr (heq.trans hc)) hn
      · exact hfail

/-- What a load owes a dependency: whatever it moves to loaded has all its
    dependencies loaded, and whatever is above a failed record fails. -/
structure DependencySafe (r r' : ResourceRegistry) : Prop where
  loaded : ∀ i, r.stateOf i ≠ some .loaded → r'.stateOf i = some .loaded →
    ∀ d ∈ r.depsOf i, r'.stateOf d = some .loaded
  cascade : ∀ i d, Relation.TransGen (fun a b => b ∈ r.depsOf a) i d →
    r'.stateOf d = some .failed → r'.stateOf i = some .failed

/-- An id with dependencies is in the registry. -/
theorem stateOf_of_mem_depsOf (i d : Bytes) (h : d ∈ r.depsOf i) : ∃ s, r.stateOf i = some s := by
  rw [depsOf] at h
  cases he : r.entryOf i with
  | none =>
      rw [he] at h
      exact absurd h List.not_mem_nil
  | some entry =>
      rcases Option.map_eq_some_iff.mp he with ⟨record, hf, _⟩
      exact ⟨record.state, r.stateOf_eq_some i record hf⟩

/-- A load is safe exactly when no loadable record that passes its check
    declares a dependency that does not. -/
theorem dependencySafe_iff (hr : r.Ready) :
    DependencySafe r (r.loadAll disk).1 ↔
      ∀ i, Loadable r i → r.passesCheck disk i = true →
        ∀ d ∈ r.depsOf i, r.passesCheck disk d = true := by
  have hloaded : ∀ i, r.stateOf i ≠ some .loaded := by
    intro i hi
    rcases hr.state i _ hi with h | h <;> exact ResourceState.noConfusion h
  constructor
  · intro hsafe i hl hpass d hd
    have hi := (r.stateOf_loadAll disk hr i).2.1 hl
    rw [if_pos hpass] at hi
    have hd' := hsafe.loaded i (hloaded i) hi d hd
    rw [(r.stateOf_loadAll disk hr d).2.1 (hl.deps d hd)] at hd'
    by_contra hnot
    rw [if_neg hnot] at hd'
    exact absurd hd' (by decide)
  · intro hcond
    have hdeps : ∀ i, (r.loadAll disk).1.stateOf i = some .loaded →
        ∀ d ∈ r.depsOf i, (r.loadAll disk).1.stateOf d = some .loaded := by
      -- Only an attempt that passed its check can have loaded the record.
      intro i hi d hd
      rcases r.stateOf_loadAll disk hr i with ⟨hkeep, hdec, hfail⟩
      by_cases hl : Loadable r i
      · rw [hdec hl] at hi
        have hpass : r.passesCheck disk i = true := by
          by_contra hnot
          rw [if_neg hnot] at hi
          exact absurd hi (by decide)
        rw [(r.stateOf_loadAll disk hr d).2.1 (hl.deps d hd), if_pos (hcond i hl hpass d hd)]
      · by_cases hc : r.stateOf i = some .cached
        · rw [hfail hc hl] at hi
          exact absurd hi (by decide)
        · rw [hkeep hc] at hi
          exact absurd hi (hloaded i)
    refine ⟨fun i _ hi => hdeps i hi, fun i d hpath => ?_⟩
    -- What is not loaded in the end has failed.
    have hend : ∀ j s, r.stateOf j = some s → (r.loadAll disk).1.stateOf j ≠ some .loaded →
        (r.loadAll disk).1.stateOf j = some .failed := by
      intro j s hs hne
      rcases r.stateOf_loadAll disk hr j with ⟨hkeep, hdec, hfail⟩
      rcases hr.state j s hs with rfl | rfl
      · by_cases hl : Loadable r j
        · rw [hdec hl] at hne ⊢
          by_cases hpass : r.passesCheck disk j = true
          · rw [if_pos hpass] at hne
            exact absurd rfl hne
          · rw [if_neg hpass]
        · exact hfail hs hl
      · rw [hkeep (by rw [hs]; decide), hs]
    have hstep : ∀ a b, b ∈ r.depsOf a → (r.loadAll disk).1.stateOf b = some .failed →
        (r.loadAll disk).1.stateOf a = some .failed := by
      intro a b hb hbf
      rcases r.stateOf_of_mem_depsOf a b hb with ⟨s, hs⟩
      refine hend a s hs (fun hal => ?_)
      rw [hdeps a hal b hb] at hbf
      exact absurd hbf (by decide)
    induction hpath with
    | single hb => exact hstep i _ hb
    | tail _ hb ih => exact fun hf => ih (hstep _ _ hb hf)

end Outcome

section Divergence

/-- A cached resource `b` of five bytes, and a cached resource `d` that depends
    on it. -/
def baseAndDependent : ResourceRegistry :=
  let listed := (⟨ascii "R", OrdMap.empty⟩ : ResourceRegistry).loadManifest
    [⟨ascii "b", ascii "b", 5, [], [], []⟩, ⟨ascii "d", ascii "d", 0, [], [], [ascii "b"]⟩]
  ((listed.transitionTo (ascii "b") .cached []).1.transitionTo (ascii "d") .cached []).1

/-- A disk on which only the dependent's file is there. -/
def dependentOnly : ClientDisk :=
  ((createDirectories Disk.bare (ascii "R\\d")).write (winPath.locate (ascii "R\\d")) [1]).getD
    Disk.bare

/-- The equivalence at a base resource whose file has vanished. -/
theorem dependencySafe_baseAndDependent :
    DependencySafe baseAndDependent (baseAndDependent.loadAll dependentOnly).1 ↔
      ∀ i, Loadable baseAndDependent i → baseAndDependent.passesCheck dependentOnly i = true →
        ∀ d ∈ baseAndDependent.depsOf i,
          baseAndDependent.passesCheck dependentOnly d = true :=
  dependencySafe_iff baseAndDependent dependentOnly (by decide)

/-- The base fails its attempt and the dependent, attempted next, loads. -/
theorem not_dependencySafe_baseAndDependent :
    baseAndDependent.Ready ∧
      ¬ DependencySafe baseAndDependent (baseAndDependent.loadAll dependentOnly).1 := by
  refine ⟨by decide, fun hsafe => ?_⟩
  have hbase := hsafe.loaded (ascii "d") (by decide) (by decide) (ascii "b") (by decide)
  exact absurd hbase (by decide)

end Divergence

end ResourceRegistry

end MzzPlork
