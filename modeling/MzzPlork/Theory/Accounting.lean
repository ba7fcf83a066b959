import MzzPlork.Theory.LoadOrder

/-!
# Accounting for a Load

That the summary of a load says what the load did, no more and no less.

Counters are kept in four places: two branches of the pre-pass, the load
attempts and the final sweep. What they have in common is a `Decision`: one
cached record becomes loaded or failed, and the summary takes note of it. A
load is a sequence of decisions (`Log`), whichever place each of them was made
in. No record is decided twice, since a decision needs a cached record and
leaves none, and none is left out, since no record is cached at the end.
Everything the summary should agree with is then read off the log.

## Main definitions

* `Decision`, `decide1`: One record loaded or failed, and noted.
* `Log`: A sequence of decisions, each about a record still cached.
* `Accounted`: The books of a load balance.

## Theorems

* `prePassOne_eq`, `attempt_eq`, `sweepOne_eq`: The four places decide.
* `Log.find_of_mem`, `Log.find_of_not_mem`: Where a log leaves each record.
* `exists_log`: A load is a log.
* `prePass_quiet`: The pre-pass ends with a round that changes nothing.
* `loadAll_accounted`: The books balance, and a second load is idle.
-/

namespace MzzPlork

namespace ResourceRegistry

/-- A record and what becomes of it: loaded, or failed with an error. -/
abbrev Decision := Bytes × Option Bytes

/-- The summary after a decision. -/
def noted (summary : LoadSummary) (d : Decision) : LoadSummary :=
  match d.2 with
  | none => { summary with loaded := summary.loaded + 1 }
  | some error =>
    { summary with failed := summary.failed + 1, errors := summary.errors ++ [(d.1, error)] }

/-- Where a decision leaves its record. -/
def outcomeState (d : Decision) : ResourceState := if d.2.isSome then .failed else .loaded

/-- One decision. -/
def decide1 (l : Load) (d : Decision) : Load :=
  (l.1.setState d.1 (outcomeState d) (d.2.getD []), noted l.2 d)

/-- A failure of a cached record, counted with the error stored in it. -/
theorem recordFailure_eq (l : Load) (id : Bytes) (error : Bytes) (s : ResourceState)
    (hs : l.1.stateOf id = some s) :
    recordFailure (l.1.setState id .failed error, l.2) id = decide1 l (id, some error) := by
  rw [recordFailure, l.1.getError_setState id s .failed error hs]
  rfl

/-- One record's turn in the pre-pass decides it or does nothing. -/
theorem prePassOne_eq (acc : Load × Bool) (id : Bytes) :
    prePassOne acc id = acc ∨
      ∃ error, acc.1.1.stateOf id = some .cached ∧
        prePassOne acc id = (decide1 acc.1 (id, some error), true) := by
  rw [prePassOne]
  split
  · exact Or.inl rfl
  · rename_i record hf
    split
    · exact Or.inl rfl
    · rename_i hc
      have hst := acc.1.1.stateOf_eq_some id record hf
      rw [not_not.mp hc] at hst
      split
      · exact Or.inl rfl
      · rename_i error _
        refine Or.inr ⟨error, hst, ?_⟩
        rw [transitionTo_eq _ id .cached .failed error hst rfl]
        rw [recordFailure_eq acc.1 id error .cached hst]

/-- A load attempt decides its record. -/
theorem attempt_eq (disk : ClientDisk) (id : Bytes) (l : Load)
    (hs : l.1.stateOf id = some .cached) : ∃ o, attempt disk id l = decide1 l (id, o) := by
  rcases l.1.find_of_stateOf id .cached hs with ⟨record, hf, _⟩
  have hloading := l.1.stateOf_setState id .cached .loading [] hs
  have hone : l.1.loadOne disk id
      = (l.1.setState id .loading []).validateAndMarkLoaded disk id record.entry := by
    simp only [loadOne, hf, l.1.transitionTo_eq id .cached .loading [] hs rfl, if_true]
  rw [attempt, hone]
  rcases validateAndMarkLoaded_eq _ disk id record.entry hloading with hok | ⟨error, hbad⟩
  · refine ⟨none, ?_⟩
    rw [hok, setState_setState]
    rfl
  · refine ⟨some error, ?_⟩
    rw [hbad, setState_setState]
    simp only [Bool.false_eq_true, if_false]
    exact recordFailure_eq l id error .cached hs

/-- The sweep decides what was not attempted. -/
theorem sweepOne_eq (processed : List Bytes) (l : Load) (id : Bytes)
    (hs : l.1.stateOf id = some .cached) (hp : id ∉ processed) :
    sweepOne processed l id = decide1 l (id, some (ascii "circular dependency")) := by
  rw [sweepOne, if_neg (fun h => hp (List.contains_iff_mem.mp h)),
    l.1.transitionTo_eq id .cached .failed _ hs rfl]
  rfl

/-- A sequence of decisions, each about a record that is cached at the time. -/
inductive Log : Load → List Decision → Load → Prop where
  | done (l : Load) : Log l [] l
  | step (l : Load) (d : Decision) (ds : List Decision) (l' : Load)
      (hc : l.1.stateOf d.1 = some .cached) (h : Log (decide1 l d) ds l') : Log l (d :: ds) l'

theorem Log.append {l l' l'' : Load} {ds ds' : List Decision} (h : Log l ds l')
    (h' : Log l' ds' l'') : Log l (ds ++ ds') l'' := by
  induction h with
  | done _ => exact h'
  | step l d ds _ hc _ ih => exact Log.step l d (ds ++ ds') l'' hc (ih h')

theorem Log.single (l : Load) (d : Decision) (hc : l.1.stateOf d.1 = some .cached) :
    Log l [d] (decide1 l d) := Log.step l d [] _ hc (Log.done _)

theorem find_decide1 (l : Load) (d : Decision) (i : Bytes) :
    (decide1 l d).1.records.find i
      = if i = d.1 then (l.1.records.find i).map (fun record =>
          { record with state := outcomeState d, error := d.2.getD [] })
        else l.1.records.find i :=
  OrdMap.find_modify _ _ _ _

/-- No decision leaves its record cached. -/
theorem stateOf_decide1_ne (l : Load) (d : Decision) :
    (decide1 l d).1.stateOf d.1 ≠ some .cached := by
  rw [stateOf, find_decide1, if_pos rfl, Option.map_map]
  intro h
  rcases Option.map_eq_some_iff.mp h with ⟨record, _, hst⟩
  have hst : outcomeState d = .cached := hst
  rw [outcomeState] at hst
  split at hst
  · exact ResourceState.noConfusion hst
  · exact ResourceState.noConfusion hst

/-- A record no decision is about is left alone. -/
theorem Log.find_of_not_mem {l l' : Load} {ds : List Decision} (h : Log l ds l') (i : Bytes)
    (hi : i ∉ ds.map Prod.fst) : l'.1.records.find i = l.1.records.find i := by
  induction h with
  | done _ => rfl
  | step l d ds l' _ _ ih =>
      rw [List.map_cons, List.mem_cons, not_or] at hi
      rw [ih hi.2, find_decide1, if_neg hi.1]

/-- What a decision is about was cached at the beginning. -/
theorem Log.cached {l l' : Load} {ds : List Decision} (h : Log l ds l') (d : Decision)
    (hd : d ∈ ds) : l.1.stateOf d.1 = some .cached := by
  induction h with
  | done _ => exact absurd hd List.not_mem_nil
  | step l e ds l' hc _ ih =>
      rcases List.mem_cons.mp hd with rfl | hd
      · exact hc
      · have hafter := ih hd
        by_cases hid : d.1 = e.1
        · rw [hid] at hafter
          exact absurd hafter (stateOf_decide1_ne l e)
        · rw [stateOf, find_decide1, if_neg hid] at hafter
          exact hafter

/-- No record is decided twice. -/
theorem Log.nodup {l l' : Load} {ds : List Decision} (h : Log l ds l') :
    (ds.map Prod.fst).Nodup := by
  induction h with
  | done _ => exact List.nodup_nil
  | step l d ds l' _ h ih =>
      refine List.nodup_cons.mpr ⟨fun hmem => ?_, ih⟩
      rcases List.mem_map.mp hmem with ⟨e, he, heq⟩
      have hcached := h.cached e he
      rw [heq] at hcached
      exact stateOf_decide1_ne l d hcached

/-- A record a decision is about is where the decision put it. -/
theorem Log.find_of_mem {l l' : Load} {ds : List Decision} (h : Log l ds l') (d : Decision)
    (hd : d ∈ ds) : l'.1.records.find d.1 = (l.1.records.find d.1).map (fun record =>
      { record with state := outcomeState d, error := d.2.getD [] }) := by
  induction h with
  | done _ => exact absurd hd List.not_mem_nil
  | step l e ds l' hc h ih =>
      have hnd := (Log.step l e ds l' hc h).nodup
      rw [List.map_cons, List.nodup_cons] at hnd
      rcases List.mem_cons.mp hd with rfl | hd
      · rw [h.find_of_not_mem d.1 hnd.1, find_decide1, if_pos rfl]
      · have hid : d.1 ≠ e.1 := fun heq => hnd.1 (heq ▸ List.mem_map_of_mem hd)
        rw [ih hd, find_decide1, if_neg hid]

/-- The summary is the one it began with and the decisions since. -/
theorem Log.summary {l l' : Load} {ds : List Decision} (h : Log l ds l') :
    l'.2 = ds.foldl noted l.2 := by
  induction h with
  | done _ => rfl
  | step _ _ _ _ _ _ ih => exact ih

/-- What a list of decisions adds to a summary. -/
theorem foldl_noted (ds : List Decision) (summary : LoadSummary) :
    ds.foldl noted summary
      = ⟨summary.loaded + ds.countP (fun d => d.2.isNone),
         summary.failed + ds.countP (fun d => d.2.isSome),
         summary.errors ++ ds.filterMap (fun d => d.2.map (fun error => (d.1, error)))⟩ := by
  induction ds generalizing summary with
  | nil => simp only [List.foldl_nil, List.countP_nil, Nat.add_zero, List.filterMap_nil,
      List.append_nil]
  | cons d ds ih =>
      rw [List.foldl_cons, ih]
      rcases d with ⟨id, outcome⟩
      cases outcome with
      | none =>
          simp only [noted, List.countP_cons, List.filterMap_cons, Option.isNone_none,
            Option.isSome_none, Option.map_none, if_true, Bool.false_eq_true, if_false,
            Nat.add_zero, LoadSummary.mk.injEq, and_true]
          omega
      | some error =>
          simp only [noted, List.countP_cons, List.filterMap_cons, Option.isNone_some,
            Option.isSome_some, Option.map_some, if_true, Bool.false_eq_true, if_false,
            Nat.add_zero, LoadSummary.mk.injEq, List.append_assoc, List.singleton_append,
            true_and, and_true]
          omega

/-- A loop that decides some records of a list and skips the others is a log. -/
theorem exists_log_foldl (f : Load → Bytes → Load) (chosen : Bytes → Prop)
    (hskip : ∀ l i, ¬ chosen i → f l i = l)
    (hone : ∀ l i, chosen i → l.1.stateOf i = some .cached → ∃ o, f l i = decide1 l (i, o))
    (ids : List Bytes) (hnd : ids.Nodup) (l : Load)
    (hs : ∀ i ∈ ids, chosen i → l.1.stateOf i = some .cached) :
    ∃ ds, Log l ds (ids.foldl f l) := by
  induction ids generalizing l with
  | nil => exact ⟨[], Log.done l⟩
  | cons id ids ih =>
      rcases List.nodup_cons.mp hnd with ⟨hid, hnd⟩
      rw [List.foldl_cons]
      by_cases hchosen : chosen id
      · have hc := hs id List.mem_cons_self hchosen
        rcases hone l id hchosen hc with ⟨o, heq⟩
        rw [heq]
        rcases ih hnd (decide1 l (id, o)) (fun i hi hich => by
          rw [stateOf, find_decide1, if_neg (fun h : i = id => hid (h ▸ hi))]
          exact hs i (List.mem_cons_of_mem id hi) hich) with ⟨ds, hlog⟩
        exact ⟨(id, o) :: ds, Log.step l (id, o) ds _ hc hlog⟩
      · rw [hskip l id hchosen]
        exact ih hnd l (fun i hi => hs i (List.mem_cons_of_mem id hi))

/-- The books of a load that began with registry `r`. -/
structure Accounted (r : ResourceRegistry) (l : Load) : Prop where
  decided : ∀ i, r.stateOf i = some .cached →
    l.1.stateOf i = some .loaded ∨ l.1.stateOf i = some .failed
  others : ∀ i, r.stateOf i ≠ some .cached → l.1.records.find i = r.records.find i
  loaded : l.2.loaded = r.eligible.countP (fun i => l.1.stateOf i = some .loaded)
  failed : l.2.failed = r.eligible.countP (fun i => l.1.stateOf i = some .failed)
  errors : l.2.errors.Perm
    ((r.eligible.filter (fun i => l.1.stateOf i = some .failed)).map
      (fun i => (i, l.1.getError i)))

section Balance

variable {r : ResourceRegistry} {l : Load} {ds : List Decision}
  (h : Log (r, ⟨0, 0, []⟩) ds l)

include h

theorem Log.record (d : Decision) (hd : d ∈ ds) :
    l.1.stateOf d.1 = some (outcomeState d) ∧ l.1.getError d.1 = d.2.getD [] := by
  rcases r.find_of_stateOf d.1 .cached (h.cached d hd) with ⟨record, hf, _⟩
  have hafter := h.find_of_mem d hd
  rw [show (r, (⟨0, 0, []⟩ : LoadSummary)).1.records.find d.1 = some record from hf,
    Option.map_some] at hafter
  refine ⟨l.1.stateOf_eq_some d.1 _ hafter, ?_⟩
  rw [getError, hafter]

/-- A log that leaves nothing out is a load whose books balance. -/
theorem Log.accounted (hall : ∀ i, r.stateOf i = some .cached → i ∈ ds.map Prod.fst) :
    Accounted r l := by
  have hperm : r.eligible.Perm (ds.map Prod.fst) := by
    refine (List.perm_ext_iff_of_nodup r.nodup_eligible h.nodup).mpr (fun i => ?_)
    rw [mem_eligible]
    refine ⟨hall i, fun hi => ?_⟩
    rcases List.mem_map.mp hi with ⟨d, hd, rfl⟩
    exact h.cached d hd
  have hsum := h.summary
  rw [foldl_noted] at hsum
  have hloaded : ∀ d ∈ ds, l.1.stateOf d.1 = some .loaded ↔ d.2.isNone = true := by
    intro d hd
    rw [(h.record d hd).1, outcomeState]
    cases d.2 <;> simp
  have hfailed : ∀ d ∈ ds, l.1.stateOf d.1 = some .failed ↔ d.2.isSome = true := by
    intro d hd
    rw [(h.record d hd).1, outcomeState]
    cases d.2 <;> simp
  refine ⟨fun i hc => ?_, fun i hc => ?_, ?_, ?_, ?_⟩
  · rcases List.mem_map.mp (hall i hc) with ⟨d, hd, rfl⟩
    cases ho : d.2 with
    | none => exact Or.inl ((hloaded d hd).mpr (by rw [ho]; rfl))
    | some error => exact Or.inr ((hfailed d hd).mpr (by rw [ho]; rfl))
  · refine h.find_of_not_mem i (fun hi => ?_)
    rcases List.mem_map.mp hi with ⟨d, hd, rfl⟩
    exact hc (h.cached d hd)
  · rw [hsum, hperm.countP_eq, List.countP_map]
    refine (Nat.zero_add _).trans (List.countP_congr (fun d hd => ?_))
    exact (hloaded d hd).symm.trans decide_eq_true_iff.symm
  · rw [hsum, hperm.countP_eq, List.countP_map]
    refine (Nat.zero_add _).trans (List.countP_congr (fun d hd => ?_))
    exact (hfailed d hd).symm.trans decide_eq_true_iff.symm
  · refine List.Perm.trans ?_ ((hperm.filter _).map _).symm
    rw [hsum, List.nil_append]
    -- In the order of the log the two lists are the same.
    have hlist : ∀ es : List Decision, (∀ d ∈ es, d ∈ ds) →
        es.filterMap (fun d => d.2.map (fun error => (d.1, error)))
          = ((es.map Prod.fst).filter (fun i => l.1.stateOf i = some .failed)).map
              (fun i => (i, l.1.getError i)) := by
      intro es hes
      induction es with
      | nil => rfl
      | cons d es ih =>
          have hd := hes d List.mem_cons_self
          have ih := ih (fun e he => hes e (List.mem_cons_of_mem d he))
          have hfd := hfailed d hd
          have herror := (h.record d hd).2
          rw [List.filterMap_cons, List.map_cons, List.filter_cons]
          cases ho : d.2 with
          | none =>
              rw [ho] at hfd
              simp only [Option.map_none, hfd, Option.isSome_none, Bool.false_eq_true,
                decide_false, if_false]
              exact ih
          | some error =>
              rw [ho] at hfd herror
              simp only [Option.map_some, hfd, Option.isSome_some, decide_true, if_true,
                List.map_cons, herror, Option.getD_some]
              rw [ih]
    rw [hlist ds (fun _ hd => hd)]

end Balance

section Whole

variable (r : ResourceRegistry) (disk : ClientDisk)

/-- A load is a log. -/
theorem exists_log : ∃ ds, Log (r, ⟨0, 0, []⟩) ds (r.loadAll disk) := by
  have hpre : ∃ ds, Log (r, ⟨0, 0, []⟩) ds r.afterPrePass :=
    prePass_induct (fun l => ∃ ds, Log (r, ⟨0, 0, []⟩) ds l)
      (fun acc id hacc => by
        rcases hacc with ⟨ds, hlog⟩
        rcases prePassOne_eq acc id with heq | ⟨error, hc, heq⟩
        · rw [heq]
          exact ⟨ds, hlog⟩
        · rw [heq]
          exact ⟨ds ++ [(id, some error)], hlog.append (Log.single acc.1 (id, some error) hc)⟩)
      r.eligible (r.eligible.length + 1) _ ⟨[], Log.done _⟩
  rcases hpre with ⟨ds₁, h₁⟩
  rcases exists_log_foldl (fun acc id => attempt disk id acc) (fun _ => True)
    (fun _ _ h => absurd trivial h) (fun l i _ hc => attempt_eq disk i l hc)
    (r.attempts disk) (r.nodup_attempts disk) r.afterPrePass (fun i hi _ =>
      (r.mem_sortGraph i).mp ((r.mem_processed_iff_acc disk i).mp hi).1) with ⟨ds₂, h₂⟩
  have hsorted := (r.sorted_spec disk).2
  rcases exists_log_foldl (sweepOne (r.attempts disk)) (fun i => i ∉ r.attempts disk)
    (fun l i h => by
      rw [sweepOne, if_pos (List.contains_iff_mem.mpr (not_not.mp h))])
    (fun l i h hc => ⟨_, sweepOne_eq (r.attempts disk) l i hc h⟩)
    r.sortGraph.nodes r.sortGraph.nodup (r.sorted disk).2 (fun i hi hnot => by
      rw [r.stateOf_done disk i, ← attempts, if_neg hnot]
      exact (r.mem_sortGraph i).mp hi) with ⟨ds₃, h₃⟩
  rw [hsorted] at h₃
  exact ⟨ds₁ ++ ds₂ ++ ds₃, by
    rw [r.loadAll_eq disk]
    exact (h₁.append h₂).append h₃⟩

/-- The pre-pass does not end before a round that changes nothing. -/
theorem prePass_quiet (ids : List Bytes) (fuel : Nat) (l : Load)
    (hfuel : l.1.cachedCount ids < fuel) :
    (ids.foldl prePassOne (prePass ids fuel l, false)).2 = false :=
  (prePass_ends ids fuel l hfuel).2

/-- A load without cached records does nothing. -/
theorem loadAll_of_eligible_nil (h : r.eligible = []) :
    r.loadAll disk = (r, ⟨0, 0, []⟩) := by
  rw [loadAll, h]
  rfl

/-- The books balance: no cached record is left out of the log. -/
theorem accounted_loadAll : Accounted r (r.loadAll disk) := by
  rcases r.exists_log disk with ⟨ds, hlog⟩
  refine hlog.accounted (fun i hc => ?_)
  by_contra hnot
  have hend := r.stateOf_loadAll_of_cached disk i hc
  rw [stateOf, hlog.find_of_not_mem i hnot] at hend
  have hcached : some ResourceState.cached = _ := hc.symm.trans hend
  split at hcached <;> exact absurd hcached (by decide)

/-- Both loops of a load come to their own end: the pre-pass by a round that
    changes nothing, the sort by an empty queue. The books balance, and an
    immediately following load finds nothing to do. -/
theorem loadAll_accounted :
    (r.eligible.foldl prePassOne (r.afterPrePass, false)).2 = false ∧
      (r.sorted disk).1.queue = [] ∧
      Accounted r (r.loadAll disk) ∧
      (r.loadAll disk).1.loadAll disk = ((r.loadAll disk).1, ⟨0, 0, []⟩) := by
  have hacc := r.accounted_loadAll disk
  refine ⟨prePass_quiet r.eligible _ _ (Nat.lt_succ_of_le List.countP_le_length),
    Kahn.loop_queue r.sortGraph (attempt disk) r.afterPrePass, hacc, ?_⟩
  refine loadAll_of_eligible_nil _ disk (List.eq_nil_iff_forall_not_mem.mpr (fun i hi => ?_))
  have hi := (mem_eligible _ i).mp hi
  by_cases hc : r.stateOf i = some .cached
  · rcases hacc.decided i hc with hs | hs
    · rw [hi] at hs
      exact absurd hs (by decide)
    · rw [hi] at hs
      exact absurd hs (by decide)
  · refine hc ?_
    rw [stateOf, ← hacc.others i hc]
    exact hi

end Whole

end ResourceRegistry

end MzzPlork
