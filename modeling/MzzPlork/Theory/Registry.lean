import MzzPlork.Core.ResourceRegistry

/-!
# Registry Transitions

What one transition, and one load attempt, does to a registry.

Every operation of a load changes states and errors and nothing else: the
records it iterates over, their entries and the resources directory are those
it started with. `SameEntries` is that frame, and with it the rest of a
registry is described by one function, `stateOf`. Each operation then gets one
equation for `stateOf`, which later proofs rewrite with instead of unfolding
the operation.

Whether an attempt succeeds depends on the entry and the disk alone.
`passesCheck` is that test, read off `validateAndMarkLoaded`.

## Main definitions

* `SameEntries`: Two registries that differ in states and errors only.
* `depsOf`: The declared dependencies of an id.
* `passesCheck`: The on-disk check of a load attempt.
* `setState`: What a transition does when it is allowed.

## Theorems

* `sameEntries_transitionTo`: A transition changes no entry.
* `stateOf_transitionTo`: The states after a valid transition.
* `transitionTo_eq`: A valid transition as an equation.
* `stateOf_attempt`: The states after a load attempt.
* `stateOf_foldl_attempt`: The states after a sequence of attempts.
* `stateOf_foldl_sweep`: The states after the final sweep.
-/

namespace MzzPlork

namespace ResourceRegistry

/-- Two registries over the same records, differing in states and errors only. -/
structure SameEntries (r r' : ResourceRegistry) : Prop where
  dir : r'.resourcesDir = r.resourcesDir
  keys : r'.records.keys = r.records.keys
  entry : ∀ i, r'.entryOf i = r.entryOf i

theorem SameEntries.refl (r : ResourceRegistry) : SameEntries r r := ⟨rfl, rfl, fun _ => rfl⟩

theorem SameEntries.trans {r r' r'' : ResourceRegistry} (h : SameEntries r r')
    (h' : SameEntries r' r'') : SameEntries r r'' :=
  ⟨h'.dir.trans h.dir, h'.keys.trans h.keys, fun i => (h'.entry i).trans (h.entry i)⟩

/-- The declared dependencies of an id, none for an unknown one. -/
def depsOf (r : ResourceRegistry) (id : Bytes) : List Bytes :=
  match r.entryOf id with
  | some entry => entry.dependencies
  | none => []

/-- The on-disk check of a load attempt: the file exists, has a size, and the
    size is the expected one where one was given. -/
def passesCheck (r : ResourceRegistry) (disk : ClientDisk) (id : Bytes) : Bool :=
  match r.entryOf id with
  | some entry =>
    match fsFileSize disk (joinPath r.resourcesDir entry.path) with
    | some size => !(entry.size > 0 && size ≠ entry.size)
    | none => false
  | none => false

theorem SameEntries.depsOf_eq {r r' : ResourceRegistry} (h : SameEntries r r') (i : Bytes) :
    r'.depsOf i = r.depsOf i := by
  rw [depsOf, depsOf, h.entry i]

theorem SameEntries.passesCheck_eq {r r' : ResourceRegistry} (h : SameEntries r r')
    (disk : ClientDisk) (i : Bytes) : r'.passesCheck disk i = r.passesCheck disk i := by
  rw [passesCheck, passesCheck, h.entry i, h.dir]

theorem entryOf_eq_some (r : ResourceRegistry) (id : Bytes) (record : ResourceRecord)
    (h : r.records.find id = some record) : r.entryOf id = some record.entry := by
  rw [entryOf, h]
  rfl

theorem stateOf_eq_some (r : ResourceRegistry) (id : Bytes) (record : ResourceRecord)
    (h : r.records.find id = some record) : r.stateOf id = some record.state := by
  rw [stateOf, h]
  rfl

theorem find_of_stateOf (r : ResourceRegistry) (id : Bytes) (s : ResourceState)
    (h : r.stateOf id = some s) : ∃ record, r.records.find id = some record ∧ record.state = s :=
  Option.map_eq_some_iff.mp h

theorem depsOf_eq_some (r : ResourceRegistry) (id : Bytes) (record : ResourceRecord)
    (h : r.records.find id = some record) : r.depsOf id = record.entry.dependencies := by
  rw [depsOf, r.entryOf_eq_some id record h]

/-- A transition changes no entry. -/
theorem sameEntries_transitionTo (r : ResourceRegistry) (id : Bytes) (s : ResourceState)
    (error : Bytes) : SameEntries r (r.transitionTo id s error).1 := by
  rw [transitionTo]
  split
  · exact SameEntries.refl r
  · split
    · refine ⟨rfl, rfl, fun i => ?_⟩
      rw [entryOf, entryOf, OrdMap.find_modify]
      by_cases hi : i = id
      · rw [if_pos hi, Option.map_map]
        rfl
      · rw [if_neg hi]
    · exact SameEntries.refl r

/-- A transition is about one record. -/
theorem stateOf_transitionTo_of_ne (r : ResourceRegistry) (id i : Bytes) (s : ResourceState)
    (error : Bytes) (hi : i ≠ id) : (r.transitionTo id s error).1.stateOf i = r.stateOf i := by
  rw [transitionTo]
  split
  · rfl
  · split
    · rw [stateOf, stateOf, r.records.find_modify_of_ne id i _ hi]
    · rfl

/-- Every record can fail, and one that has failed stays so. -/
theorem stateOf_failed_ne (r : ResourceRegistry) (id : Bytes) (error : Bytes) (s : ResourceState)
    (hs : s ≠ .failed) : (r.transitionTo id .failed error).1.stateOf id ≠ some s := by
  intro h
  rw [transitionTo] at h
  split at h
  · rename_i hfind
    rw [stateOf, hfind] at h
    exact absurd h (by simp only [Option.map_none, reduceCtorEq, not_false_eq_true])
  · rename_i record hfind
    split at h
    · rw [stateOf, r.records.find_modify_self, hfind, Option.map_some, Option.map_some,
        Option.some.injEq] at h
      exact hs h.symm
    · rename_i hvalid
      rw [r.stateOf_eq_some id record hfind, Option.some.injEq] at h
      rw [h] at hvalid
      -- The table lets every state fail but `failed` itself.
      cases s <;> first | exact hs rfl | exact hvalid rfl

/-- A valid transition succeeds and changes one state. -/
theorem stateOf_transitionTo (r : ResourceRegistry) (id : Bytes) (s s' : ResourceState)
    (error : Bytes) (hs : r.stateOf id = some s) (hv : isValidTransition s s' = true) :
    (r.transitionTo id s' error).2 = true ∧
      ∀ i, (r.transitionTo id s' error).1.stateOf i
        = if i = id then some s' else r.stateOf i := by
  rcases r.find_of_stateOf id s hs with ⟨record, hf, rfl⟩
  rw [transitionTo, hf]
  simp only [hv, if_true, true_and]
  intro i
  rw [stateOf, OrdMap.find_modify]
  by_cases hi : i = id
  · rw [if_pos hi, if_pos hi, hi, hf]
    rfl
  · rw [if_neg hi, if_neg hi]
    rfl

/-- A refused transition leaves the registry as it is. -/
theorem transitionTo_refused (r : ResourceRegistry) (id : Bytes) (s s' : ResourceState)
    (error : Bytes) (hs : r.stateOf id = some s) (hv : isValidTransition s s' = false) :
    (r.transitionTo id s' error).1 = r := by
  rcases r.find_of_stateOf id s hs with ⟨record, hf, rfl⟩
  rw [transitionTo, hf]
  simp only [hv, Bool.false_eq_true, if_false]

/-- A transition on a known record: allowed by the table, or without effect. -/
theorem stateOf_transitionTo_self (r : ResourceRegistry) (id : Bytes) (s s' : ResourceState)
    (error : Bytes) (hs : r.stateOf id = some s) :
    (r.transitionTo id s' error).1.stateOf id
      = some (if isValidTransition s s' then s' else s) := by
  cases hv : isValidTransition s s' with
  | true => rw [(r.stateOf_transitionTo id s s' error hs hv).2 id, if_pos rfl]; rfl
  | false => rw [transitionTo_refused r id s s' error hs hv, hs]; rfl

/-- A registry with the state and error of one record replaced. -/
def setState (r : ResourceRegistry) (id : Bytes) (s : ResourceState) (error : Bytes) :
    ResourceRegistry :=
  let records := r.records.modify id (fun record => { record with state := s, error := error })
  { r with records := records }

/-- A transition the table allows is that replacement. -/
theorem transitionTo_eq (r : ResourceRegistry) (id : Bytes) (s s' : ResourceState)
    (error : Bytes) (hs : r.stateOf id = some s) (hv : isValidTransition s s' = true) :
    r.transitionTo id s' error = (r.setState id s' error, true) := by
  rcases r.find_of_stateOf id s hs with ⟨record, hf, rfl⟩
  rw [transitionTo, hf]
  simp only [hv, if_true]
  rfl

@[simp] theorem stateOf_setState (r : ResourceRegistry) (id : Bytes) (s s' : ResourceState)
    (error : Bytes) (hs : r.stateOf id = some s) :
    (r.setState id s' error).stateOf id = some s' := by
  rcases r.find_of_stateOf id s hs with ⟨record, hf, _⟩
  rw [stateOf, setState, OrdMap.find_modify_self, hf]
  rfl

theorem getError_setState (r : ResourceRegistry) (id : Bytes) (s s' : ResourceState)
    (error : Bytes) (hs : r.stateOf id = some s) :
    (r.setState id s' error).getError id = error := by
  rcases r.find_of_stateOf id s hs with ⟨record, hf, _⟩
  rw [getError, setState, OrdMap.find_modify_self, hf]
  rfl

theorem stateOf_setState_of_ne (r : ResourceRegistry) (id i : Bytes) (s : ResourceState)
    (error : Bytes) (hi : i ≠ id) :
    (r.setState id s error).stateOf i = r.stateOf i := by
  rw [stateOf, stateOf, setState]
  simp only [r.records.find_modify_of_ne id i _ hi]

/-- The second of two replacements is what remains. -/
theorem setState_setState (r : ResourceRegistry) (id : Bytes) (s s' : ResourceState)
    (error error' : Bytes) :
    (r.setState id s error).setState id s' error' = r.setState id s' error' := by
  have hfind : ((r.setState id s error).setState id s' error').records.find
      = (r.setState id s' error').records.find := by
    funext i
    simp only [setState, OrdMap.find_modify]
    by_cases hi : i = id
    · simp only [if_pos hi, Option.map_map]
      rfl
    · simp only [if_neg hi]
  simp only [setState, OrdMap.modify, ResourceRegistry.mk.injEq, OrdMap.mk.injEq, true_and]
  exact hfind

/-- A file with a size exists. -/
theorem fsExists_of_fsFileSize (disk : ClientDisk) (p : Bytes) (n : Int)
    (h : fsFileSize disk p = some n) : fsExists disk p = true := by
  rcases Option.map_eq_some_iff.mp h with ⟨c, hc, _⟩
  exact disk.occupied_of_content _ c hc

/-- The shared half of a load attempt and a reload: from `loading`, the check
    decides between `loaded` and `failed`. -/
theorem validateAndMarkLoaded_spec (r : ResourceRegistry) (disk : ClientDisk) (id : Bytes)
    (entry : ResourceEntry) (hs : r.stateOf id = some .loading)
    (he : r.entryOf id = some entry) :
    (r.validateAndMarkLoaded disk id entry).2 = r.passesCheck disk id ∧
      SameEntries r (r.validateAndMarkLoaded disk id entry).1 ∧
      ∀ i, (r.validateAndMarkLoaded disk id entry).1.stateOf i
        = if i = id then some (if r.passesCheck disk id then .loaded else .failed)
          else r.stateOf i := by
  have hfail := fun error => r.stateOf_transitionTo id .loading .failed error hs rfl
  have hload := r.stateOf_transitionTo id .loading .loaded [] hs rfl
  have hsame := r.sameEntries_transitionTo id
  cases hsize : fsFileSize disk (joinPath r.resourcesDir entry.path) with
  | none =>
      -- No size: missing or not a file, and either way it fails.
      have hcheck : r.passesCheck disk id = false := by
        simp only [passesCheck, he, hsize]
      rw [hcheck]
      simp only [validateAndMarkLoaded, hsize, Bool.false_eq_true, if_false]
      split
      · exact ⟨rfl, hsame .failed _, (hfail _).2⟩
      · exact ⟨rfl, hsame .failed _, (hfail _).2⟩
  | some size =>
      have hex := fsExists_of_fsFileSize disk _ size hsize
      simp only [validateAndMarkLoaded, hsize, hex, Bool.not_true, Bool.false_eq_true, if_false]
      by_cases hbad : entry.size > 0 ∧ size ≠ entry.size
      · have hcheck : r.passesCheck disk id = false := by
          simp only [passesCheck, he, hsize, hbad.1, hbad.2, ne_eq, not_false_eq_true,
            decide_true, Bool.and_self, Bool.not_true]
        rw [hcheck, if_pos hbad]
        exact ⟨rfl, hsame .failed _, (hfail _).2⟩
      · have hcheck : r.passesCheck disk id = true := by
          simp only [passesCheck, he, hsize]
          rw [Bool.not_eq_true', ← Bool.decide_and, decide_eq_false_iff_not]
          exact hbad
        rw [hcheck, if_neg hbad]
        exact ⟨rfl, hsame .loaded _, hload.2⟩

/-- From `loading`, the check loads the record or fails it. -/
theorem validateAndMarkLoaded_eq (r : ResourceRegistry) (disk : ClientDisk) (id : Bytes)
    (entry : ResourceEntry) (hs : r.stateOf id = some .loading) :
    r.validateAndMarkLoaded disk id entry = (r.setState id .loaded [], true) ∨
      ∃ error, r.validateAndMarkLoaded disk id entry = (r.setState id .failed error, false) := by
  have hload := r.transitionTo_eq id .loading .loaded [] hs rfl
  have hfail := fun error => r.transitionTo_eq id .loading .failed error hs rfl
  simp only [validateAndMarkLoaded, hload, hfail]
  split
  · exact Or.inr ⟨_, rfl⟩
  · split
    · exact Or.inr ⟨_, rfl⟩
    · split
      · exact Or.inr ⟨_, rfl⟩
      · exact Or.inl rfl

theorem loadOne_spec (r : ResourceRegistry) (disk : ClientDisk) (id : Bytes)
    (hs : r.stateOf id = some .cached) :
    (r.loadOne disk id).2 = r.passesCheck disk id ∧
      SameEntries r (r.loadOne disk id).1 ∧
      ∀ i, (r.loadOne disk id).1.stateOf i
        = if i = id then some (if r.passesCheck disk id then .loaded else .failed)
          else r.stateOf i := by
  rcases r.find_of_stateOf id .cached hs with ⟨record, hf, _⟩
  have ht := r.stateOf_transitionTo id .cached .loading [] hs rfl
  have hsame := r.sameEntries_transitionTo id .loading []
  -- The transition to `loading` succeeds, so the check runs on an unchanged entry.
  have hs' : (r.transitionTo id .loading []).1.stateOf id = some .loading := by
    rw [ht.2 id, if_pos rfl]
  have he' : (r.transitionTo id .loading []).1.entryOf id = some record.entry := by
    rw [hsame.entry id, r.entryOf_eq_some id record hf]
  rcases validateAndMarkLoaded_spec _ disk id record.entry hs' he' with ⟨h2, h1, hst⟩
  simp only [loadOne, hf, ht.1, if_true]
  refine ⟨?_, hsame.trans h1, fun i => ?_⟩
  · rw [h2, hsame.passesCheck_eq]
  · rw [hst i, hsame.passesCheck_eq, ht.2 i]
    by_cases hi : i = id
    · rw [if_pos hi, if_pos hi]
    · rw [if_neg hi, if_neg hi, if_neg hi]

/-- The states after one visit of Kahn's loop. -/
theorem stateOf_attempt (disk : ClientDisk) (id : Bytes) (l : Load)
    (hs : l.1.stateOf id = some .cached) :
    SameEntries l.1 (attempt disk id l).1 ∧
      ∀ i, (attempt disk id l).1.stateOf i
        = if i = id then some (if l.1.passesCheck disk id then .loaded else .failed)
          else l.1.stateOf i := by
  rcases l.1.loadOne_spec disk id hs with ⟨_, hsame, hst⟩
  rw [attempt]
  split
  · exact ⟨hsame, hst⟩
  · exact ⟨hsame, hst⟩

/-- Attempting every record of a list once: each is decided by its own check. -/
theorem stateOf_foldl_attempt (disk : ClientDisk) (ids : List Bytes) (l : Load)
    (hnd : ids.Nodup) (hs : ∀ i ∈ ids, l.1.stateOf i = some .cached) :
    SameEntries l.1 (ids.foldl (fun acc id => attempt disk id acc) l).1 ∧
      ∀ i, (ids.foldl (fun acc id => attempt disk id acc) l).1.stateOf i
        = if i ∈ ids then some (if l.1.passesCheck disk i then .loaded else .failed)
          else l.1.stateOf i := by
  induction ids generalizing l with
  | nil =>
      refine ⟨SameEntries.refl _, fun i => ?_⟩
      rw [if_neg List.not_mem_nil, List.foldl_nil]
  | cons id ids ih =>
      rcases List.nodup_cons.mp hnd with ⟨hid, hnd⟩
      rcases stateOf_attempt disk id l (hs id List.mem_cons_self) with ⟨hsame, hst⟩
      -- An attempt leaves the records still to come cached.
      have hs' : ∀ i ∈ ids, (attempt disk id l).1.stateOf i = some .cached := by
        intro i hi
        rw [hst i, if_neg (fun h : i = id => hid (h ▸ hi))]
        exact hs i (List.mem_cons_of_mem id hi)
      rcases ih (attempt disk id l) hnd hs' with ⟨hsame', hst'⟩
      refine ⟨hsame.trans hsame', fun i => ?_⟩
      rw [List.foldl_cons, hst' i, hsame.passesCheck_eq, hst i]
      by_cases hi : i = id
      · subst hi
        rw [if_neg hid, if_pos rfl, if_pos List.mem_cons_self]
      · rw [if_neg hi]
        simp only [List.mem_cons, hi, false_or]

/-- The final sweep fails the nodes that were never attempted. -/
theorem stateOf_foldl_sweep (processed ids : List Bytes) (l : Load) (hnd : ids.Nodup)
    (hs : ∀ i ∈ ids, i ∉ processed → l.1.stateOf i = some .cached) :
    SameEntries l.1 (ids.foldl (sweepOne processed) l).1 ∧
      ∀ i, (ids.foldl (sweepOne processed) l).1.stateOf i
        = if i ∈ ids ∧ i ∉ processed then some .failed else l.1.stateOf i := by
  induction ids generalizing l with
  | nil =>
      refine ⟨SameEntries.refl _, fun i => ?_⟩
      rw [if_neg (fun h => List.not_mem_nil h.1), List.foldl_nil]
  | cons id ids ih =>
      rcases List.nodup_cons.mp hnd with ⟨hid, hnd⟩
      -- A node that was attempted is passed over.
      by_cases hp : id ∈ processed
      · have hskip : sweepOne processed l id = l := by
          rw [sweepOne, if_pos (List.contains_iff_mem.mpr hp)]
        rw [List.foldl_cons, hskip]
        rcases ih l hnd (fun i hi => hs i (List.mem_cons_of_mem id hi)) with ⟨hsame, hst⟩
        refine ⟨hsame, fun i => ?_⟩
        rw [hst i]
        by_cases hi : i = id
        · subst hi
          rw [if_neg (fun h => h.2 hp), if_neg (fun h => h.2 hp)]
        · simp only [List.mem_cons, hi, false_or]
      · have ht := l.1.stateOf_transitionTo id .cached .failed (ascii "circular dependency")
          (hs id List.mem_cons_self hp) rfl
        have hsame := l.1.sameEntries_transitionTo id .failed (ascii "circular dependency")
        have hone : (sweepOne processed l id).1
            = (l.1.transitionTo id .failed (ascii "circular dependency")).1 := by
          rw [sweepOne, if_neg (fun h => hp (List.contains_iff_mem.mp h))]
        rw [← hone] at ht hsame
        -- The nodes still to come are not this one, so they are as they were.
        have hs' : ∀ i ∈ ids, i ∉ processed →
            (sweepOne processed l id).1.stateOf i = some .cached := by
          intro i hi hip
          rw [ht.2 i, if_neg (fun h : i = id => hid (h ▸ hi))]
          exact hs i (List.mem_cons_of_mem id hi) hip
        rcases ih (sweepOne processed l id) hnd hs' with ⟨hsame', hst'⟩
        refine ⟨hsame.trans hsame', fun i => ?_⟩
        rw [List.foldl_cons, hst' i, ht.2 i]
        by_cases hi : i = id
        · subst hi
          rw [if_neg (fun h => hid h.1), if_pos rfl, if_pos ⟨List.mem_cons_self, hp⟩]
        · rw [if_neg hi]
          simp only [List.mem_cons, hi, false_or]

end ResourceRegistry

end MzzPlork
