import MzzPlork.Base.Run
import MzzPlork.Core.ResourceManager
import MzzPlork.Theory.Accounting
import MzzPlork.Theory.Cached

/-!
# Outcomes and Lifecycle

Where a manifest leaves its records, and where the calls after it take them.

The loop over a manifest's entries ignores whether its transitions are
accepted, so with repeated ids it asks for some that are not in the table. The
table makes up for it: a record that is cached refuses to be downloaded or
cached again and stays what it is, and one that has failed refuses everything.
What a record ends up as is then a fold over the outcomes of its own entries
(`advance`), pending turning into cached at the first success and anything
turning into failed at the first failure.

Behind the manifest no call leaves a record in a state it passes through.
`Resting` names the states a record can be left in.

## Main definitions

* `fetched`: Whether an entry matched the local file or was downloaded.
* `outcomes`: The entries of a manifest with what came of each.
* `Resting`: The states a record is left in.

## Theorems

* `stateOf_applyEntry`: One entry advances its own record.
* `stateOf_applyEntries`: The loop advances each record by its own outcomes.
* `lifecycle_cases`: What one call does to a record's state.
* `attributed_applyManifest`: The whole manifest, and the calls after it.
-/

namespace MzzPlork

namespace ResourceManager

open Http ResourceRegistry

/-- The entry matched the local file, or was downloaded successfully. -/
def fetched (env : Env) (origin : Origin) (s : Applied) (entry : ResourceEntry) : Bool :=
  localFileMatches env s.world (targetPath s.registry.resourcesDir entry) entry ||
    match (downloadAndVerify env (requestFor origin s.registry.resourcesDir entry) s.world).2 with
    | some result => result.ok
    | none => false

/-- The entries of a manifest, each with what came of it. -/
def outcomes (env : Env) (origin : Origin) : List ResourceEntry → Applied →
    List (ResourceEntry × Bool)
  | [], _ => []
  | entry :: entries, s =>
    (entry, fetched env origin s entry) ::
      outcomes env origin entries (applyEntry env origin s entry).1

/-- A record before its entries, between two of them or behind the last. -/
def Between (s : ResourceState) : Prop := s = .pending ∨ s = .cached ∨ s = .failed

/-- How the outcome of an entry moves the state of its record. -/
def advance (s : ResourceState) (ok : Bool) : ResourceState :=
  if ok then (if s = .pending then .cached else s) else .failed

theorem Between.advance {s : ResourceState} (h : Between s) (ok : Bool) :
    Between (advance s ok) := by
  rcases h with rfl | rfl | rfl <;> cases ok <;>
    simp [Between, ResourceManager.advance]

section Loop

variable (env : Env) (origin : Origin)

/-- One entry advances its own record and leaves the others alone. -/
theorem stateOf_applyEntry (s : Applied) (entry : ResourceEntry) (st : ResourceState)
    (hthrough : (applyEntry env origin s entry).2 = true) (hb : Between st)
    (hs : s.registry.stateOf entry.id = some st) :
    (applyEntry env origin s entry).1.registry.stateOf entry.id
      = some (advance st (fetched env origin s entry)) := by
  rw [applyEntry] at hthrough ⊢
  rw [fetched]
  cases hlocal : localFileMatches env s.world (targetPath s.registry.resourcesDir entry) entry with
  | true =>
      simp only [if_true, Bool.true_or]
      rw [stateOf_transitionTo_self _ _ st _ _ hs]
      rcases hb with rfl | rfl | rfl <;> rfl
  | false =>
      rw [hlocal] at hthrough
      simp only [Bool.false_eq_true, if_false, Bool.false_or] at hthrough ⊢
      have hdown := stateOf_transitionTo_self s.registry entry.id st .downloading [] hs
      -- The record is on its way while the download runs.
      cases hres : (downloadAndVerify env (requestFor origin s.registry.resourcesDir entry)
        s.world).2 with
      | none =>
          rw [hres] at hthrough
          exact Bool.noConfusion hthrough
      | some result =>
          simp only []
          cases hok : result.ok with
          | true =>
              simp only [if_true]
              rw [stateOf_transitionTo_self _ _ _ _ _
                (stateOf_transitionTo_self _ _ _ .verifying [] hdown)]
              rcases hb with rfl | rfl | rfl <;> rfl
          | false =>
              simp only [Bool.false_eq_true, if_false]
              rw [stateOf_transitionTo_self _ _ _ _ _ hdown]
              rcases hb with rfl | rfl | rfl <;> rfl

/-- The outcomes of one record's entries, in order. -/
def outcomesOf (id : Bytes) (l : List (ResourceEntry × Bool)) : List Bool :=
  (l.filter (fun e => e.1.id = id)).map Prod.snd

theorem mem_outcomesOf (id : Bytes) (l : List (ResourceEntry × Bool)) (ok : Bool) :
    ok ∈ outcomesOf id l ↔ ∃ e, (e, ok) ∈ l ∧ e.id = id := by
  simp only [outcomesOf, List.mem_map, List.mem_filter, decide_eq_true_eq, Prod.exists,
    exists_eq_right]

/-- The loop advances each record by the outcomes of its own entries. -/
theorem stateOf_applyEntries (entries : List ResourceEntry) (s : Applied)
    (hthrough : (applyEntries env origin entries s).2 = true) (i : Bytes) (st : ResourceState)
    (hb : Between st) (hs : s.registry.stateOf i = some st) :
    (applyEntries env origin entries s).1.registry.stateOf i
      = some ((outcomesOf i (outcomes env origin entries s)).foldl advance st) := by
  induction entries generalizing s st with
  | nil => exact hs
  | cons entry entries ih =>
      rw [applyEntries] at hthrough ⊢
      by_cases hone : (applyEntry env origin s entry).2 = true
      · rw [if_pos hone] at hthrough ⊢
        rw [outcomes, outcomesOf, List.filter_cons]
        by_cases hi : entry.id = i
        · subst hi
          have hstep := stateOf_applyEntry env origin s entry st hone hb hs
          simp only [decide_true, if_true, List.map_cons, List.foldl_cons]
          exact ih _ hthrough _ (hb.advance _) hstep
        · have hstep := (handled_applyEntry env origin s entry).1.other i (fun h => hi h.symm)
          simp only [hi, decide_false, Bool.false_eq_true, if_false]
          exact ih _ hthrough st hb (hstep.trans hs)
      · rw [if_neg hone] at hthrough
        exact absurd hthrough hone

end Loop

/-- Once a record has failed no outcome changes that. -/
theorem foldl_advance_failed (oks : List Bool) :
    oks.foldl advance .failed = .failed := by
  induction oks with
  | nil => rfl
  | cons ok oks ih => cases ok <;> exact ih

theorem foldl_advance_cached (oks : List Bool) :
    oks.foldl advance .cached = if ∀ ok ∈ oks, ok = true then .cached else .failed := by
  induction oks with
  | nil => simp only [List.foldl_nil, List.not_mem_nil, false_implies, implies_true, if_true]
  | cons ok oks ih =>
      cases ok with
      | true =>
          simp only [List.mem_cons, forall_eq_or_imp, true_and]
          exact ih
      | false =>
          simp only [List.mem_cons, forall_eq_or_imp, Bool.false_eq_true, false_and, if_false]
          exact foldl_advance_failed oks

/-- From pending, with an entry at least: cached when all went well. -/
theorem foldl_advance_pending (oks : List Bool) (hne : oks ≠ []) :
    oks.foldl advance .pending = if ∀ ok ∈ oks, ok = true then .cached else .failed := by
  cases oks with
  | nil => exact absurd rfl hne
  | cons ok oks =>
      cases ok with
      | true =>
          simp only [List.mem_cons, forall_eq_or_imp, true_and]
          exact foldl_advance_cached oks
      | false =>
          simp only [List.mem_cons, forall_eq_or_imp, Bool.false_eq_true, false_and, if_false]
          exact foldl_advance_failed oks

/-- The outcomes are about the entries of the manifest. -/
theorem map_fst_outcomes (env : Env) (origin : Origin) (entries : List ResourceEntry)
    (s : Applied) : (outcomes env origin entries s).map Prod.fst = entries := by
  induction entries generalizing s with
  | nil => rfl
  | cons entry entries ih => rw [outcomes, List.map_cons, ih]

/-- A manifest leaves a record for each of its ids, all of them pending. -/
theorem stateOf_loadManifest (r : ResourceRegistry) (entries : List ResourceEntry) (i : Bytes)
    (st : ResourceState) (h : (r.loadManifest entries).stateOf i = some st) :
    st = .pending ∧ ∃ entry ∈ entries, entry.id = i := by
  rcases find_of_stateOf _ i st h with ⟨record, hfind, rfl⟩
  rcases OrdMap.find_insertAll_cases _ _ _ _ hfind with ⟨pre, post, heq, _⟩ | ⟨hnone, _⟩
  · have hmem : (i, record) ∈ entries.map
        (fun entry => (entry.id, ResourceRecord.mk entry .pending [])) := by
      rw [heq]
      exact List.mem_append_right pre List.mem_cons_self
    rcases List.mem_map.mp hmem with ⟨entry, hentry, hpair⟩
    rcases Prod.mk.inj hpair with ⟨hid, hrecord⟩
    exact ⟨by rw [← hrecord], entry, hentry, hid⟩
  · exact absurd hnone (by simp only [OrdMap.empty, reduceCtorEq, not_false_eq_true])

/-- A state a record is left in between two calls. -/
def Resting (s : ResourceState) : Prop :=
  s = .cached ∨ s = .loaded ∨ s = .started ∨ s = .stopped ∨ s = .failed

instance (s : ResourceState) : Decidable (Resting s) := by unfold Resting; infer_instance

section Calls

variable (r : ResourceRegistry)

/-- What a call may do to a record: nothing, or take one that has not failed
    to a state it can rest in. -/
def Moved (r' : ResourceRegistry) (i : Bytes) : Prop :=
  r'.stateOf i = r.stateOf i ∨
    ∃ s s', r.stateOf i = some s ∧ s ≠ .failed ∧ r'.stateOf i = some s' ∧ Resting s'

/-- A transition to a state a record can rest in. -/
theorem moved_transitionTo (id : Bytes) (s' : ResourceState) (error : Bytes) (hs' : Resting s')
    (i : Bytes) : Moved r (r.transitionTo id s' error).1 i := by
  by_cases hi : i = id
  · subst hi
    cases hs : r.stateOf i with
    | none =>
        left
        have hsame := Option.map_eq_none_iff.mp hs
        simp only [transitionTo, hsame]
    | some s =>
        cases hv : isValidTransition s s' with
        | true =>
            refine Or.inr ⟨s, s', hs, fun hf => ?_, ?_, hs'⟩
            · rw [hf] at hv
              exact Bool.noConfusion hv
            · rw [(r.stateOf_transitionTo i s s' error hs hv).2 i, if_pos rfl]
        | false =>
            left
            rw [transitionTo_refused r i s s' error hs hv]
  · exact Or.inl (r.stateOf_transitionTo_of_ne id i s' error hi)

/-- A reload is refused, or takes a record that has been started before through
    the check of a load. -/
theorem reload_cases (disk : ClientDisk) (id : Bytes) :
    (r.reload disk id).1 = r ∨ ∃ s s' error, r.stateOf id = some s ∧ s ≠ .failed ∧ Resting s' ∧
      (r.reload disk id).1 = r.setState id s' error := by
  rw [reload]
  cases hf : r.records.find id with
  | none => exact Or.inl rfl
  | some record =>
      have hs := r.stateOf_eq_some id record hf
      simp only []
      split
      · exact Or.inl rfl
      · rename_i hstate
        have hor : record.state = .started ∨ record.state = .stopped := by
          by_contra hnot
          exact hstate (not_or.mp hnot)
        have hne : record.state ≠ .failed := by
          rcases hor with h | h <;> rw [h] <;> decide
        have hvalid : isValidTransition record.state .loading = true := by
          rcases hor with h | h <;> rw [h] <;> rfl
        rw [r.transitionTo_eq id record.state .loading [] hs hvalid]
        have hloading := r.stateOf_setState id record.state .loading [] hs
        rcases validateAndMarkLoaded_eq _ disk id record.entry hloading with
          hok | ⟨error, hbad⟩
        · rw [hok, setState_setState]
          simp only [if_true, Bool.not_true, Bool.false_eq_true, if_false]
          split
          -- A record that was started is started again.
          · have hloaded := r.stateOf_setState id record.state .loaded [] hs
            rw [transitionTo_eq _ id .loaded .started [] hloaded rfl, setState_setState]
            exact Or.inr ⟨record.state, .started, [], hs, hne, by decide, rfl⟩
          · exact Or.inr ⟨record.state, .loaded, [], hs, hne, by decide, rfl⟩
        · rw [hbad, setState_setState]
          exact Or.inr ⟨record.state, .failed, error, hs, hne, by decide, rfl⟩

/-- What one call does to a record. -/
theorem lifecycle_cases (call : LifecycleCall) (i : Bytes) : Moved r (lifecycle r call) i := by
  cases call with
  | loadAll disk =>
      have hacc := r.accounted_loadAll disk
      by_cases hc : r.stateOf i = some .cached
      · rcases hacc.decided i hc with h | h
        · exact Or.inr ⟨.cached, .loaded, hc, by decide, h, by decide⟩
        · exact Or.inr ⟨.cached, .failed, hc, by decide, h, by decide⟩
      · exact Or.inl (by rw [stateOf, stateOf, lifecycle, hacc.others i hc])
  | startResource id => exact moved_transitionTo r id .started [] (by decide) i
  | stopResource id => exact moved_transitionTo r id .stopped [] (by decide) i
  | reloadResource id disk =>
      rw [lifecycle]
      rcases reload_cases r disk id with heq | ⟨s, s', error, hs, hne, hrest, heq⟩
      · exact Or.inl (by rw [heq])
      · rw [heq]
        by_cases hi : i = id
        · subst hi
          exact Or.inr ⟨s, s', hs, hne, r.stateOf_setState i s s' error hs, hrest⟩
        · exact Or.inl (r.stateOf_setState_of_ne id i s' error hi)

end Calls

/-- Every record of the registry is in a state it can rest in. -/
def AllResting (r : ResourceRegistry) : Prop := ∀ i s, r.stateOf i = some s → Resting s

theorem allResting_lifecycle (r : ResourceRegistry) (call : LifecycleCall) (h : AllResting r) :
    AllResting (lifecycle r call) := by
  intro i s hs
  rcases lifecycle_cases r call i with heq | ⟨_, s', _, _, hs', hrest⟩
  · rw [heq] at hs
    exact h i s hs
  · rw [hs', Option.some.injEq] at hs
    exact hs ▸ hrest

theorem failed_lifecycle (i : Bytes) (r : ResourceRegistry) (call : LifecycleCall)
    (h : r.stateOf i = some .failed) : (lifecycle r call).stateOf i = some .failed := by
  rcases lifecycle_cases r call i with heq | ⟨s, _, hs, hne, _, _⟩
  · rw [heq, h]
  · rw [h, Option.some.injEq] at hs
    exact absurd hs.symm hne

/-- The entries of a manifest, with what came of each when it was applied. -/
def manifestOutcomes (env : Env) (registry : ResourceRegistry) (manifestPayload : ClientObject)
    (serverHost : Bytes) (w : World) : List (ResourceEntry × Bool) :=
  let entries := parseResourceList manifestPayload
  outcomes env ⟨serverHost, httpPortOf manifestPayload⟩ entries
    ⟨w, registry.loadManifest entries, 0, 0, 0⟩

/-- What a registry says about the outcomes of a manifest. -/
structure Attributed (l : List (ResourceEntry × Bool)) (r : ResourceRegistry) : Prop where
  settled : ∀ i s, r.stateOf i = some s → s = .cached ∨ s = .failed
  cached : ∀ i s, r.stateOf i = some s →
    (s = .cached ↔ ∀ entry ok, (entry, ok) ∈ l → entry.id = i → ok = true)

/-- The registry a manifest leaves. -/
theorem attributed_applyEntries (env : Env) (origin : Origin) (registry : ResourceRegistry)
    (entries : List ResourceEntry) (w : World)
    (hthrough : (applyEntries env origin entries
      ⟨w, registry.loadManifest entries, 0, 0, 0⟩).2 = true) :
    Attributed (outcomes env origin entries ⟨w, registry.loadManifest entries, 0, 0, 0⟩)
      (applyEntries env origin entries ⟨w, registry.loadManifest entries, 0, 0, 0⟩).1.registry := by
  generalize hstart : (⟨w, registry.loadManifest entries, 0, 0, 0⟩ : Applied) = start at *
  have hstate : ∀ i s, (applyEntries env origin entries start).1.registry.stateOf i = some s →
      s = if ∀ ok ∈ outcomesOf i (outcomes env origin entries start), ok = true
        then .cached else .failed := by
    intro i s hs
    -- A record of the registry is one of the manifest's, and pending before the loop.
    have hsame := sameEntries_applyEntries env origin entries start
    have hkey : i ∈ start.registry.records.keys := by
      rw [← hsame.keys]
      exact mem_keys_of_stateOf _ i s hs
    rcases Option.isSome_iff_exists.mp ((OrdMap.mem_keys _ i).mp hkey) with ⟨record, hfind⟩
    have hbefore := start.registry.stateOf_eq_some i record hfind
    have hpending : record.state = .pending ∧ ∃ entry ∈ entries, entry.id = i := by
      rw [← hstart] at hbefore
      exact stateOf_loadManifest registry entries i _ hbefore
    rcases hpending with ⟨hst, entry, hentry, hid⟩
    have hrun := stateOf_applyEntries env origin entries start hthrough i record.state
      (Or.inl hst) hbefore
    rw [hs, hst, Option.some.injEq] at hrun
    rw [hrun]
    refine foldl_advance_pending _ (fun hnil => ?_)
    rw [← map_fst_outcomes env origin entries start] at hentry
    rcases List.mem_map.mp hentry with ⟨⟨e, ok⟩, hmem, rfl⟩
    have hok := (mem_outcomesOf i _ ok).mpr ⟨e, hmem, hid⟩
    rw [hnil] at hok
    exact List.not_mem_nil hok
  have hall : ∀ i, (∀ ok ∈ outcomesOf i (outcomes env origin entries start), ok = true) ↔
      ∀ entry ok, (entry, ok) ∈ outcomes env origin entries start → entry.id = i → ok = true := by
    intro i
    constructor
    · exact fun h entry ok hmem hid => h ok ((mem_outcomesOf i _ ok).mpr ⟨entry, hmem, hid⟩)
    · intro h ok hok
      rcases (mem_outcomesOf i _ ok).mp hok with ⟨entry, hmem, hid⟩
      exact h entry ok hmem hid
  refine ⟨fun i s hs => ?_, fun i s hs => ?_⟩
  · rw [hstate i s hs]
    split
    · exact Or.inl rfl
    · exact Or.inr rfl
  · rw [hstate i s hs, ← hall i]
    split
    · rename_i h
      exact iff_of_true rfl h
    · rename_i h
      exact iff_of_false (by simp only [reduceCtorEq, not_false_eq_true]) h

/-- Every entry of a manifest has a record when the loop is done. -/
theorem recorded_applyEntries (env : Env) (origin : Origin) (registry : ResourceRegistry)
    (entries : List ResourceEntry) (w : World) (entry : ResourceEntry) (hmem : entry ∈ entries) :
    ∃ s, (applyEntries env origin entries
      ⟨w, registry.loadManifest entries, 0, 0, 0⟩).1.registry.stateOf entry.id = some s := by
  have hsame := sameEntries_applyEntries env origin entries
    ⟨w, registry.loadManifest entries, 0, 0, 0⟩
  have hkey : entry.id ∈ (registry.loadManifest entries).records.keys := by
    refine (OrdMap.mem_keys _ _).mpr (OrdMap.isSome_find_insertAll _ _ _ (Or.inr ?_))
    rw [List.map_map]
    exact List.mem_map.mpr ⟨entry, hmem, rfl⟩
  rw [← hsame.keys] at hkey
  rcases Option.isSome_iff_exists.mp ((OrdMap.mem_keys _ _).mp hkey) with ⟨record, hfind⟩
  exact ⟨record.state, stateOf_eq_some _ _ record hfind⟩

/-- After a manifest that was applied each of its entries has a record, and
    every record is cached or failed, cached exactly when all entries with its
    id matched or were downloaded. No call that follows leaves a record anywhere
    but at rest, and what has failed stays so. -/
theorem attributed_applyManifest (env : Env) (registry : Option ResourceRegistry)
    (manifestPayload : ClientObject) (serverHost : Bytes) (w : World) (result : ServiceResult)
    (hresult : (applyManifest env registry manifestPayload serverHost w).2.2 = some result)
    (hok : result.status = .ok) :
    ∃ r r', registry = some r ∧
      (applyManifest env registry manifestPayload serverHost w).2.1 = some r' ∧
      (∀ entry ∈ parseResourceList manifestPayload, ∃ s, r'.stateOf entry.id = some s) ∧
      Attributed (manifestOutcomes env r manifestPayload serverHost w) r' ∧
      ∀ calls : List LifecycleCall, AllResting (calls.foldl lifecycle r') ∧
        ∀ i, (calls.foldl lifecycle r').stateOf i = some .failed →
          ∀ more : List LifecycleCall,
            ((calls ++ more).foldl lifecycle r').stateOf i = some .failed := by
  cases registry with
  | none =>
      rw [applyManifest, Option.some.injEq] at hresult
      rw [← hresult] at hok
      exact absurd hok (by simp only [reduceCtorEq, not_false_eq_true])
  | some r =>
      simp only [applyManifest] at hresult ⊢
      by_cases hport : httpPortOf manifestPayload = 0
      · rw [if_pos hport, Option.some.injEq] at hresult
        rw [← hresult] at hok
        exact absurd hok (by simp only [reduceCtorEq, not_false_eq_true])
      rw [if_neg hport] at hresult ⊢
      -- The result is one only if no download was cut off by an exception.
      have hthrough : (applyEntries env ⟨serverHost, httpPortOf manifestPayload⟩
          (parseResourceList manifestPayload)
          ⟨w, r.loadManifest (parseResourceList manifestPayload), 0, 0, 0⟩).2 = true := by
        by_contra hthrown
        rw [if_neg hthrown] at hresult
        exact absurd hresult (by simp only [reduceCtorEq, not_false_eq_true])
      have hattr := attributed_applyEntries env _ r _ w hthrough
      refine ⟨r, _, rfl, rfl, recorded_applyEntries env _ r _ w, hattr,
        fun calls => ⟨?_, fun i hi more => ?_⟩⟩
      · refine Run.foldl_inv lifecycle AllResting allResting_lifecycle calls _ (fun i s hs => ?_)
        rcases hattr.settled i s hs with rfl | rfl <;> decide
      · rw [List.foldl_append]
        exact Run.foldl_inv lifecycle (fun r => r.stateOf i = some .failed) (failed_lifecycle i)
          more _ hi

/-- The manifest of one letter, applied and followed by some calls. -/
theorem attributed_bareManifest : ∃ r r',
    some (⟨ascii "C:\\r", OrdMap.empty⟩ : ResourceRegistry) = some r ∧
      (applyLetters bareManifest).2.1 = some r' ∧
      (∀ entry ∈ parseResourceList bareManifest, ∃ s, r'.stateOf entry.id = some s) ∧
      Attributed (manifestOutcomes (letterEnv letterServer) r bareManifest (ascii "localhost")
        ⟨Disk.bare, []⟩) r' ∧
      ∀ calls : List LifecycleCall, AllResting (calls.foldl lifecycle r') ∧
        ∀ i, (calls.foldl lifecycle r').stateOf i = some .failed →
          ∀ more : List LifecycleCall,
            ((calls ++ more).foldl lifecycle r').stateOf i = some .failed :=
  attributed_applyManifest (letterEnv letterServer) _ bareManifest (ascii "localhost")
    ⟨Disk.bare, []⟩ ⟨.ok, ascii "resources: 1 downloaded, 0 unchanged, 0 failed, 1 total"⟩
    (by decide) rfl

end ResourceManager

end MzzPlork
