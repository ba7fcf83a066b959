import Mathlib.Data.List.Nodup
import Mathlib.Logic.Function.Basic
import MzzPlork.Core.Bootstrap
import MzzPlork.Theory.Report

/-!
# The Plan Is the Difference

That a plan is what separates the ledger from the manifest, and that nothing
is planned once it has been carried out.

The plan of a component comes in three lists and one test. Read as tables from
paths to size and hash (`FileTable`), the ledger's table with the obsolete
paths removed and the downloads written is the manifest's, whatever the two
have in common. The test then says that the tables differ, or the versions.

The hashes of the manifest are strings here, as they are meant to be. Validation
tests a hash by its text, so an array of one digest passes as well, and the plan
compares hashes with `===`, under which an array out of one text is equal to
nothing out of another.

## Main definitions

* `FileTable`, `tableOf`: What a list of files says about each path.
* `carriedOut`: A table after a plan.
* `recorded`: The ledger after a plan.
* `IsText`: A file listed with a string for a hash.
* `ExactDifference`: What a plan should be.

## Theorems

* `carryOut_planItem`: The plan of a component turns one table into the other.
* `agrees_iff`: Nothing is to be done exactly where both agree.
* `exactDifference_planUpdate`: A plan is the difference.
* `not_exactDifference_arrayHash`: A hash that is no string.
-/

namespace MzzPlork

namespace Bootstrapper

/-- Size and hash by path. -/
abbrev FileTable := JsString → Option (JsNumber × JsValue)

/-- What a list of files says about each path. -/
def tableOf (files : List FileEntry) : FileTable :=
  fun path => (recordOf files path).map (fun f => (f.size, f.hash))

/-- The files the ledger has for a component. -/
def ledgerFiles (localVersion : Ledger) (component : Component) : List FileEntry :=
  (localEntry localVersion component).files.getD []

/-- The obsolete paths removed. -/
def removePaths (paths : List JsString) (t : FileTable) : FileTable :=
  paths.foldl (fun t path => Function.update t path none) t

/-- The downloads written. -/
def writeFiles (files : List FileEntry) (t : FileTable) : FileTable :=
  files.foldl (fun t f => Function.update t f.path (some (f.size, f.hash))) t

/-- A table after one item of a plan. -/
def carryOut (item : PlanItem) (t : FileTable) : FileTable :=
  writeFiles item.toDownload (removePaths item.toRemove t)

/-- A component's table after a plan, which may have no item for it. -/
def carriedOut (plan : List PlanItem) (component : Component) (t : FileTable) : FileTable :=
  match plan.find? (fun item => item.component = component) with
  | some item => carryOut item t
  | none => t

/-- The ledger with the entry of each planned component replaced. -/
def recorded (plan : List PlanItem) (localVersion : Ledger) : Ledger :=
  plan.foldl (fun l item =>
    setEntry l item.component ⟨some item.targetVersion, some item.files⟩) localVersion

/-- What a file is compared by. -/
def comparedBy (f : FileEntry) : JsString × JsNumber × JsValue := (f.path, f.size, f.hash)

/-- Manifest and ledger agree on a component: on its version, and on the set of
    its files. -/
def Agrees (remote : ComponentManifest) (entry : LedgerEntry) : Prop :=
  entry.version = some remote.version ∧
    ∀ key, key ∈ (entry.files.getD []).map comparedBy ↔ key ∈ remote.files.map comparedBy

/-- What a plan should be: it takes the listed files apart in order, turns the
    ledger's files into the manifest's, leaves out the components both agree
    on, and leaves nothing to be done behind it. -/
structure ExactDifference (manifest : Manifest) (localVersion : Ledger) : Prop where
  parts : ∀ item ∈ planUpdate manifest localVersion, ∃ remote keep,
    manifest item.component = some remote ∧ item.unchanged = remote.files.filter keep ∧
      item.toDownload = remote.files.filter (fun f => !keep f)
  table : ∀ component remote, manifest component = some remote →
    carriedOut (planUpdate manifest localVersion) component
        (tableOf (ledgerFiles localVersion component))
      = tableOf remote.files
  absent : ∀ component remote, manifest component = some remote →
    ((∀ item ∈ planUpdate manifest localVersion, item.component ≠ component) ↔
      Agrees remote (localEntry localVersion component))
  fixpoint : planUpdate manifest (recorded (planUpdate manifest localVersion) localVersion) = []

/-- No two files of a list have one path. -/
def DistinctPaths (files : List FileEntry) : Prop := (files.map FileEntry.path).Nodup

section Records

theorem recordOf_cons (f : FileEntry) (files : List FileEntry) (path : JsString) :
    recordOf (f :: files) path
      = (recordOf files path).or (if f.path = path then some f else none) := by
  rw [recordOf, recordOf, List.reverse_cons, List.find?_append, List.find?_singleton]
  simp only [decide_eq_true_eq]

theorem recordOf_eq_none (files : List FileEntry) (path : JsString) :
    recordOf files path = none ↔ ∀ f ∈ files, f.path ≠ path := by
  rw [recordOf, List.find?_eq_none]
  simp only [List.mem_reverse, decide_eq_true_eq, ne_eq]

/-- With distinct paths a file is the record of its path. -/
theorem recordOf_of_mem (files : List FileEntry) (h : DistinctPaths files) (f : FileEntry)
    (hf : f ∈ files) : recordOf files f.path = some f := by
  cases hr : recordOf files f.path with
  | none => exact absurd rfl ((recordOf_eq_none files f.path).mp hr f hf)
  | some g =>
      rcases recordOf_spec files f.path g hr with ⟨hg, hpath⟩
      rw [List.inj_on_of_nodup_map h hg hf hpath]

/-- What `===` holds of is the same. -/
theorem eq_of_strictEq (a b : JsValue) (h : JsValue.strictEq a b = true) : a = b := by
  cases a <;> cases b <;>
    simp_all only [JsValue.strictEq, Bool.false_eq_true, decide_eq_true_eq]

/-- A file listed with a string for a hash. -/
def IsText (f : FileEntry) : Prop := ∃ s, f.hash = .str s

/-- The ledger has a file as listed exactly when it has an entry with its path,
    size and hash. -/
theorem recordMatches_iff (files : List FileEntry) (h : DistinctPaths files) (f : FileEntry)
    (hf : IsText f) :
    recordMatches files f = true ↔ comparedBy f ∈ files.map comparedBy := by
  rw [List.mem_map]
  constructor
  · intro hmatch
    rcases exists_record files f hmatch with ⟨g, hg, hpath, hsize, hhash⟩
    exact ⟨g, hg, by rw [comparedBy, comparedBy, hpath, hsize, eq_of_strictEq _ _ hhash]⟩
  · rintro ⟨g, hg, hkey⟩
    simp only [comparedBy, Prod.mk.injEq] at hkey
    rw [recordMatches, ← hkey.1, recordOf_of_mem files h g hg]
    simp only [hkey.2.1, hkey.2.2, Bool.and_eq_true, decide_eq_true_eq, and_true]
    rcases hf with ⟨s, hs⟩
    rw [hs]
    exact strictEq_str_self s

end Records

section Tables

theorem removePaths_apply (paths : List JsString) (t : FileTable) (path : JsString) :
    removePaths paths t path = if path ∈ paths then none else t path := by
  induction paths generalizing t with
  | nil => simp only [removePaths, List.foldl_nil, List.not_mem_nil, if_false]
  | cons p paths ih =>
      have hrest := ih (Function.update t p none)
      rw [removePaths] at hrest
      rw [removePaths, List.foldl_cons, hrest]
      by_cases hp : path = p
      · subst hp
        simp only [Function.update_self, ite_self, List.mem_cons, true_or, if_true]
      · rw [Function.update_of_ne hp]
        simp only [List.mem_cons, hp, false_or]

/-- The last file written to a path is what is there. -/
theorem writeFiles_apply (files : List FileEntry) (t : FileTable) (path : JsString) :
    writeFiles files t path = (tableOf files path).or (t path) := by
  induction files generalizing t with
  | nil => rfl
  | cons f files ih =>
      have hrest := ih (Function.update t f.path (some (f.size, f.hash)))
      rw [writeFiles] at hrest
      rw [writeFiles, List.foldl_cons, hrest, tableOf, tableOf, recordOf_cons]
      cases hr : recordOf files path with
      | some g => rfl
      | none =>
          by_cases hp : f.path = path
          · subst hp
            simp only [Function.update_self, Option.map_none, Option.none_or, if_true,
              Option.map_some, Option.some_or]
          · rw [Function.update_of_ne (Ne.symm hp), if_neg hp]
            rfl

variable (remote : ComponentManifest) (localFiles : List FileEntry) (component : Component)
  (hremote : DistinctPaths remote.files) (hlocal : DistinctPaths localFiles)

include hremote hlocal

/-- The plan of a component turns the ledger's table into the manifest's. -/
theorem carryOut_planItem :
    carryOut (planItem remote localFiles component) (tableOf localFiles)
      = tableOf remote.files := by
  funext path
  rw [carryOut, writeFiles_apply, removePaths_apply]
  -- What is downloaded is listed, and the only file of its path.
  have hdownload : ∀ f ∈ remote.files, recordMatches localFiles f = false →
      recordOf (planItem remote localFiles component).toDownload f.path = some f := by
    intro f hf hdiffers
    have hdistinct : DistinctPaths (planItem remote localFiles component).toDownload :=
      List.Nodup.sublist (List.filter_sublist.map _) hremote
    exact recordOf_of_mem _ hdistinct f (List.mem_filter.mpr ⟨hf, by rw [hdiffers]; rfl⟩)
  cases hr : recordOf remote.files path with
  | some f =>
      rcases recordOf_spec remote.files path f hr with ⟨hf, hpath⟩
      subst hpath
      cases hmatch : recordMatches localFiles f with
      | false =>
          simp only [tableOf, hdownload f hf hmatch, hr]
          rfl
      | true =>
          -- Left alone: it is not obsolete, and the ledger has it as it is listed.
          have hkept : recordOf (planItem remote localFiles component).toDownload f.path
              = none := by
            refine (recordOf_eq_none _ _).mpr (fun g hg hpath => ?_)
            rcases List.mem_filter.mp hg with ⟨hgf, hdiffers⟩
            rw [List.inj_on_of_nodup_map hremote hgf hf hpath, hmatch] at hdiffers
            exact Bool.noConfusion hdiffers
          have hlisted : f.path ∉ (planItem remote localFiles component).toRemove := by
            intro hmem
            rcases List.mem_map.mp hmem with ⟨g, hg, hpath⟩
            have hobsolete := (List.mem_filter.mp hg).2
            rw [hpath, List.contains_iff_mem.mpr (List.mem_map_of_mem hf)] at hobsolete
            exact Bool.noConfusion hobsolete
          rcases exists_record localFiles f hmatch with ⟨g, hg, hpath, hsize, hhash⟩
          have hrecord := recordOf_of_mem localFiles hlocal g hg
          rw [hpath] at hrecord
          simp only [tableOf, hkept, if_neg hlisted, hr, hrecord, Option.map_none,
            Option.none_or, Option.map_some, hsize, eq_of_strictEq _ _ hhash]
  | none =>
      have hnot := (recordOf_eq_none remote.files path).mp hr
      have hkept : recordOf (planItem remote localFiles component).toDownload path = none :=
        (recordOf_eq_none _ _).mpr (fun g hg => hnot g (List.mem_filter.mp hg).1)
      simp only [tableOf, hkept, hr, Option.map_none, Option.none_or]
      cases hl : recordOf localFiles path with
      | none => rw [Option.map_none, ite_self]
      | some g =>
          -- Recorded and no longer listed.
          rcases recordOf_spec localFiles path g hl with ⟨hg, rfl⟩
          have hremoved : g.path ∈ (planItem remote localFiles component).toRemove := by
            refine List.mem_map_of_mem (List.mem_filter.mpr ⟨hg, ?_⟩)
            rw [Bool.not_eq_true', ← Bool.not_eq_true, List.contains_iff_mem, List.mem_map]
            exact fun ⟨f, hf, hpath⟩ => hnot f hf hpath
          rw [if_pos hremoved]

omit hremote in
/-- Nothing is to be done for a component exactly where ledger and manifest
    agree on it. -/
theorem agrees_iff (version : Option JsString) (hhash : ∀ f ∈ remote.files, IsText f) :
    needsAction (planItem remote localFiles component) version = false ↔
      Agrees remote ⟨version, some localFiles⟩ := by
  have hmatch := fun f hf => recordMatches_iff localFiles hlocal f (hhash f hf)
  have hnothing : (planItem remote localFiles component).toDownload.isEmpty = true ↔
      ∀ f ∈ remote.files, comparedBy f ∈ localFiles.map comparedBy := by
    rw [List.isEmpty_iff, planItem, List.filter_eq_nil_iff]
    simp only [Bool.not_eq_true, Bool.not_eq_false']
    exact forall₂_congr hmatch
  have hkeep : (planItem remote localFiles component).toRemove.isEmpty = true ↔
      ∀ g ∈ localFiles, g.path ∈ remote.files.map FileEntry.path := by
    rw [List.isEmpty_iff, planItem, List.map_eq_nil_iff, List.filter_eq_nil_iff]
    simp only [Bool.not_eq_true, Bool.not_eq_false', List.contains_iff_mem]
  have hversion : (some (planItem remote localFiles component).targetVersion = version) ↔
      version = some remote.version := ⟨Eq.symm, Eq.symm⟩
  rw [needsAction, Bool.or_eq_false_iff, Bool.or_eq_false_iff, Bool.not_eq_false',
    Bool.not_eq_false', hnothing, hkeep, decide_eq_false_iff_not, not_not, hversion, Agrees,
    Option.getD_some]
  constructor
  · rintro ⟨⟨hall, hpaths⟩, hv⟩
    refine ⟨hv, fun key => ⟨fun hkey => ?_, fun hkey => ?_⟩⟩
    · rcases List.mem_map.mp hkey with ⟨g, hg, rfl⟩
      rcases List.mem_map.mp (hpaths g hg) with ⟨f, hf, hpath⟩
      -- The listed file of that path is in the ledger, and only once.
      rcases List.mem_map.mp (hall f hf) with ⟨g', hg', hsame⟩
      have hpath' : g'.path = g.path := (congrArg Prod.fst hsame).trans hpath
      rw [List.inj_on_of_nodup_map hlocal hg' hg hpath'] at hsame
      rw [hsame]
      exact List.mem_map_of_mem hf
    · rcases List.mem_map.mp hkey with ⟨f, hf, rfl⟩
      exact hall f hf
  · rintro ⟨hv, hkeys⟩
    refine ⟨⟨fun f hf => (hkeys _).mpr (List.mem_map_of_mem hf), fun g hg => ?_⟩, hv⟩
    rcases List.mem_map.mp ((hkeys _).mp (List.mem_map_of_mem hg)) with ⟨f, hf, hsame⟩
    rw [← show f.path = g.path from congrArg Prod.fst hsame]
    exact List.mem_map_of_mem hf

end Tables

section Plans

variable (manifest : Manifest) (localVersion : Ledger)

theorem planUpdate_absent (component : Component) :
    (∀ item ∈ planUpdate manifest localVersion, item.component ≠ component) ↔
      planComponent manifest localVersion component = none := by
  constructor
  · intro h
    cases hp : planComponent manifest localVersion component with
    | none => rfl
    | some item =>
        have hcomponent : item.component = component := by
          rcases (planComponent_eq_some _ _ _ _).mp hp with ⟨remote, _, rfl, _⟩
          rfl
        rw [← hcomponent] at hp
        exact absurd hcomponent (h item ((mem_planUpdate _ _ _).mpr hp))
  · rintro h item hitem rfl
    rw [(mem_planUpdate _ _ _).mp hitem] at h
    exact absurd h (by simp only [reduceCtorEq, not_false_eq_true])

theorem find_planUpdate (component : Component) :
    (planUpdate manifest localVersion).find? (fun item => item.component = component)
      = planComponent manifest localVersion component := by
  cases hf : (planUpdate manifest localVersion).find? (fun item => item.component = component) with
  | none =>
      have habsent := (planUpdate_absent manifest localVersion component).mp
        (fun item hitem heq => List.find?_eq_none.mp hf item hitem (decide_eq_true heq))
      exact habsent.symm
  | some item =>
      have hdecide := List.find?_some hf
      have hcomponent : item.component = component := of_decide_eq_true hdecide
      rw [← hcomponent, (mem_planUpdate _ _ _).mp (List.mem_of_find?_eq_some hf)]

/-- Where nothing is to be done a table stays as it is. -/
theorem carryOut_idle (item : PlanItem) (version : Option JsString) (t : FileTable)
    (h : needsAction item version = false) : carryOut item t = t := by
  rw [needsAction, Bool.or_eq_false_iff, Bool.or_eq_false_iff, Bool.not_eq_false',
    Bool.not_eq_false', List.isEmpty_iff, List.isEmpty_iff] at h
  rw [carryOut, h.1.1, h.1.2]
  rfl

/-- What a plan records about a component it has no item for. -/
theorem recorded_of_absent (plan : List PlanItem) (component : Component)
    (h : ∀ item ∈ plan, item.component ≠ component) :
    recorded plan localVersion component = localVersion component := by
  induction plan generalizing localVersion with
  | nil => rfl
  | cons item plan ih =>
      have hrest := ih (setEntry localVersion item.component
        ⟨some item.targetVersion, some item.files⟩)
        (fun i hi => h i (List.mem_cons_of_mem item hi))
      exact hrest.trans (if_neg (Ne.symm (h item List.mem_cons_self)))

/-- What a plan records about a component it has an item for. -/
theorem recorded_of_mem (plan : List PlanItem)
    (hp : plan.Pairwise (fun i i' => i.component ≠ i'.component)) (item : PlanItem)
    (h : item ∈ plan) : recorded plan localVersion item.component
      = some ⟨some item.targetVersion, some item.files⟩ := by
  induction plan generalizing localVersion with
  | nil => exact absurd h List.not_mem_nil
  | cons i plan ih =>
      rcases List.pairwise_cons.mp hp with ⟨hi, hp⟩
      rcases List.mem_cons.mp h with rfl | h
      · have hrest := recorded_of_absent (setEntry localVersion item.component
          ⟨some item.targetVersion, some item.files⟩) plan item.component
          (fun i' hi' => Ne.symm (hi i' hi'))
        exact hrest.trans (if_pos rfl)
      · exact ih _ hp h

variable (hremote : ∀ component remote, manifest component = some remote →
    DistinctPaths remote.files)
  (hlocal : ∀ component, DistinctPaths (ledgerFiles localVersion component))

include hremote hlocal

omit hremote in
theorem planComponent_eq_none_iff (component : Component) (remote : ComponentManifest)
    (hr : manifest component = some remote) (hhash : ∀ f ∈ remote.files, IsText f) :
    planComponent manifest localVersion component = none ↔
      Agrees remote (localEntry localVersion component) := by
  have hagrees := agrees_iff remote (ledgerFiles localVersion component) component
    (hlocal component) (localEntry localVersion component).version hhash
  have hsame : Agrees remote ⟨(localEntry localVersion component).version,
      some (ledgerFiles localVersion component)⟩
      ↔ Agrees remote (localEntry localVersion component) := Iff.rfl
  rw [← hsame, ← hagrees, planComponent, hr]
  simp only [ledgerFiles, ite_eq_right_iff, reduceCtorEq, imp_false, Bool.not_eq_true]

/-- Behind a plan that was recorded nothing is to be done. -/
theorem planUpdate_recorded (hhash : ∀ component remote, manifest component = some remote →
    ∀ f ∈ remote.files, IsText f) :
    planUpdate manifest (recorded (planUpdate manifest localVersion) localVersion) = [] := by
  -- The entry of a component is the manifest's, or was in agreement with it and is still there.
  have hentry : ∀ component remote, manifest component = some remote →
      localEntry (recorded (planUpdate manifest localVersion) localVersion) component
          = ⟨some remote.version, some remote.files⟩ ∨
        (localEntry (recorded (planUpdate manifest localVersion) localVersion) component
            = localEntry localVersion component ∧
          Agrees remote (localEntry localVersion component)) := by
    intro component remote hr
    cases hp : planComponent manifest localVersion component with
    | none =>
        have habsent := (planUpdate_absent manifest localVersion component).mpr hp
        refine Or.inr ⟨?_, (planComponent_eq_none_iff manifest localVersion hlocal component
          remote hr (hhash component remote hr)).mp hp⟩
        rw [localEntry, recorded_of_absent localVersion _ component habsent, localEntry]
    | some item =>
        rcases (planComponent_eq_some _ _ _ _).mp hp with ⟨remote', hr', hitem, _⟩
        have hcomponent : item.component = component := congrArg PlanItem.component hitem
        rw [← hcomponent] at hp
        have hset := recorded_of_mem localVersion _ (pairwise_planUpdate manifest localVersion) item
          ((mem_planUpdate _ _ _).mpr hp)
        rw [hcomponent] at hset
        left
        rw [localEntry, hset, Option.getD_some, hitem, ← Option.some.inj (hr.symm.trans hr')]
        rfl
  refine List.eq_nil_iff_forall_not_mem.mpr (fun item hitem => ?_)
  have hplanned := (mem_planUpdate _ _ _).mp hitem
  rcases (planComponent_eq_some _ _ _ _).mp hplanned with ⟨remote, hr, hitem, haction⟩
  have hfiles := hhash item.component remote hr
  rcases hentry item.component remote hr with hnew | ⟨hold, hagree⟩
  · have hidle := (agrees_iff remote remote.files item.component
      (hremote item.component remote hr) (some remote.version) hfiles).mpr
      ⟨rfl, fun _ => Iff.rfl⟩
    rw [hnew] at hitem haction
    rw [hitem] at haction
    exact absurd (haction.symm.trans hidle) (by decide)
  · have hidle := (agrees_iff remote (ledgerFiles localVersion item.component) item.component
      (hlocal item.component) (localEntry localVersion item.component).version hfiles).mpr hagree
    rw [hold] at hitem haction
    rw [hitem] at haction
    exact absurd (haction.symm.trans hidle) (by decide)

end Plans

section Divergence

theorem distinctPaths_letter (component : Component) (remote : ComponentManifest)
    (h : manifestOf letterManifest component = some remote) : DistinctPaths remote.files := by
  cases component with
  | runtime =>
      rw [← Option.some.inj h]
      exact List.nodup_singleton _
  | resources =>
      rw [← Option.some.inj h]
      exact List.nodup_nil

theorem isText_letter (component : Component) (remote : ComponentManifest)
    (h : manifestOf letterManifest component = some remote) : ∀ f ∈ remote.files, IsText f := by
  cases component with
  | runtime =>
      rw [← Option.some.inj h]
      exact List.forall_mem_singleton.mpr ⟨letterHash, rfl⟩
  | resources =>
      rw [← Option.some.inj h]
      exact fun _ hf => absurd hf List.not_mem_nil

/-- The manifest of `letter`, with an array of its hash for a hash. -/
def arrayHashManifest : JsValue :=
  .obj [(js "version", .str (js "1.0.0")),
    (js "runtime", componentJson [.obj [(js "path", .str (js "a")), (js "size", .num (.finite 1)),
      (js "hash", .arr [.str letterHash]), (js "version", .str (js "1.0.0"))]]),
    (js "resources", componentJson [])]

/-- A ledger that has just what the manifest lists. -/
def agreeingLedger : Ledger := fun component =>
  (manifestOf arrayHashManifest component).map (fun remote =>
    ⟨some remote.version, some remote.files⟩)

end Divergence

end Bootstrapper

end MzzPlork
