import MzzPlork.Base.Run
import MzzPlork.Core.Bootstrap
import MzzPlork.Theory.Blocked
import MzzPlork.Theory.Plan

/-!
# Whether the Ledger Records What Was Installed

Run after run, `version.json` should have for each component what the last
update that was reported ok has installed for it.

The entries are changed in memory, one result after the other, and written once
behind the loop. A first installation returns from inside the loop when the
runtime is given up, and the runtime's result comes first. So resources that
were installed in the same run are not recorded, and the next run plans as if
they were not there. In every other run the ledger is right.

## Main definitions

* `reportOf`: What the update of a run reports.
* `reportedOk`: The entries a report makes for what is ok in it.
* `bootStep`: A run, next to what has been reported ok so far.
* `Recorded`: A ledger that has what has been reported.
* `Unrecorded`: The runs that install something without recording it.

## Theorems

* `recordResults_eq`: The loop over the results.
* `versionFile_runBootstrapper`: What a run makes of the ledger.
* `unrecorded_iff`: The runs that go wrong, by what can be downloaded.
* `recorded_iff`: The runs along which the ledger is right.
* `not_recorded_runtimeRefused`: An installation that is not recorded.
-/

namespace MzzPlork

namespace Bootstrapper

/-- The entries that the results which are ok put in a ledger. -/
def reportedOk : List ComponentResult → Ledger → Ledger
  | [], ledger => ledger
  | .ok component targetVersion files _ _ _ :: results, ledger =>
    reportedOk results (setEntry ledger component ⟨some targetVersion, some files⟩)
  | .failed _ _ :: results, ledger => reportedOk results ledger

/-- What the update of a run reports: nothing, if there is none or it rejects. -/
def reportOf (env : NodeEnv) (config : Config) (reply : ManifestReply) (w : BootWorld) :
    List ComponentResult :=
  let made := ensureAppData config.appDataRoot w.node.disk
  let localVersion := readVersion w.versionFile
  if made.2 then
    match fetchStage env.fmt reply
      (determineInstallState config.appDataRoot localVersion made.1) with
    | .manifest manifest =>
      (applyUpdate env config.install (planUpdate manifest localVersion)
        { w.node with disk := made.1 }).2.getD []
    | _ => []
  else []

/-- A first installation whose runtime is given up. -/
def GivenUp (state : InstallState) (results : List ComponentResult) : Prop :=
  state = .firstInstall ∧ ∃ failure, .failed .runtime failure ∈ results

section Results

variable (state : InstallState)

theorem givenUp_cons_ok (component : Component) (targetVersion : JsString)
    (files : List FileEntry) (downloaded removed unchanged : List JsString)
    (results : List ComponentResult) :
    GivenUp state (.ok component targetVersion files downloaded removed unchanged :: results) ↔
      GivenUp state results := by
  simp only [GivenUp, List.mem_cons, reduceCtorEq, false_or]

theorem givenUp_cons_failed (component : Component) (failure : Failure)
    (results : List ComponentResult) :
    GivenUp state (.failed component failure :: results) ↔
      state = .firstInstall ∧ component = .runtime ∨ GivenUp state results := by
  simp only [GivenUp, List.mem_cons, ComponentResult.failed.injEq, exists_or]
  constructor
  · rintro ⟨hstate, ⟨_, hruntime, _⟩ | hrest⟩
    · exact Or.inl ⟨hstate, hruntime.symm⟩
    · exact Or.inr ⟨hstate, hrest⟩
  · rintro (⟨hstate, hruntime⟩ | ⟨hstate, hrest⟩)
    · exact ⟨hstate, Or.inl ⟨failure, hruntime.symm, rfl⟩⟩
    · exact ⟨hstate, Or.inr hrest⟩

/-- The loop over the results records all that is ok, or is left in the middle. -/
theorem recordResults_eq (results : List ComponentResult) (ledger : Ledger) :
    (GivenUp state results → ∃ error, recordResults state results ledger = .error error) ∧
      (¬ GivenUp state results →
        recordResults state results ledger = .ok (reportedOk results ledger)) := by
  induction results generalizing ledger with
  | nil => exact ⟨fun h => absurd h.2.choose_spec List.not_mem_nil, fun _ => rfl⟩
  | cons result results ih =>
      cases result with
      | ok component targetVersion files downloaded removed unchanged =>
          rw [givenUp_cons_ok, recordResults, reportedOk]
          exact ih _
      | failed component failure =>
          rw [givenUp_cons_failed, recordResults, reportedOk]
          by_cases hhere : state = .firstInstall ∧ component = .runtime
          · rw [if_pos hhere]
            exact ⟨fun _ => ⟨_, rfl⟩, fun h => absurd (Or.inl hhere) h⟩
          · rw [if_neg hhere, or_iff_right hhere]
            exact ih ledger

end Results

section Run

theorem readVersion_of_eq (versionFile : Option Ledger) (ledger : Ledger)
    (h : versionFile = some ledger) : readVersion versionFile = ledger := by
  rw [h]
  rfl

variable (env : NodeEnv) (config : Config)

/-- The update stage, by what the update reports. -/
theorem updateStage_of_report (state : InstallState) (manifest : Manifest) (ledger : Ledger)
    (w : BootWorld) (hw : w.versionFile = some ledger) (results : List ComponentResult)
    (h : (applyUpdate env config.install (planUpdate manifest ledger) w.node).2
      = some results) :
    (GivenUp state results →
      (∃ result, (updateStage env config state manifest ledger w).2 = .returns result) ∧
      (updateStage env config state manifest ledger w).1.versionFile = some ledger) ∧
    (¬ GivenUp state results → (updateStage env config state manifest ledger w).1.versionFile
      = some (reportedOk results ledger)) := by
  rcases recordResults_eq state results ledger with ⟨hgiven, hrecorded⟩
  rw [updateStage]
  simp only [h]
  by_cases hempty : (planUpdate manifest ledger).isEmpty = true
  -- Without a plan there is nothing to report.
  · rw [List.isEmpty_iff.mp hempty, applyUpdate, Option.some.injEq] at h
    rw [if_pos hempty, ← h]
    exact ⟨fun hg => absurd hg.2.choose_spec List.not_mem_nil, fun _ => hw⟩
  · rw [if_neg hempty]
    refine ⟨fun hg => ?_, fun hg => ?_⟩
    · rcases hgiven hg with ⟨error, herror⟩
      simp only [herror]
      exact ⟨⟨_, rfl⟩, hw⟩
    · simp only [hrecorded hg]
      split
      · rfl
      · split
        · rfl
        · split <;> rfl

/-- The update stage of an update that rejects. -/
theorem updateStage_of_none (state : InstallState) (manifest : Manifest) (ledger : Ledger)
    (w : BootWorld)
    (h : (applyUpdate env config.install (planUpdate manifest ledger) w.node).2 = none) :
    (updateStage env config state manifest ledger w).1.versionFile = w.versionFile := by
  rw [updateStage]
  simp only [h]
  split <;> rfl

variable (reply : ManifestReply) (w : BootWorld)

/-- What a run makes of the ledger: it records what is reported ok, unless it is
    a first installation that is given up. Such a run returns with the ledger
    it has read. No run returns without a ledger. -/
theorem versionFile_runBootstrapper :
    ((runBootstrapper env config reply w).2.isSome = true →
      (runBootstrapper env config reply w).1.versionFile.isSome = true) ∧
    (GivenUp (determineInstallState config.appDataRoot (readVersion w.versionFile)
        (ensureAppData config.appDataRoot w.node.disk).1) (reportOf env config reply w) →
      (runBootstrapper env config reply w).2.isSome = true ∧
      readVersion (runBootstrapper env config reply w).1.versionFile
        = readVersion w.versionFile) ∧
    (¬ GivenUp (determineInstallState config.appDataRoot (readVersion w.versionFile)
        (ensureAppData config.appDataRoot w.node.disk).1) (reportOf env config reply w) →
      readVersion (runBootstrapper env config reply w).1.versionFile
        = reportedOk (reportOf env config reply w) (readVersion w.versionFile)) := by
  have hnothing : ∀ state, ¬ GivenUp state [] := fun _ h =>
    absurd h.2.choose_spec List.not_mem_nil
  rw [runBootstrapper, reportOf]
  simp only []
  by_cases hmade : (ensureAppData config.appDataRoot w.node.disk).2 = true
  swap
  · simp only [if_neg hmade]
    exact ⟨fun h => Bool.noConfusion h, fun h => absurd h (hnothing _), fun _ => rfl⟩
  simp only [if_pos hmade]
  generalize determineInstallState config.appDataRoot (readVersion w.versionFile)
    (ensureAppData config.appDataRoot w.node.disk).1 = state
  cases hfetched : fetchStage env.fmt reply state with
  | stop error => exact ⟨fun _ => rfl, fun h => absurd h (hnothing _), fun _ => rfl⟩
  | nothing => exact ⟨fun _ => rfl, fun h => absurd h (hnothing _), fun _ => rfl⟩
  | unreadable => exact ⟨fun _ => rfl, fun h => absurd h (hnothing _), fun _ => rfl⟩
  | manifest manifest =>
      have hupdate := updateStage_of_report env config state manifest (readVersion w.versionFile)
        ⟨⟨(ensureAppData config.appDataRoot w.node.disk).1, w.node.requests⟩,
          some (readVersion w.versionFile)⟩ rfl
      have hnone := updateStage_of_none env config state manifest (readVersion w.versionFile)
        ⟨⟨(ensureAppData config.appDataRoot w.node.disk).1, w.node.requests⟩,
          some (readVersion w.versionFile)⟩
      simp only [] at hupdate hnone ⊢
      generalize (applyUpdate env config.install (planUpdate manifest (readVersion w.versionFile))
        ⟨(ensureAppData config.appDataRoot w.node.disk).1, w.node.requests⟩).2 = report at *
      generalize updateStage env config state manifest (readVersion w.versionFile)
        ⟨⟨(ensureAppData config.appDataRoot w.node.disk).1, w.node.requests⟩,
          some (readVersion w.versionFile)⟩ = updated at *
      -- However the stage ends, the run leaves the world as the stage does.
      cases report with
      | none =>
          refine ⟨fun _ => ?_, fun h => absurd h (hnothing _), fun _ => ?_⟩
          · rcases updated with ⟨left, _ | _ | _⟩ <;> exact Option.isSome_of_eq_some (hnone rfl)
          · rcases updated with ⟨left, _ | _ | _⟩ <;> exact readVersion_of_eq _ _ (hnone rfl)
      | some results =>
          rcases hupdate results rfl with ⟨hgiven, hrecorded⟩
          refine ⟨fun _ => ?_, fun hg => ?_, fun hg => ?_⟩
          · have hsome : updated.1.versionFile.isSome = true := by
              by_cases hg : GivenUp state results
              · exact Option.isSome_of_eq_some (hgiven hg).2
              · exact Option.isSome_of_eq_some (hrecorded hg)
            rcases updated with ⟨left, _ | _ | _⟩ <;> exact hsome
          · rcases hgiven hg with ⟨⟨result, hresult⟩, hkept⟩
            simp only [hresult]
            exact ⟨rfl, readVersion_of_eq _ _ hkept⟩
          · rcases updated with ⟨left, _ | _ | _⟩ <;> exact readVersion_of_eq _ _ (hrecorded hg)

end Run

section Update

variable (env : NodeEnv) (install : Install)

theorem planUpdate_eq (manifest : Manifest) (ledger : Ledger) : planUpdate manifest ledger
    = (planComponent manifest ledger .runtime).toList
      ++ (planComponent manifest ledger .resources).toList := by
  rw [planUpdate, components, List.filterMap_cons, List.filterMap_cons, List.filterMap_nil]
  cases planComponent manifest ledger .runtime <;>
    cases planComponent manifest ledger .resources <;> rfl

theorem component_of_planned (manifest : Manifest) (ledger : Ledger) (component : Component)
    (item : PlanItem) (h : planComponent manifest ledger component = some item) :
    item.component = component := by
  rcases (planComponent_eq_some _ _ _ _).mp h with ⟨_, _, hitem, _⟩
  rw [hitem]
  rfl

theorem setEntry_eq_self (ledger : Ledger) (component : Component) (entry : LedgerEntry) :
    setEntry ledger component entry = ledger ↔ ledger component = some entry := by
  constructor
  · intro h
    rw [← h]
    exact if_pos rfl
  · intro h
    funext c
    rw [setEntry]
    split
    · rename_i hc
      rw [hc, h]
    · rfl

/-- An item that is given up is reported failed, and the update goes on. -/
theorem applyUpdate_of_refused (item : PlanItem) (plan : List PlanItem) (w : NodeWorld)
    (failure : Failure) (h : (stageItem env install item w).2 = .error (some failure)) :
    (applyUpdate env install (item :: plan) w).2
      = (applyUpdate env install plan (stageItem env install item w).1).2.map
        (fun results => .failed item.component failure :: results) := by
  have hone := applyItem_of_error env install item w (some failure) h
  rw [applyUpdate_of_some env install item plan w _ (congrArg Prod.snd hone), hone]

/-- Of one item, only its own component is reported failed. -/
theorem component_of_singleton (item : PlanItem) (w : NodeWorld) (results : List ComponentResult)
    (h : (applyUpdate env install [item] w).2 = some results) (component : Component)
    (failure : Failure) (hmem : .failed component failure ∈ results) :
    item.component = component := by
  rw [applyUpdate_singleton] at h
  rcases Option.map_eq_some_iff.mp h with ⟨result, hone, rfl⟩
  rw [← List.mem_singleton.mp hmem] at hone
  exact (component_of_failed env install item w component failure hone).symm

/-- When an update reports its first item failed, and behind it something that
    the ledger does not have. -/
theorem refused_cons_iff (ledger : Ledger) (runtime : PlanItem)
    (hruntime : runtime.component = .runtime) (plan : List PlanItem)
    (hplan : ∀ w results failure, (applyUpdate env install plan w).2 = some results →
      .failed .runtime failure ∉ results) (w : NodeWorld) :
    (∃ results, (applyUpdate env install (runtime :: plan) w).2 = some results ∧
      (∃ failure, .failed .runtime failure ∈ results) ∧ reportedOk results ledger ≠ ledger) ↔
    (∃ failure, (stageItem env install runtime w).2 = .error (some failure)) ∧
      ∃ results, (applyUpdate env install plan (stageItem env install runtime w).1).2
        = some results ∧ reportedOk results ledger ≠ ledger := by
  constructor
  · rintro ⟨results, hresults, ⟨failure, hmem⟩, hne⟩
    rcases results_of_cons env install runtime plan w results hresults with
      ⟨result, rest, rfl, hone, hrest, _⟩
    rcases List.mem_cons.mp hmem with rfl | hlater
    · have hfailure := (stageItem_of_failed env install runtime w .runtime failure hone).1
      rw [applyItem_of_error env install runtime w _ hfailure] at hrest
      exact ⟨⟨failure, hfailure⟩, rest, hrest, hne⟩
    · exact absurd hlater (hplan _ rest failure hrest)
  · rintro ⟨⟨failure, hfailure⟩, results, hresults, hne⟩
    refine ⟨.failed .runtime failure :: results, ?_, ⟨failure, List.mem_cons_self⟩, hne⟩
    rw [applyUpdate_of_refused env install runtime plan w failure hfailure, hresults, hruntime]
    rfl

/-- When a single item is reported to be what the ledger does not have. -/
theorem reported_singleton_iff (ledger : Ledger) (item : PlanItem) (w : NodeWorld) :
    (∃ results, (applyUpdate env install [item] w).2 = some results ∧
      reportedOk results ledger ≠ ledger) ↔
    (∃ ss, (stageItem env install item w).2 = .ok ss) ∧ Unblocked env install item w ∧
      ledger item.component ≠ some ⟨some item.targetVersion, some item.files⟩ := by
  rw [applyUpdate_singleton]
  rcases applyItem_cases env install item w with
    ⟨failure, hfailure, hone⟩ | ⟨hpending, hone⟩ | ⟨ss, hss, hblocked, hone⟩ |
      ⟨ss, hss, hfree, _, _, _, hone⟩
  · refine iff_of_false ?_ (fun h => ?_)
    · rintro ⟨results, hresults, hne⟩
      rw [hone] at hresults
      rw [← Option.some.inj hresults] at hne
      exact hne rfl
    · rcases h.1 with ⟨ss, hss⟩
      exact absurd (hfailure.symm.trans hss) (by simp only [reduceCtorEq, not_false_eq_true])
  · refine iff_of_false ?_ (fun h => ?_)
    · rintro ⟨results, hresults, _⟩
      rw [hone] at hresults
      exact absurd hresults (by simp only [Option.map_none, reduceCtorEq, not_false_eq_true])
    · rcases h.1 with ⟨ss, hss⟩
      exact absurd (hpending.symm.trans hss) (by simp only [reduceCtorEq, not_false_eq_true])
  · refine iff_of_false ?_ (fun h => hblocked h.2.1)
    rintro ⟨results, hresults, _⟩
    rw [hone] at hresults
    exact absurd hresults (by simp only [Option.map_none, reduceCtorEq, not_false_eq_true])
  · rw [hone]
    simp only [Option.map_some, Option.some.injEq, exists_eq_left', reportedOk, ne_eq,
      setEntry_eq_self]
    exact ⟨fun h => ⟨⟨ss, hss⟩, hfree, h⟩, fun h => h.2.2⟩

/-- When an update reports the runtime failed, and something else that the ledger
    does not have. -/
theorem refused_iff (manifest : Manifest) (ledger : Ledger) (w : NodeWorld) :
    (∃ results, (applyUpdate env install (planUpdate manifest ledger) w).2 = some results ∧
      (∃ failure, .failed .runtime failure ∈ results) ∧ reportedOk results ledger ≠ ledger) ↔
    ∃ runtime resources, planComponent manifest ledger .runtime = some runtime ∧
      planComponent manifest ledger .resources = some resources ∧
      (∃ failure, (stageItem env install runtime w).2 = .error (some failure)) ∧
      (∃ ss, (stageItem env install resources (stageItem env install runtime w).1).2 = .ok ss) ∧
      Unblocked env install resources (stageItem env install runtime w).1 ∧
      ledger .resources ≠ some ⟨some resources.targetVersion, some resources.files⟩ := by
  rw [planUpdate_eq]
  have hcomponent := component_of_planned manifest ledger
  -- What is planned for the resources is never reported as the runtime.
  have hother : ∀ w results failure, (applyUpdate env install
      (planComponent manifest ledger .resources).toList w).2 = some results →
      .failed .runtime failure ∉ results := by
    intro w results failure hresults hmem
    cases hres : planComponent manifest ledger .resources with
    | none =>
        rw [hres] at hresults
        rw [← Option.some.inj hresults] at hmem
        exact absurd hmem List.not_mem_nil
    | some resources =>
        rw [hres] at hresults
        have heq := component_of_singleton env install resources w results hresults _ failure hmem
        exact absurd ((hcomponent .resources resources hres).symm.trans heq) (by decide)
  cases hrt : planComponent manifest ledger .runtime with
  | none =>
      refine iff_of_false ?_ (fun h => ?_)
      · rintro ⟨results, hresults, ⟨failure, hmem⟩, _⟩
        exact hother w results failure hresults hmem
      · rcases h with ⟨_, _, hsome, _⟩
        exact absurd hsome (by simp only [reduceCtorEq, not_false_eq_true])
  | some runtime =>
      rw [Option.toList_some, List.singleton_append, refused_cons_iff env install ledger runtime
        (hcomponent .runtime runtime hrt) _ hother w]
      simp only [Option.some.injEq, exists_eq_left', exists_and_left]
      cases hres : planComponent manifest ledger .resources with
      | none =>
          refine iff_of_false ?_ (fun h => ?_)
          · rintro ⟨_, results, hresults, hne⟩
            rw [← Option.some.inj hresults] at hne
            exact hne rfl
          · rcases h with ⟨_, hsome, _⟩
            exact absurd hsome (by simp only [reduceCtorEq, not_false_eq_true])
      | some resources =>
          have hreported := reported_singleton_iff env install ledger resources
            (stageItem env install runtime w).1
          rw [hcomponent .resources resources hres] at hreported
          simp only [Option.some.injEq, exists_eq_left']
          exact and_congr_right (fun _ => hreported)

end Update

section Runs

variable (env : NodeEnv) (config : Config) (reply : ManifestReply)

/-- What the update of a run starts from. -/
abbrev startOf (w : BootWorld) : NodeWorld :=
  ⟨(ensureAppData config.appDataRoot w.node.disk).1, w.node.requests⟩

/-- The runs that install something without recording it: first installations
    whose runtime cannot be staged, and whose resources can, and be moved into
    place, for an entry that the ledger does not have. -/
def Unrecorded (w : BootWorld) : Prop :=
  (ensureAppData config.appDataRoot w.node.disk).2 = true ∧
  determineInstallState config.appDataRoot (readVersion w.versionFile)
    (ensureAppData config.appDataRoot w.node.disk).1 = .firstInstall ∧
  ∃ manifest, fetchStage env.fmt reply .firstInstall = .manifest manifest ∧
    ∃ runtime resources,
      planComponent manifest (readVersion w.versionFile) .runtime = some runtime ∧
      planComponent manifest (readVersion w.versionFile) .resources = some resources ∧
      (∃ failure, (stageItem env config.install runtime (startOf config w)).2
        = .error (some failure)) ∧
      (∃ ss, (stageItem env config.install resources
        (stageItem env config.install runtime (startOf config w)).1).2 = .ok ss) ∧
      Unblocked env config.install resources
        (stageItem env config.install runtime (startOf config w)).1 ∧
      readVersion w.versionFile .resources
        ≠ some ⟨some resources.targetVersion, some resources.files⟩

/-- These are the ones that are given up with something in the report that the
    ledger does not have. -/
theorem unrecorded_iff (w : BootWorld) : Unrecorded env config reply w ↔
    GivenUp (determineInstallState config.appDataRoot (readVersion w.versionFile)
      (ensureAppData config.appDataRoot w.node.disk).1) (reportOf env config reply w) ∧
    reportedOk (reportOf env config reply w) (readVersion w.versionFile)
      ≠ readVersion w.versionFile := by
  have hrefused := fun manifest => refused_iff env config.install manifest
    (readVersion w.versionFile) (startOf config w)
  rw [Unrecorded, reportOf]
  simp only [← hrefused]
  by_cases hmade : (ensureAppData config.appDataRoot w.node.disk).2 = true
  swap
  · -- Without its directories a run stops before it reads the ledger.
    rw [if_neg hmade]
    exact iff_of_false (fun h => hmade h.1) (fun h => h.2 rfl)
  rw [if_pos hmade]
  by_cases hstate : determineInstallState config.appDataRoot (readVersion w.versionFile)
      (ensureAppData config.appDataRoot w.node.disk).1 = .firstInstall
  swap
  · exact iff_of_false (fun h => hstate h.2.1) (fun h => hstate h.1.1)
  rw [hstate]
  -- Only a manifest leads to an update and to a report.
  cases hfetched : fetchStage env.fmt reply .firstInstall with
  | stop error => exact iff_of_false (by simp only [reduceCtorEq, false_and, exists_false,
      and_false, not_false_eq_true]) (fun h => h.2 rfl)
  | nothing => exact iff_of_false (by simp only [reduceCtorEq, false_and, exists_false,
      and_false, not_false_eq_true]) (fun h => h.2 rfl)
  | unreadable => exact iff_of_false (by simp only [reduceCtorEq, false_and, exists_false,
      and_false, not_false_eq_true]) (fun h => h.2 rfl)
  | manifest manifest =>
      simp only [hmade, true_and, Fetched.manifest.injEq, exists_eq_left', GivenUp]
      cases hreport : (applyUpdate env config.install
          (planUpdate manifest (readVersion w.versionFile)) (startOf config w)).2 with
      | none => exact iff_of_false (fun h => absurd h.choose_spec.1
          (by simp only [reduceCtorEq, not_false_eq_true])) (fun h => h.2 rfl)
      | some results =>
          simp only [Option.some.injEq, exists_eq_left', Option.getD_some]

end Runs

section Observation

/-- What one run meets: the network and the machine as they are then, where it
    downloads from, and what the request for the manifest brings. -/
structure BootRun where
  env : NodeEnv
  downloadBaseUrl : JsString
  reply : ManifestReply

/-- The world, and for each component the entry of the last update that was
    reported ok. -/
structure Observed where
  world : BootWorld
  reported : Ledger

/-- A ledger file that has what has been reported. -/
def Recorded (s : Observed) : Prop :=
  ∃ ledger, s.world.versionFile = some ledger ∧ ∀ component, ledger component = s.reported component

variable (appDataRoot : JsLoc) (absolute : appDataRoot ≠ [])

/-- All runs install to one place. -/
def BootRun.config (run : BootRun) : Config := ⟨appDataRoot, absolute, run.downloadBaseUrl⟩

/-- One run, observed. -/
def bootStep (s : Observed) (run : BootRun) : Observed where
  world := (runBootstrapper run.env (run.config appDataRoot absolute) run.reply s.world).1
  reported := reportedOk (reportOf run.env (run.config appDataRoot absolute) run.reply s.world)
    s.reported

/-- One run keeps the ledger in step with what is reported, unless it installs
    something without recording it. -/
theorem bootStep_spec (s : Observed) (run : BootRun)
    (h : readVersion s.world.versionFile = s.reported) :
    (readVersion (bootStep appDataRoot absolute s run).world.versionFile
        = (bootStep appDataRoot absolute s run).reported ↔
      ¬ Unrecorded run.env (run.config appDataRoot absolute) run.reply s.world) ∧
    (Unrecorded run.env (run.config appDataRoot absolute) run.reply s.world →
      (runBootstrapper run.env (run.config appDataRoot absolute) run.reply s.world).2.isSome
        = true) := by
  rcases versionFile_runBootstrapper run.env (run.config appDataRoot absolute) run.reply s.world
    with ⟨_, hgiven, hrecorded⟩
  rw [unrecorded_iff]
  simp only [bootStep, ← h]
  refine ⟨?_, fun hun => (hgiven hun.1).1⟩
  by_cases hg : GivenUp (determineInstallState (run.config appDataRoot absolute).appDataRoot
      (readVersion s.world.versionFile)
      (ensureAppData (run.config appDataRoot absolute).appDataRoot s.world.node.disk).1)
      (reportOf run.env (run.config appDataRoot absolute) run.reply s.world)
  · rw [(hgiven hg).2, and_iff_right hg, ne_eq, not_not]
    exact eq_comm
  · exact iff_of_true (hrecorded hg) (fun hc => hg hc.1)

/-- The runs along which `version.json` is right after each run that returns:
    those in which no run installs something without recording it. -/
theorem recorded_iff (w : BootWorld) (runs : List BootRun) :
    Run.EachStep (bootStep appDataRoot absolute)
      (fun s run => (runBootstrapper run.env (run.config appDataRoot absolute) run.reply
        s.world).2.isSome = true → Recorded (bootStep appDataRoot absolute s run))
      ⟨w, readVersion w.versionFile⟩ runs ↔
    Run.EachStep (bootStep appDataRoot absolute)
      (fun s run => ¬ Unrecorded run.env (run.config appDataRoot absolute) run.reply s.world)
      ⟨w, readVersion w.versionFile⟩ runs := by
  refine Run.eachStep_iff_of_kept (bootStep appDataRoot absolute)
    (fun s => readVersion s.world.versionFile = s.reported) _ _ (fun s run h hC => ?_)
    (fun s run h => ?_) runs ⟨w, readVersion w.versionFile⟩ rfl
  · exact (bootStep_spec appDataRoot absolute s run h).1.mpr hC
  · rcases bootStep_spec appDataRoot absolute s run h with ⟨hright, hreturns⟩
    have hfile := (versionFile_runBootstrapper run.env (run.config appDataRoot absolute) run.reply
      s.world).1
    constructor
    · intro hC hun
      rcases hC (hreturns hun) with ⟨ledger, hledger, hsame⟩
      refine hright.mp ?_ hun
      rw [readVersion_of_eq _ _ hledger]
      exact funext hsame
    · intro hun hsome
      rcases Option.isSome_iff_exists.mp (hfile hsome) with ⟨ledger, hledger⟩
      have hread := (readVersion_of_eq _ _ hledger).symm.trans (hright.mpr hun)
      exact ⟨ledger, hledger, congrFun hread⟩

end Observation

section Divergence

/-- One file, whose SHA-256 is written out. -/
def oneFile : JsValue :=
  .obj [(js "path", .str (js "a")), (js "size", .num (.finite 1)),
    (js "hash", .str (js "ca978112ca1bbdcafac231b39a23dc4da786eff8147c4e72b9807785afee48bb")),
    (js "version", .str (js "1.0.0"))]

/-- A manifest with the file for both components. -/
def twofoldManifest : JsValue :=
  .obj [(js "version", .str (js "1.0.0")),
    (js "runtime", .obj [(js "version", .str (js "1.0.0")), (js "files", .arr [oneFile])]),
    (js "resources", .obj [(js "version", .str (js "1.0.0")), (js "files", .arr [oneFile])])]

/-- The first run, with a server that has the resources only. -/
def runtimeRefused : BootRun where
  env := { sha256Hex := fun _ =>
             js "ca978112ca1bbdcafac231b39a23dc4da786eff8147c4e72b9807785afee48bb"
           canGet := fun _ => true
           server := fun requests =>
             match requests.getLast? with
             | some ⟨url, _⟩ =>
               if url = js "http://localhost/resources/a" then .response 200 none [97] none
               else .response 404 none [] none
             | none => .failed []
           fsMessage := fun _ _ _ => []
           dirSize := fun _ => 0
           cwd := fun _ => []
           fmt := fun _ => [] }
  downloadBaseUrl := js "http://localhost"
  reply := .response 200 (.ok twofoldManifest)

/-- The first run, with a server that has both files. -/
def bothServed : BootRun :=
  { runtimeRefused with
    env := { runtimeRefused.env with server := fun _ => .response 200 none [97] none } }

/-- Both components are recorded. -/
theorem recorded_bothServed :
    Run.EachStep (bootStep [js "C:", js "MzzPlork"] (List.cons_ne_nil _ _))
      (fun s run => (runBootstrapper run.env
        (run.config [js "C:", js "MzzPlork"] (List.cons_ne_nil _ _)) run.reply
        s.world).2.isSome = true →
          Recorded (bootStep [js "C:", js "MzzPlork"] (List.cons_ne_nil _ _) s run))
      ⟨⟨⟨Disk.bare, []⟩, none⟩, readVersion none⟩ [bothServed] := by
  refine (recorded_iff [js "C:", js "MzzPlork"] (List.cons_ne_nil _ _) ⟨⟨Disk.bare, []⟩, none⟩
    [bothServed]).mpr ((Run.eachStep_cons _ _ _ _ _).mpr ⟨?_, Run.eachStep_nil _ _ _⟩)
  intro hun
  rcases (unrecorded_iff _ _ _ _).mp hun with ⟨⟨_, failure, hmem⟩, _⟩
  have hall : (reportOf bothServed.env (bothServed.config [js "C:", js "MzzPlork"]
      (List.cons_ne_nil _ _)) bothServed.reply ⟨⟨Disk.bare, []⟩, none⟩).all
        ComponentResult.isOk = true := by decide +kernel
  exact Bool.noConfusion (List.all_eq_true.mp hall _ hmem)

/-- The resources are in place, and the ledger says that nothing is. -/
theorem not_recorded_runtimeRefused :
    ¬ ∀ (appDataRoot : JsLoc) (absolute : appDataRoot ≠ []) (w : BootWorld)
      (runs : List BootRun), Run.EachStep (bootStep appDataRoot absolute)
        (fun s run => (runBootstrapper run.env (run.config appDataRoot absolute) run.reply
          s.world).2.isSome = true → Recorded (bootStep appDataRoot absolute s run))
        ⟨w, readVersion w.versionFile⟩ runs := by
  intro h
  rcases h [js "C:", js "MzzPlork"] (List.cons_ne_nil _ _) ⟨⟨Disk.bare, []⟩, none⟩
    [runtimeRefused] [] runtimeRefused (List.prefix_refl _) (by decide +kernel) with
    ⟨ledger, hledger, hsame⟩
  -- The versions of the resources: the one on file, and the one that was reported.
  have hkept := congrArg (fun file => file.map (fun entries : Ledger =>
    (entries .resources).map LedgerEntry.version)) hledger
  have hreported := congrArg (fun entry => entry.map LedgerEntry.version) (hsame .resources)
  exact absurd (hkept.trans (congrArg some hreported)) (by decide +kernel)

end Divergence

end Bootstrapper

end MzzPlork
