import MzzPlork.Core.ResourceManager
import MzzPlork.Theory.Registry
import MzzPlork.Theory.Resume

/-!
# Cached Means Verified

What a manifest's records say about the files on disk once the manifest has
been applied.

An entry is recorded as cached when its file was found intact or came through
the download's checks, and those ask for a size or a hash only where the
manifest gives one. From then on the file is at the mercy of the entries that
follow. A later entry leaves it alone unless it keeps its own file at the same
place under weaker checks, or its partial file there (`Disturbs`). With two
entries of one id the record is about the last of them, and a failure of
either is final.

## Main definitions

* `Intact`: A content that has what an entry asks for.
* `Disturbs`: How a later entry can spoil an earlier one's file.
* `Handled`: What processing one entry does.

## Theorems

* `handled_applyEntry`: One entry.
* `kept_applyEntries`: The entries behind one whose file is intact.
* `cachedIntact_applyManifest`: The whole manifest.
* `not_exact_cached`: What sizeless entries and overlapping paths get.
-/

namespace MzzPlork

namespace ResourceManager

open Http

/-- A content that has what an entry asks for, where it asks for anything. -/
structure Intact (env : Env) (entry : ResourceEntry) (content : Bytes) : Prop where
  size : entry.size > 0 → (content.length : Int) = entry.size
  hash : entry.hash ≠ [] → env.sha256Hex content = entry.hash

/-- The entry's file is there and intact. -/
def IntactOn (env : Env) (resourcesDir : Bytes) (entry : ResourceEntry) (d : ClientDisk) : Prop :=
  ∃ content, d.content (locOf (targetPath resourcesDir entry)) = some content ∧
    Intact env entry content

/-- A later entry can put something else where an earlier one has its file:
    its partial file, or a file of its own that need not pass the same checks. -/
def Disturbs (resourcesDir : Bytes) (later entry : ResourceEntry) : Prop :=
  stagingOf (targetPath resourcesDir later) = locOf (targetPath resourcesDir entry) ∨
    (locOf (targetPath resourcesDir later) = locOf (targetPath resourcesDir entry) ∧
      ¬ ((entry.size > 0 → later.size = entry.size) ∧
        (entry.hash ≠ [] → later.hash = entry.hash)))

/-- What processing one entry does: it works on the entry's own record and
    file, and leaves the file as it was or intact. -/
structure Handled (env : Env) (entry : ResourceEntry) (s s' : Applied) : Prop where
  same : ResourceRegistry.SameEntries s.registry s'.registry
  other : ∀ i, i ≠ entry.id → s'.registry.stateOf i = s.registry.stateOf i
  frame : ∀ l, l ≠ stagingOf (targetPath s.registry.resourcesDir entry) →
    l ≠ locOf (targetPath s.registry.resourcesDir entry) →
    s'.world.disk.content l = s.world.disk.content l
  kept : s'.world.disk.content (locOf (targetPath s.registry.resourcesDir entry))
      = s.world.disk.content (locOf (targetPath s.registry.resourcesDir entry)) ∨
    IntactOn env s.registry.resourcesDir entry s'.world.disk

section Entry

variable (env : Env) (origin : Origin) (s : Applied) (entry : ResourceEntry)

/-- An entry's own test asks for more than is needed. -/
theorem intact_of_localFileMatches (w : World) (resourcesDir : Bytes)
    (h : localFileMatches env w (targetPath resourcesDir entry) entry = true) :
    IntactOn env resourcesDir entry w.disk := by
  rw [localFileMatches] at h
  cases hc : w.disk.content (winPath.locate (targetPath resourcesDir entry)) with
  | none =>
      rw [hc] at h
      exact Bool.noConfusion h
  | some content =>
      rw [hc] at h
      simp only [Bool.and_eq_true, decide_eq_true_eq] at h
      exact ⟨content, hc, fun _ => h.1.1, fun _ => h.2⟩

/-- What a download says about the entry it was made for. -/
theorem intact_of_download (resourcesDir : Bytes) (w : World) (result : DownloadResult)
    (hresult : (downloadAndVerify env (requestFor origin resourcesDir entry) w).2 = some result)
    (hok : result.ok = true) : IntactOn env resourcesDir entry
      (downloadAndVerify env (requestFor origin resourcesDir entry) w).1.disk := by
  rcases verified_downloadAndVerify env (requestFor origin resourcesDir entry) w result hresult
    hok with ⟨content, hc, hver⟩
  exact ⟨content, hc, hver.size, hver.hash⟩

theorem frame_download (resourcesDir : Bytes) (w : World) (l : Loc Bytes)
    (hs : l ≠ stagingOf (targetPath resourcesDir entry))
    (hd : l ≠ locOf (targetPath resourcesDir entry)) :
    (downloadAndVerify env (requestFor origin resourcesDir entry) w).1.disk.content l
      = w.disk.content l :=
  (confined_downloadAndVerify env (requestFor origin resourcesDir entry) w).content l
    (fun h => h.elim hs hd)

/-- One entry. Only a call that returns says anything about the state it
    leaves the record in. -/
theorem handled_applyEntry : Handled env entry s (applyEntry env origin s entry).1 ∧
    ((applyEntry env origin s entry).2 = true →
      (applyEntry env origin s entry).1.registry.stateOf entry.id = some .cached →
      IntactOn env s.registry.resourcesDir entry
        (applyEntry env origin s entry).1.world.disk) := by
  rw [applyEntry]
  by_cases hlocal : localFileMatches env s.world (targetPath s.registry.resourcesDir entry) entry
      = true
  · rw [if_pos hlocal]
    exact ⟨⟨ResourceRegistry.sameEntries_transitionTo _ _ _ _,
      fun i hi => ResourceRegistry.stateOf_transitionTo_of_ne _ _ _ _ _ hi,
      fun _ _ _ => rfl, Or.inl rfl⟩,
      fun _ _ => intact_of_localFileMatches env entry s.world _ hlocal⟩
  · rw [if_neg hlocal]
    have hsame := ResourceRegistry.sameEntries_transitionTo s.registry entry.id .downloading []
    have hother := fun i hi => ResourceRegistry.stateOf_transitionTo_of_ne s.registry entry.id i
      .downloading [] hi
    have hframe := frame_download env origin entry s.registry.resourcesDir s.world
    have hsafe := untouched_downloadAndVerify env
      (requestFor origin s.registry.resourcesDir entry) s.world
    simp only []
    cases hres : (downloadAndVerify env (requestFor origin s.registry.resourcesDir entry)
      s.world).2 with
    | none =>
        -- Hashing threw: nothing was moved over the entry's file.
        refine ⟨⟨hsame, hother, hframe, Or.inl (hsafe (fun result h => ?_)).1⟩,
          fun h => Bool.noConfusion h⟩
        rw [hres] at h
        exact absurd h (by simp only [reduceCtorEq, not_false_eq_true])
    | some result =>
        simp only []
        by_cases hok : result.ok = true
        · rw [if_pos hok]
          have hintact := intact_of_download env origin entry _ s.world result hres hok
          refine ⟨⟨?_, fun i hi => ?_, hframe, Or.inr hintact⟩, fun _ _ => hintact⟩
          · exact (hsame.trans (ResourceRegistry.sameEntries_transitionTo _ _ _ _)).trans
              (ResourceRegistry.sameEntries_transitionTo _ _ _ _)
          · rw [ResourceRegistry.stateOf_transitionTo_of_ne _ _ _ _ _ hi,
              ResourceRegistry.stateOf_transitionTo_of_ne _ _ _ _ _ hi, hother i hi]
        · rw [if_neg hok]
          refine ⟨⟨hsame.trans (ResourceRegistry.sameEntries_transitionTo _ _ _ _),
            fun i hi => ?_, hframe, Or.inl (hsafe (fun result' h => ?_)).1⟩, fun _ hcached => ?_⟩
          · rw [ResourceRegistry.stateOf_transitionTo_of_ne _ _ _ _ _ hi, hother i hi]
          · rw [hres, Option.some.injEq] at h
            rw [← h]
            exact Bool.eq_false_iff.mpr hok
          -- A failed download leaves no cached record behind.
          · exact absurd hcached (ResourceRegistry.stateOf_failed_ne _ _ _ .cached
              (by simp only [ne_eq, reduceCtorEq, not_false_eq_true]))

end Entry

section Run

variable (env : Env) (origin : Origin)

/-- The loop over a list is the loop over its beginning, and then over the rest
    unless it was left. -/
theorem applyEntries_append (xs ys : List ResourceEntry) (s : Applied) :
    applyEntries env origin (xs ++ ys) s
      = if (applyEntries env origin xs s).2
        then applyEntries env origin ys (applyEntries env origin xs s).1
        else applyEntries env origin xs s := by
  induction xs generalizing s with
  | nil => rfl
  | cons x xs ih =>
      rw [List.cons_append, applyEntries, applyEntries]
      by_cases hx : (applyEntry env origin s x).2 = true
      · rw [if_pos hx, if_pos hx]
        exact ih _
      · rw [if_neg hx, if_neg hx, if_neg hx]

theorem sameEntries_applyEntries (entries : List ResourceEntry) (s : Applied) :
    ResourceRegistry.SameEntries s.registry
      (applyEntries env origin entries s).1.registry := by
  induction entries generalizing s with
  | nil => exact ResourceRegistry.SameEntries.refl _
  | cons entry entries ih =>
      have hone := (handled_applyEntry env origin s entry).1.same
      rw [applyEntries]
      split
      · exact hone.trans (ih _)
      · exact hone

/-- An entry that does not disturb another keeps its file intact. -/
theorem intactOn_of_handled (resourcesDir : Bytes) (entry later : ResourceEntry) (s s' : Applied)
    (hdir : s.registry.resourcesDir = resourcesDir) (h : Handled env later s s')
    (hnot : ¬ Disturbs resourcesDir later entry)
    (hs : IntactOn env resourcesDir entry s.world.disk) :
    IntactOn env resourcesDir entry s'.world.disk := by
  have hframe := h.frame
  have hkept := h.kept
  rw [hdir] at hframe hkept
  rcases hs with ⟨content, hc, hintact⟩
  by_cases hloc : locOf (targetPath resourcesDir later) = locOf (targetPath resourcesDir entry)
  · have hchecks : (entry.size > 0 → later.size = entry.size) ∧
        (entry.hash ≠ [] → later.hash = entry.hash) := by
      by_contra hc
      exact hnot (Or.inr ⟨hloc, hc⟩)
    -- Two entries for one file that ask for the same do not disturb each other.
    rcases hkept with hsame | ⟨content', hc', hlater⟩
    · rw [hloc] at hsame
      exact ⟨content, hsame.trans hc, hintact⟩
    · rw [hloc] at hc'
      refine ⟨content', hc', fun hpos => ?_, fun hne => ?_⟩
      · have hsize := hchecks.1 hpos
        rw [← hsize]
        exact hlater.size (hsize ▸ hpos)
      · have hhash := hchecks.2 hne
        rw [← hhash]
        exact hlater.hash (hhash ▸ hne)
  · refine ⟨content, (hframe _ (fun heq => ?_) (fun heq => hloc heq.symm)).trans hc, hintact⟩
    -- The partial file of the later entry is not the file of this one.
    exact hnot (Or.inl heq.symm)

/-- The entries behind one whose file is intact. -/
theorem kept_applyEntries (resourcesDir : Bytes) (entry : ResourceEntry)
    (post : List ResourceEntry) (s : Applied) (hdir : s.registry.resourcesDir = resourcesDir)
    (hid : ∀ later ∈ post, later.id ≠ entry.id)
    (hnot : ∀ later ∈ post, ¬ Disturbs resourcesDir later entry)
    (hs : s.registry.stateOf entry.id = some .cached → IntactOn env resourcesDir entry s.world.disk)
    (hcached : (applyEntries env origin post s).1.registry.stateOf entry.id = some .cached) :
    IntactOn env resourcesDir entry (applyEntries env origin post s).1.world.disk := by
  induction post generalizing s with
  | nil => exact hs hcached
  | cons later post ih =>
      have hone := (handled_applyEntry env origin s later).1
      have hstate := hone.other entry.id (fun h => hid later List.mem_cons_self h.symm)
      have hkeep : (applyEntry env origin s later).1.registry.stateOf entry.id = some .cached →
          IntactOn env resourcesDir entry (applyEntry env origin s later).1.world.disk :=
        fun hc => intactOn_of_handled env resourcesDir entry later _ _ hdir hone
          (hnot later List.mem_cons_self) (hs (hstate ▸ hc))
      rw [applyEntries] at hcached ⊢
      split
      · rename_i hgo
        rw [if_pos hgo] at hcached
        exact ih _ (hone.same.dir.trans hdir) (fun l hl => hid l (List.mem_cons_of_mem later hl))
          (fun l hl => hnot l (List.mem_cons_of_mem later hl)) hkeep hcached
      · rename_i hstop
        rw [if_neg hstop] at hcached
        exact hkeep hcached

/-- What the registry holds before the loop comes from the last entry with
    that id. -/
theorem loadManifest_entryOf (r : ResourceRegistry) (entries : List ResourceEntry) (id : Bytes)
    (entry : ResourceEntry) (h : (r.loadManifest entries).entryOf id = some entry) :
    entry.id = id ∧ ∃ pre post, entries = pre ++ entry :: post ∧
      ∀ later ∈ post, later.id ≠ entry.id := by
  rcases Option.map_eq_some_iff.mp h with ⟨record, hfind, rfl⟩
  rcases OrdMap.find_insertAll_cases _ _ _ _ hfind with ⟨pre, post, heq, hpost⟩ | ⟨hnone, _⟩
  · rcases List.map_eq_append_iff.mp heq with ⟨pre', rest, rfl, rfl, hrest⟩
    rcases List.map_eq_cons_iff.mp hrest with ⟨e, post', rfl, he, rfl⟩
    rcases Prod.mk.inj he with ⟨rfl, rfl⟩
    exact ⟨rfl, pre', post', rfl, fun later hl => hpost _ (List.mem_map_of_mem hl)⟩
  · exact absurd hnone (by simp only [OrdMap.empty, reduceCtorEq, not_false_eq_true])

/-- The entries behind the last one with its id leave its file alone. -/
def Undisturbed (resourcesDir : Bytes) (entries : List ResourceEntry) (entry : ResourceEntry) :
    Prop :=
  ∀ pre post, entries = pre ++ entry :: post → (∀ later ∈ post, later.id ≠ entry.id) →
    ∀ later ∈ post, ¬ Disturbs resourcesDir later entry

/-- What `cached` says in the registry a successful call leaves. It is about a
    manifest whose paths have no NUL: behind one, two entries' paths can differ
    and the calls still have the same file for both. -/
def CachedIntact (env : Env) (resourcesDir : Bytes) (entries : List ResourceEntry)
    (out : World × Option ResourceRegistry × Option ServiceResult) : Prop :=
  (∀ entry ∈ entries, IsCString (targetPath resourcesDir entry)) →
  ∀ registry result id record, out.2.1 = some registry → out.2.2 = some result →
    result.status = .ok → registry.records.find id = some record → record.state = .cached →
    Undisturbed resourcesDir entries record.entry →
    IntactOn env resourcesDir record.entry out.1.disk

/-- The whole manifest. -/
theorem cachedIntact_applyManifest (env : Env) (registry : ResourceRegistry)
    (manifestPayload : ClientObject) (serverHost : Bytes) (w : World) :
    CachedIntact env registry.resourcesDir (parseResourceList manifestPayload)
      (applyManifest env (some registry) manifestPayload serverHost w) := by
  intro _ registry' result id record hreg hresult hok hfind hcached hfree
  simp only [applyManifest] at hreg hresult ⊢
  by_cases hport : httpPortOf manifestPayload = 0
  · rw [if_pos hport] at hresult
    rw [← Option.some.inj hresult] at hok
    exact absurd hok (by simp only [reduceCtorEq, not_false_eq_true])
  rw [if_neg hport] at hreg hresult ⊢
  generalize parseResourceList manifestPayload = entries at *
  generalize (⟨serverHost, httpPortOf manifestPayload⟩ : Origin) = origin at *
  have hthrough : (applyEntries env origin entries
      ⟨w, registry.loadManifest entries, 0, 0, 0⟩).2 = true := by
    by_contra hthrown
    rw [if_neg hthrown] at hresult
    exact absurd hresult (by simp only [reduceCtorEq, not_false_eq_true])
  rw [← Option.some.inj hreg] at hfind
  -- The record is about the last entry with its id, so split the list there.
  have hsame := sameEntries_applyEntries env origin entries
    ⟨w, registry.loadManifest entries, 0, 0, 0⟩
  have hentry := ResourceRegistry.entryOf_eq_some _ id record hfind
  rw [hsame.entry id] at hentry
  rcases loadManifest_entryOf registry entries id record.entry hentry with
    ⟨rfl, pre, post, hsplit, hlast⟩
  have hnot := hfree pre post hsplit hlast
  have hstate := ResourceRegistry.stateOf_eq_some _ _ record hfind
  rw [hcached] at hstate
  rw [hsplit] at hthrough hstate ⊢
  rw [applyEntries_append] at hthrough hstate ⊢
  by_cases hpre : (applyEntries env origin pre
      ⟨w, registry.loadManifest (pre ++ record.entry :: post), 0, 0, 0⟩).2 = true
  case neg =>
    rw [if_neg hpre] at hthrough
    exact absurd hthrough hpre
  rw [if_pos hpre, applyEntries] at hthrough hstate ⊢
  have hdir := (sameEntries_applyEntries env origin pre
    ⟨w, registry.loadManifest (pre ++ record.entry :: post), 0, 0, 0⟩).dir
  generalize (applyEntries env origin pre
    ⟨w, registry.loadManifest (pre ++ record.entry :: post), 0, 0, 0⟩).1 = s at *
  have hhandled := handled_applyEntry env origin s record.entry
  rw [show s.registry.resourcesDir = registry.resourcesDir from hdir] at hhandled
  by_cases hone : (applyEntry env origin s record.entry).2 = true
  · rw [if_pos hone] at hstate ⊢
    exact kept_applyEntries env origin registry.resourcesDir record.entry post _
      (hhandled.1.same.dir.trans hdir) hlast hnot (hhandled.2 hone) hstate
  · rw [if_neg hone] at hthrough
    exact absurd hthrough hone

end Run

section Divergence

/-- A manifest that gives neither size nor hash. -/
def bareManifest : ClientObject :=
  [(ascii "httpPort", .num 80), (ascii "resources", .arr [.obj [(ascii "id", .str (ascii "a"))]])]

/-- A manifest in which one entry's path is where another's partial file goes. -/
def overlappingManifest : ClientObject :=
  [(ascii "httpPort", .num 80), (ascii "resources", .arr
    [.obj [(ascii "id", .str (ascii "x")), (ascii "path", .str (ascii "a.partial")),
        (ascii "size", .num 1), (ascii "hash", .str letterRequest.expectedHashHex)],
      .obj [(ascii "id", .str (ascii "y")), (ascii "path", .str (ascii "a")),
        (ascii "size", .num 1), (ascii "hash", .str letterRequest.expectedHashHex)]])]

/-- A server of the letter, on a disk with nothing on it. -/
def applyLetters (manifestPayload : ClientObject) :
    World × Option ResourceRegistry × Option ServiceResult :=
  applyManifest (letterEnv letterServer) (some ⟨ascii "C:\\r", OrdMap.empty⟩) manifestPayload
    (ascii "localhost") ⟨Disk.bare, []⟩

/-- Without a size the record is cached with whatever the server sent; with
    overlapping paths it is cached although its file is gone, however much the
    manifest says about it. -/
theorem not_exact_cached :
    (¬ ∀ (env : Env) (registry registry' : ResourceRegistry) (manifestPayload : ClientObject)
      (serverHost : Bytes) (w : World) (result : ServiceResult) (id : Bytes)
      (record : ResourceRecord),
      (applyManifest env (some registry) manifestPayload serverHost w).2.1 = some registry' →
      (applyManifest env (some registry) manifestPayload serverHost w).2.2 = some result →
      result.status = .ok → registry'.records.find id = some record → record.state = .cached →
      ∃ content, (applyManifest env (some registry) manifestPayload serverHost w).1.disk.content
          (locOf (targetPath registry.resourcesDir record.entry)) = some content ∧
        (content.length : Int) = record.entry.size ∧ env.sha256Hex content = record.entry.hash) ∧
    (¬ ∀ (env : Env) (registry registry' : ResourceRegistry) (manifestPayload : ClientObject)
      (serverHost : Bytes) (w : World) (result : ServiceResult) (id : Bytes)
      (record : ResourceRecord),
      (applyManifest env (some registry) manifestPayload serverHost w).2.1 = some registry' →
      (applyManifest env (some registry) manifestPayload serverHost w).2.2 = some result →
      result.status = .ok → registry'.records.find id = some record → record.state = .cached →
      record.entry.size > 0 → record.entry.hash ≠ [] →
      ∃ content, (applyManifest env (some registry) manifestPayload serverHost w).1.disk.content
        (locOf (targetPath registry.resourcesDir record.entry)) = some content) := by
  constructor
  · intro h
    -- Without a size and a hash any file counts as verified.
    rcases h (letterEnv letterServer) ⟨ascii "C:\\r", OrdMap.empty⟩ _ bareManifest
      (ascii "localhost") ⟨Disk.bare, []⟩ _ (ascii "a")
      ⟨⟨ascii "a", ascii "a", 0, [], [], []⟩, .cached, []⟩ rfl rfl rfl (by decide) rfl with
      ⟨content, hcontent, hsize, _⟩
    have hletter : (applyLetters bareManifest).1.disk.content
        (locOf (targetPath (ascii "C:\\r") ⟨ascii "a", ascii "a", 0, [], [], []⟩))
          = some letter := by decide
    rw [← Option.some.inj (hletter.symm.trans hcontent)] at hsize
    exact absurd hsize (by decide)
  · intro h
    -- The partial file of one resource is the file of another.
    rcases h (letterEnv letterServer) ⟨ascii "C:\\r", OrdMap.empty⟩ _ overlappingManifest
      (ascii "localhost") ⟨Disk.bare, []⟩ _ (ascii "x")
      ⟨⟨ascii "x", ascii "a.partial", 1, letterRequest.expectedHashHex, [], []⟩, .cached, []⟩
      rfl rfl rfl (by decide) rfl (by decide) (by decide) with ⟨content, hcontent⟩
    have hgone : (applyLetters overlappingManifest).1.disk.content
        (locOf (targetPath (ascii "C:\\r")
          ⟨ascii "x", ascii "a.partial", 1, letterRequest.expectedHashHex, [], []⟩))
          = none := by decide
    exact absurd (hgone.symm.trans hcontent)
      (by simp only [reduceCtorEq, not_false_eq_true])

end Divergence

end ResourceManager

end MzzPlork
