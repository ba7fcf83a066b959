import MzzPlork.Theory.Lifecycle

/-!
# Applying a Manifest Again

That a manifest applied a second time asks the server for nothing it has.

What an entry has been cached with carries its hash, and as long as the files
of a manifest keep out of each other's way it is still there when the next
manifest is applied. It then passes one of two tests. The first compares size
and hash and skips the download; the second is the downloader's own, which
does not know a size of zero from a missing one, and makes the call return
before it has sent anything. Either way the entry sends no request and writes
no file, whatever the entries around it do meanwhile (`Aside`).

Hashing has to work while the manifest is applied again. A file that cannot be
hashed passes neither test.

## Main definitions

* `Sends`: The requests of a step are all for one path.
* `Apart`: The entries of a manifest keep out of each other's way.
* `Aside`: What a step does to an entry it is not about.
* `Reapplied`: What the second application does to an entry.

## Theorems

* `sends_downloadAndVerify`: A download asks for its own path.
* `canHash_of_none`: Only a refused hash leaves a call without a result.
* `cachedGood_applyEntries`: Cached records have intact files all along.
* `again_applyEntry`: The entry itself, the second time.
* `reapplied_applyManifest`: The whole manifest.
-/

namespace MzzPlork

namespace Http

/-- All requests sent between two worlds are for one path. -/
def Sends (urlPath : Bytes) (w w' : World) : Prop :=
  ∃ reqs, w'.requests = w.requests ++ reqs ∧ ∀ q ∈ reqs, q.urlPath = urlPath

theorem Sends.of_eq {urlPath : Bytes} {w w' : World} (h : w'.requests = w.requests) :
    Sends urlPath w w' :=
  ⟨[], by rw [h, List.append_nil], fun q hq => absurd hq List.not_mem_nil⟩

theorem Sends.trans {urlPath : Bytes} {w w' w'' : World} (h : Sends urlPath w w')
    (h' : Sends urlPath w' w'') : Sends urlPath w w'' := by
  rcases h with ⟨reqs, hreqs, hall⟩
  rcases h' with ⟨reqs', hreqs', hall'⟩
  refine ⟨reqs ++ reqs', by rw [hreqs', hreqs, List.append_assoc], fun q hq => ?_⟩
  exact (List.mem_append.mp hq).elim (hall q) (hall' q)

section Requests

variable (env : Env) (request : DownloadRequest) (path : Bytes)

theorem requests_receiveBody (status : Nat) (contentLength : Option UInt32) (body : Bytes)
    (readError : Option Nat) (w : World) :
    (receiveBody env path status contentLength body readError w).1.requests = w.requests := by
  rw [receiveBody]
  cases hopen : writePartial env w path (decide (status = 206)) body with
  | none => rfl
  | some w' =>
      have hreq : w'.requests = w.requests := by
        rw [writePartial] at hopen
        split at hopen
        · rcases Option.map_eq_some_iff.mp hopen with ⟨disk, _, rfl⟩
          rfl
        · exact absurd hopen (by simp only [reduceCtorEq, not_false_eq_true])
      simp only []
      split
      · split <;> exact hreq
      · split
        · split <;> exact hreq
        · exact hreq

/-- An attempt sends one request. -/
theorem requests_performSingleAttempt (offset : Int) (w : World) :
    (performSingleAttempt env request path offset w).1.requests
      = w.requests ++ [rangeRequest request offset] := by
  rw [performSingleAttempt]
  generalize env.server (w.requests ++ [rangeRequest request offset]) = reply
  cases reply with
  | unavailable call => rfl
  | failed error =>
      simp only []
      split <;> rfl
  | response status contentLength body readError =>
      simp only []
      split
      · rfl
      · split
        · rfl
        · split
          · rfl
          · split
            · rfl
            · exact requests_receiveBody env path status contentLength body readError _

theorem requests_attemptOnce (s : LoopState) :
    (attemptOnce env request path s).world.requests
      = s.world.requests ++ [rangeRequest request s.offset] := by
  have hsent := requests_performSingleAttempt env request path s.offset s.world
  rw [attemptOnce]
  cases (performSingleAttempt env request path s.offset s.world).2.outcome <;> exact hsent

theorem sends_attempts (n : Nat) (s : LoopState) :
    Sends request.urlPath s.world (attempts env request path n s).world := by
  induction n with
  | zero => exact Sends.of_eq rfl
  | succ n ih =>
      rw [attempts]
      cases hn : attempts env request path n s with
      | again s' =>
          rw [hn] at ih
          refine ih.trans ⟨[rangeRequest request s'.offset], ?_, fun q hq => ?_⟩
          · exact requests_attemptOnce env request path s'
          · rw [List.mem_singleton.mp hq]
            rfl
      | completed s' =>
          rw [hn] at ih
          exact ih
      | gaveUp w result =>
          rw [hn] at ih
          exact ih

theorem requests_finalize (s : LoopState) :
    (finalize env request path s).1.requests = s.world.requests := by
  rw [finalize]
  split
  · rfl
  · split
    · rfl
    · split
      · rfl
      · split
        · rfl
        · split <;> rfl

/-- A download asks for its own path. -/
theorem sends_downloadAndVerify (w : World) :
    Sends request.urlPath w (downloadAndVerify env request w).1 := by
  rw [downloadAndVerify]
  split
  · exact Sends.of_eq rfl
  · have hloop := sends_attempts env request (partialPath request.destPath)
      (attemptLimit request) (startDownload request w)
    have hstart : Sends request.urlPath w (startDownload request w).world :=
      Sends.of_eq (startDownload_requests request w)
    simp only []
    cases hs : attempts env request (partialPath request.destPath) (attemptLimit request)
      (startDownload request w) with
    | again s =>
        rw [hs] at hloop
        exact hstart.trans hloop
    | gaveUp w' result =>
        rw [hs] at hloop
        exact hstart.trans hloop
    | completed s =>
        rw [hs] at hloop
        exact (hstart.trans hloop).trans (Sends.of_eq (requests_finalize env request _ s))

/-- A call without a result was refused a hash behind the requests it sent. -/
theorem canHash_of_none (w : World) (h : (downloadAndVerify env request w).2 = none) :
    env.canHash (downloadAndVerify env request w).1.requests = false := by
  rw [downloadAndVerify] at h ⊢
  split at h
  · exact absurd h (by simp only [reduceCtorEq, not_false_eq_true])
  · rename_i hmatch
    rw [if_neg hmatch]
    simp only [] at h ⊢
    cases hs : attempts env request (partialPath request.destPath) (attemptLimit request)
      (startDownload request w) with
    | again s =>
        rw [hs] at h
        exact absurd h (by simp only [reduceCtorEq, not_false_eq_true])
    | gaveUp w' result =>
        rw [hs] at h
        exact absurd h (by simp only [reduceCtorEq, not_false_eq_true])
    | completed s =>
        rw [hs] at h
        simp only [] at h ⊢
        rw [requests_finalize]
        -- The checks are without a result at the refused hash only.
        rw [finalize] at h
        split at h
        · exact absurd h (by simp only [reduceCtorEq, not_false_eq_true])
        · split at h
          · exact absurd h (by simp only [reduceCtorEq, not_false_eq_true])
          · split at h
            · rename_i hrefused
              exact hrefused.2
            · split at h
              · exact absurd h (by simp only [reduceCtorEq, not_false_eq_true])
              · split at h <;>
                  exact absurd h (by simp only [reduceCtorEq, not_false_eq_true])

end Requests

end Http

namespace ResourceManager

open Http ResourceRegistry

/-- The entries of a manifest keep out of each other's way: no two have one id
    or one file, and none has its partial file where another has its file. -/
structure Apart (resourcesDir : Bytes) (entries : List ResourceEntry) : Prop where
  ids : (entries.map ResourceEntry.id).Nodup
  files : ∀ e ∈ entries, ∀ e' ∈ entries, e ≠ e' →
    locOf (targetPath resourcesDir e') ≠ locOf (targetPath resourcesDir e)
  staging : ∀ e ∈ entries, ∀ e' ∈ entries, e ≠ e' →
    stagingOf (targetPath resourcesDir e') ≠ locOf (targetPath resourcesDir e)

theorem Apart.not_disturbs {resourcesDir : Bytes} {entries : List ResourceEntry}
    (h : Apart resourcesDir entries) (e e' : ResourceEntry) (he : e ∈ entries)
    (he' : e' ∈ entries) (hne : e ≠ e') : ¬ Disturbs resourcesDir e' e := by
  rintro (hs | ⟨hf, _⟩)
  · exact h.staging e he e' he' hne hs
  · exact h.files e he e' he' hne hf

section First

variable (env : Env) (origin : Origin) (resourcesDir : Bytes) (all : List ResourceEntry)
  (hapart : Apart resourcesDir all)

/-- Every record that is cached has its file intact. -/
def CachedGood (s : Applied) : Prop :=
  s.registry.resourcesDir = resourcesDir ∧ ∀ e ∈ all, s.registry.stateOf e.id = some .cached →
    IntactOn env resourcesDir e s.world.disk

/-- A download that ends in an exception caches nothing. -/
theorem cached_of_thrown (s : Applied) (entry : ResourceEntry)
    (hthrown : (applyEntry env origin s entry).2 = false)
    (hc : (applyEntry env origin s entry).1.registry.stateOf entry.id = some .cached) :
    s.registry.stateOf entry.id = some .cached := by
  rw [applyEntry] at hthrown hc
  split at hthrown
  · exact Bool.noConfusion hthrown
  · rename_i hlocal
    rw [if_neg hlocal] at hc
    simp only [] at hthrown hc
    cases hres : (downloadAndVerify env (requestFor origin s.registry.resourcesDir entry)
      s.world).2 with
    | some result =>
        rw [hres] at hthrown
        simp only [] at hthrown
        split at hthrown <;> exact Bool.noConfusion hthrown
    | none =>
        rw [hres] at hc
        simp only [] at hc
        cases hs : s.registry.stateOf entry.id with
        | none =>
            have hsame := (s.registry.sameEntries_transitionTo entry.id .downloading []).keys
            have hkey := mem_keys_of_stateOf _ entry.id _ hc
            rw [hsame, OrdMap.mem_keys, Option.map_eq_none_iff.mp hs] at hkey
            exact Bool.noConfusion hkey
        | some st =>
            rw [stateOf_transitionTo_self _ _ st _ _ hs, Option.some.injEq] at hc
            split at hc
            · exact ResourceState.noConfusion hc
            · rw [hc]

include hapart

theorem cachedGood_applyEntry (s : Applied) (entry : ResourceEntry) (hentry : entry ∈ all)
    (h : CachedGood env resourcesDir all s) :
    CachedGood env resourcesDir all (applyEntry env origin s entry).1 := by
  rcases handled_applyEntry env origin s entry with ⟨hone, hown⟩
  refine ⟨hone.same.dir.trans h.1, fun e he hc => ?_⟩
  by_cases heq : e = entry
  · subst heq
    rw [h.1] at hown
    cases hthrough : (applyEntry env origin s e).2 with
    | true => exact hown hthrough hc
    | false =>
        -- Nothing was cached, so the file was good before and has been left alone.
        have hbefore := h.2 e he (cached_of_thrown env origin s e hthrough hc)
        have hkept := hone.kept
        rw [h.1] at hkept
        rcases hkept with hsame | hintact
        · rcases hbefore with ⟨content, hcontent, hintact⟩
          exact ⟨content, hsame.trans hcontent, hintact⟩
        · exact hintact
  · have hid : e.id ≠ entry.id := fun hid => heq (List.inj_on_of_nodup_map hapart.ids he hentry hid)
    rw [hone.other e.id hid] at hc
    exact intactOn_of_handled env resourcesDir e entry _ _ h.1 hone
      (hapart.not_disturbs e entry he hentry heq) (h.2 e he hc)

/-- Cached records have intact files all along, also where the loop is left
    early. -/
theorem cachedGood_applyEntries (entries : List ResourceEntry) (hsub : ∀ e ∈ entries, e ∈ all)
    (s : Applied) (h : CachedGood env resourcesDir all s) :
    CachedGood env resourcesDir all (applyEntries env origin entries s).1 := by
  induction entries generalizing s with
  | nil => exact h
  | cons entry entries ih =>
      have hone := cachedGood_applyEntry env origin resourcesDir all hapart s entry
        (hsub entry List.mem_cons_self) h
      rw [applyEntries]
      split
      · exact ih (fun e he => hsub e (List.mem_cons_of_mem entry he)) _ hone
      · exact hone

end First

section Second

variable (env : Env) (origin : Origin) (resourcesDir : Bytes) (entry : ResourceEntry)

/-- None of the requests sent between two worlds is for the entry. -/
def NotAsked (id : Bytes) (w w' : World) : Prop :=
  ∃ reqs, w'.requests = w.requests ++ reqs ∧
    ∀ q ∈ reqs, q.urlPath ≠ ascii "/resources/" ++ id

theorem NotAsked.trans {id : Bytes} {w w' w'' : World} (h : NotAsked id w w')
    (h' : NotAsked id w' w'') : NotAsked id w w'' := by
  rcases h with ⟨reqs, hreqs, hall⟩
  rcases h' with ⟨reqs', hreqs', hall'⟩
  refine ⟨reqs ++ reqs', by rw [hreqs', hreqs, List.append_assoc], fun q hq => ?_⟩
  exact (List.mem_append.mp hq).elim (hall q) (hall' q)

theorem NotAsked.refl (id : Bytes) (w : World) : NotAsked id w w :=
  ⟨[], (List.append_nil _).symm, fun _ hq => absurd hq List.not_mem_nil⟩

/-- Hashing works from here on, however many more requests are sent. -/
def Hashes (w : World) : Prop := ∀ more, env.canHash (w.requests ++ more) = true

theorem Hashes.of_notAsked {env : Env} {id : Bytes} {w w' : World} (h : Hashes env w)
    (hreq : NotAsked id w w') : Hashes env w' := by
  rcases hreq with ⟨reqs, hreqs, _⟩
  intro more
  rw [hreqs, List.append_assoc]
  exact h (reqs ++ more)

/-- What a part of the loop does to an entry it is not about. -/
structure Aside (s s' : Applied) : Prop where
  dir : s'.registry.resourcesDir = s.registry.resourcesDir
  state : s'.registry.stateOf entry.id = s.registry.stateOf entry.id
  content : s'.world.disk.content (locOf (targetPath resourcesDir entry))
    = s.world.disk.content (locOf (targetPath resourcesDir entry))
  quiet : NotAsked entry.id s.world s'.world

theorem Aside.trans {resourcesDir : Bytes} {entry : ResourceEntry} {s s' s'' : Applied}
    (h : Aside resourcesDir entry s s') (h' : Aside resourcesDir entry s' s'') :
    Aside resourcesDir entry s s'' :=
  ⟨h'.dir.trans h.dir, h'.state.trans h.state, h'.content.trans h.content,
    h.quiet.trans h'.quiet⟩

/-- What one entry sends is for that entry. -/
theorem sends_applyEntry (s : Applied) (e : ResourceEntry) :
    Sends (ascii "/resources/" ++ e.id) s.world (applyEntry env origin s e).1.world := by
  have hsent := sends_downloadAndVerify env (requestFor origin s.registry.resourcesDir e) s.world
  rw [applyEntry]
  split
  · exact Sends.of_eq rfl
  · simp only []
    split
    · exact hsent
    · split <;> exact hsent

/-- With hashing at work no exception escapes from an entry. -/
theorem through_applyEntry (s : Applied) (e : ResourceEntry) (hhash : Hashes env s.world) :
    (applyEntry env origin s e).2 = true := by
  rw [applyEntry]
  split
  · rfl
  · simp only []
    cases hres : (downloadAndVerify env (requestFor origin s.registry.resourcesDir e)
      s.world).2 with
    | none =>
        have hrefused := canHash_of_none env _ s.world hres
        rcases sends_downloadAndVerify env (requestFor origin s.registry.resourcesDir e)
          s.world with ⟨reqs, hreqs, _⟩
        rw [hreqs, hhash reqs] at hrefused
        exact Bool.noConfusion hrefused
    | some result =>
        simp only []
        split <;> rfl

/-- One entry leaves another alone. -/
theorem aside_applyEntry (s : Applied) (e : ResourceEntry)
    (hdir : s.registry.resourcesDir = resourcesDir) (hid : e.id ≠ entry.id)
    (hfile : locOf (targetPath resourcesDir e) ≠ locOf (targetPath resourcesDir entry))
    (hstaging : stagingOf (targetPath resourcesDir e) ≠ locOf (targetPath resourcesDir entry)) :
    Aside resourcesDir entry s (applyEntry env origin s e).1 := by
  have hone := (handled_applyEntry env origin s e).1
  have hframe := hone.frame
  rw [hdir] at hframe
  refine ⟨hone.same.dir, hone.other entry.id (fun h => hid h.symm),
    hframe _ (fun h => hstaging h.symm) (fun h => hfile h.symm), ?_⟩
  rcases sends_applyEntry env origin s e with ⟨reqs, hreqs, hall⟩
  refine ⟨reqs, hreqs, fun q hq heq => hid ?_⟩
  exact List.append_cancel_left ((hall q hq).symm.trans heq)

/-- So do any number of entries, and none of them ends the loop. -/
theorem aside_applyEntries (entries : List ResourceEntry) (s : Applied)
    (hdir : s.registry.resourcesDir = resourcesDir) (hid : ∀ e ∈ entries, e.id ≠ entry.id)
    (hfile : ∀ e ∈ entries,
      locOf (targetPath resourcesDir e) ≠ locOf (targetPath resourcesDir entry))
    (hstaging : ∀ e ∈ entries,
      stagingOf (targetPath resourcesDir e) ≠ locOf (targetPath resourcesDir entry))
    (hhash : Hashes env s.world) :
    (applyEntries env origin entries s).2 = true ∧
      Aside resourcesDir entry s (applyEntries env origin entries s).1 := by
  induction entries generalizing s with
  | nil => exact ⟨rfl, rfl, rfl, rfl, NotAsked.refl _ _⟩
  | cons e es ih =>
      have hone := aside_applyEntry env origin resourcesDir entry s e hdir
        (hid e List.mem_cons_self) (hfile e List.mem_cons_self) (hstaging e List.mem_cons_self)
      rw [applyEntries, if_pos (through_applyEntry env origin s e hhash)]
      rcases ih _ (hone.dir.trans hdir) (fun i hi => hid i (List.mem_cons_of_mem e hi))
        (fun i hi => hfile i (List.mem_cons_of_mem e hi))
        (fun i hi => hstaging i (List.mem_cons_of_mem e hi)) (hhash.of_notAsked hone.quiet) with
        ⟨hthrough, hrest⟩
      exact ⟨hthrough, hone.trans hrest⟩

/-- An intact file passes the downloader's own test. -/
theorem fileMatchesExpected_of_intactOn (w : World) (hhash : Hashes env w)
    (h : IntactOn env resourcesDir entry w.disk) :
    fileMatchesExpected env w (targetPath resourcesDir entry) entry.size entry.hash = true := by
  rcases h with ⟨content, hc, hintact⟩
  have hcan := hhash []
  rw [List.append_nil] at hcan
  rw [fileMatchesExpected, show w.disk.content (winPath.locate (targetPath resourcesDir entry))
    = some content from hc]
  simp only []
  rw [if_neg (fun hbad => hbad.2 (hintact.size hbad.1))]
  split
  · rename_i hne
    rw [hcan, hintact.hash hne]
    exact decide_eq_true rfl
  · rfl

/-- The entry itself: with its file intact and its record pending, it is cached
    without a request or a write. -/
theorem again_applyEntry (s : Applied) (hdir : s.registry.resourcesDir = resourcesDir)
    (hpending : s.registry.stateOf entry.id = some .pending) (hhash : Hashes env s.world)
    (hintact : IntactOn env resourcesDir entry s.world.disk) :
    (applyEntry env origin s entry).1.world = s.world ∧
      (applyEntry env origin s entry).1.registry.stateOf entry.id = some .cached := by
  have hmatch := fileMatchesExpected_of_intactOn env resourcesDir entry s.world hhash hintact
  have hdownload : downloadAndVerify env (requestFor origin s.registry.resourcesDir entry) s.world
      = (s.world, some ⟨true, [], .completed, false⟩) := by
    rw [downloadAndVerify, if_pos]
    rw [hdir]
    exact hmatch
  refine ⟨?_, ?_⟩
  · rw [applyEntry]
    split
    · rfl
    · simp only [hdownload, if_true]
  · have hfetched : fetched env origin s entry = true := by
      rw [fetched, hdownload]
      exact Bool.or_true _
    rw [stateOf_applyEntry env origin s entry .pending (through_applyEntry env origin s entry hhash)
      (Or.inl rfl) hpending, hfetched]
    rfl

end Second

/-- What the second of two applications does about an entry: nothing is asked
    for it, its file is what it was, and it is cached. -/
structure Reapplied (resourcesDir : Bytes) (entry : ResourceEntry)
    (first second : World × Option ResourceRegistry × Option ServiceResult) : Prop where
  quiet : NotAsked entry.id first.1 second.1
  kept : second.1.disk.content (locOf (targetPath resourcesDir entry))
    = first.1.disk.content (locOf (targetPath resourcesDir entry))
  cached : ∃ registry, second.2.1 = some registry ∧
    registry.stateOf entry.id = some .cached

/-- The loop over the entries, entered with an intact file for one of them. -/
theorem reapplied_applyEntries (env : Env) (origin : Origin) (resourcesDir : Bytes)
    (entries : List ResourceEntry) (hapart : Apart resourcesDir entries) (entry : ResourceEntry)
    (hentry : entry ∈ entries) (s : Applied) (hdir : s.registry.resourcesDir = resourcesDir)
    (hpending : s.registry.stateOf entry.id = some .pending) (hhash : Hashes env s.world)
    (hintact : IntactOn env resourcesDir entry s.world.disk) :
    NotAsked entry.id s.world (applyEntries env origin entries s).1.world ∧
      (applyEntries env origin entries s).1.world.disk.content
          (locOf (targetPath resourcesDir entry))
        = s.world.disk.content (locOf (targetPath resourcesDir entry)) ∧
      (applyEntries env origin entries s).1.registry.stateOf entry.id = some .cached := by
  rcases List.append_of_mem hentry with ⟨pre, post, rfl⟩
  have hnd := hapart.ids
  rw [List.map_append, List.map_cons, List.nodup_middle, List.nodup_cons, List.mem_append,
    not_or] at hnd
  -- An entry on either side differs from this one in its id, and so in its files.
  have hpre : ∀ e ∈ pre, e.id ≠ entry.id := fun e he heq =>
    hnd.1.1 (heq ▸ List.mem_map_of_mem he)
  have hpost : ∀ e ∈ post, e.id ≠ entry.id := fun e he heq =>
    hnd.1.2 (heq ▸ List.mem_map_of_mem he)
  have hne : ∀ e, e.id ≠ entry.id → entry ≠ e := fun e he heq => he (heq ▸ rfl)
  have hmem : ∀ e ∈ pre, e ∈ pre ++ entry :: post := fun e he => List.mem_append_left _ he
  have hmem' : ∀ e ∈ post, e ∈ pre ++ entry :: post := fun e he =>
    List.mem_append_right pre (List.mem_cons_of_mem entry he)
  rcases aside_applyEntries env origin resourcesDir entry pre s hdir hpre
    (fun e he => hapart.files entry hentry e (hmem e he) (hne e (hpre e he)))
    (fun e he => hapart.staging entry hentry e (hmem e he) (hne e (hpre e he))) hhash with
    ⟨hthrough₁, haside₁⟩
  have hhash₁ := hhash.of_notAsked haside₁.quiet
  have hintact₁ : IntactOn env resourcesDir entry
      (applyEntries env origin pre s).1.world.disk := by
    rcases hintact with ⟨content, hc, hok⟩
    exact ⟨content, haside₁.content.trans hc, hok⟩
  have hdir₁ := haside₁.dir.trans hdir
  rcases again_applyEntry env origin resourcesDir entry _ hdir₁
    (haside₁.state.trans hpending) hhash₁ hintact₁ with ⟨hworld, hcached⟩
  have hdir₂ := (handled_applyEntry env origin (applyEntries env origin pre s).1
    entry).1.same.dir.trans hdir₁
  have hgo := through_applyEntry env origin (applyEntries env origin pre s).1 entry hhash₁
  rcases aside_applyEntries env origin resourcesDir entry post
    (applyEntry env origin (applyEntries env origin pre s).1 entry).1 hdir₂ hpost
    (fun e he => hapart.files entry hentry e (hmem' e he) (hne e (hpost e he)))
    (fun e he => hapart.staging entry hentry e (hmem' e he) (hne e (hpost e he)))
    (hworld ▸ hhash₁) with ⟨_, haside₂⟩
  rw [applyEntries_append, if_pos hthrough₁, applyEntries, if_pos hgo]
  have hquiet₂ := haside₂.quiet
  have hcontent₂ := haside₂.content
  rw [hworld] at hquiet₂ hcontent₂
  exact ⟨haside₁.quiet.trans hquiet₂, hcontent₂.trans haside₁.content,
    haside₂.state.trans hcached⟩

/-- The whole manifest. Hashing is asked for behind the first application
    only; without a port in the manifest neither application does anything. -/
theorem reapplied_applyManifest (env : Env) (registry : ResourceRegistry)
    (manifestPayload : ClientObject) (serverHost : Bytes) (w : World)
    (hapart : Apart registry.resourcesDir (parseResourceList manifestPayload))
    (hhash : Hashes env (applyManifest env (some registry) manifestPayload serverHost w).1) :
    ∀ entry ∈ parseResourceList manifestPayload, ∀ r,
      (applyManifest env (some registry) manifestPayload serverHost w).2.1 = some r →
      r.stateOf entry.id = some .cached →
      Reapplied registry.resourcesDir entry
        (applyManifest env (some registry) manifestPayload serverHost w)
        (applyManifest env (some r) manifestPayload serverHost
          (applyManifest env (some registry) manifestPayload serverHost w).1) := by
  intro entry hentry r hr hcached
  by_cases hport : httpPortOf manifestPayload = 0
  · simp only [applyManifest, hport, if_true] at hr ⊢
    exact ⟨NotAsked.refl _ _, rfl, r, rfl, hcached⟩
  simp only [applyManifest, hport, if_false] at hr hhash ⊢
  generalize hentries : parseResourceList manifestPayload = entries at *
  generalize (⟨serverHost, httpPortOf manifestPayload⟩ : Origin) = origin at *
  have hstart : CachedGood env registry.resourcesDir entries
      ⟨w, registry.loadManifest entries, 0, 0, 0⟩ := by
    refine ⟨rfl, fun e _ hc => ?_⟩
    exact absurd (stateOf_loadManifest registry entries e.id .cached hc).1 (by decide)
  have hgood := cachedGood_applyEntries env origin registry.resourcesDir entries hapart entries
    (fun _ he => he) _ hstart
  have hsame := sameEntries_applyEntries env origin entries
    ⟨w, registry.loadManifest entries, 0, 0, 0⟩
  rw [Option.some.injEq] at hr
  subst hr
  generalize applyEntries env origin entries ⟨w, registry.loadManifest entries, 0, 0, 0⟩ = run at *
  have hintact := hgood.2 entry hentry hcached
  -- The records of a manifest do not depend on what the registry held before.
  have hpending : (run.1.registry.loadManifest entries).stateOf entry.id = some .pending := by
    have hkey : entry.id ∈ (run.1.registry.loadManifest entries).records.keys := by
      have hkeys : run.1.registry.records.keys
          = (run.1.registry.loadManifest entries).records.keys := hsame.keys
      rw [← hkeys]
      exact mem_keys_of_stateOf run.1.registry entry.id .cached hcached
    rcases Option.isSome_iff_exists.mp ((OrdMap.mem_keys _ _).mp hkey) with ⟨record, hfind⟩
    have hst := stateOf_eq_some _ _ _ hfind
    rw [hst, (stateOf_loadManifest run.1.registry entries entry.id _ hst).1]
  rcases reapplied_applyEntries env origin registry.resourcesDir entries hapart entry hentry
    ⟨run.1.world, run.1.registry.loadManifest entries, 0, 0, 0⟩ hsame.dir hpending hhash
    hintact with ⟨hquiet, hkept, hagain⟩
  exact ⟨hquiet, hkept, _, rfl, hagain⟩

/-- An entry of one letter. -/
def letterEntry (id : String) : ResourceEntry :=
  ⟨ascii id, ascii id, 1, letterRequest.expectedHashHex, [], []⟩

/-- A manifest with two of them. -/
def pairManifest : ClientObject :=
  [(ascii "httpPort", .num 80), (ascii "resources", .arr
    [.obj [(ascii "id", .str (ascii "a")), (ascii "size", .num 1),
        (ascii "hash", .str letterRequest.expectedHashHex)],
      .obj [(ascii "id", .str (ascii "b")), (ascii "size", .num 1),
        (ascii "hash", .str letterRequest.expectedHashHex)]])]

/-- A server that is too busy for one of the two. -/
def halfServer (history : List HttpRequest) : Reply :=
  if history.getLast?.map HttpRequest.urlPath = some (ascii "/resources/b") then
    busyServer history
  else letterServer history

/-- The registry of a client that has been given no manifest yet. -/
def freshRegistry : ResourceRegistry := ⟨ascii "C:\\r", OrdMap.empty⟩

theorem apart_pairManifest : Apart (ascii "C:\\r") (parseResourceList pairManifest) := by
  have hentries : parseResourceList pairManifest = [letterEntry "a", letterEntry "b"] := rfl
  rw [hentries]
  refine ⟨by decide, ?_, ?_⟩ <;>
  · simp only [List.forall_mem_cons, List.not_mem_nil, false_imp_iff, implies_true, and_true]
    exact ⟨⟨fun hne => absurd rfl hne, fun _ => by decide⟩,
      fun _ => by decide, fun hne => absurd rfl hne⟩

/-- The manifest applied twice. The resource that has come is not asked for
    again, whatever becomes of the one that has not. -/
theorem reapplied_pairManifest : ∃ r,
    (applyManifest (letterEnv halfServer) (some freshRegistry) pairManifest (ascii "localhost")
      ⟨Disk.bare, []⟩).2.1 = some r ∧
    r.stateOf (ascii "b") = some .failed ∧
    Reapplied (ascii "C:\\r") (letterEntry "a")
      (applyManifest (letterEnv halfServer) (some freshRegistry) pairManifest
        (ascii "localhost") ⟨Disk.bare, []⟩)
      (applyManifest (letterEnv halfServer) (some r) pairManifest (ascii "localhost")
        (applyManifest (letterEnv halfServer) (some freshRegistry) pairManifest
          (ascii "localhost") ⟨Disk.bare, []⟩).1) := by
  have hstates : (applyManifest (letterEnv halfServer) (some freshRegistry) pairManifest
      (ascii "localhost") ⟨Disk.bare, []⟩).2.1.map
        (fun r => (r.stateOf (ascii "a"), r.stateOf (ascii "b")))
      = some (some .cached, some .failed) := by decide +kernel
  rcases Option.map_eq_some_iff.mp hstates with ⟨r, hr, hboth⟩
  rcases Prod.mk.inj hboth with ⟨hcached, hfailed⟩
  refine ⟨r, hr, hfailed, ?_⟩
  exact reapplied_applyManifest (letterEnv halfServer) freshRegistry pairManifest
    (ascii "localhost") ⟨Disk.bare, []⟩ apart_pairManifest (fun _ => rfl) (letterEntry "a")
    List.mem_cons_self r hr hcached

end ResourceManager

end MzzPlork
