import MzzPlork.Base.Run
import MzzPlork.Core.Runtime

/-!
# The States of a Client

What a client shows of itself on its standard output is a path through a state
machine that never comes back to a state and never comes to `Playing`, whatever
the services return, the server says and the threads do. A run that fails says
so, and it fails exactly where the configuration or the cache do.

The states are shown by the main thread alone. What the handlers of the reader
thread print in between is about the connection and the entities.

## Main definitions

* `Follows`: The state machine.
* `stateTexts`, `lifecycleTexts`, `errorTexts`: What the standard output shows.
* `Documented`: A path through the state machine, and how it ends.
* `MainPc.phase`, `MainPc.shows`, `Passed`: What has been shown where.
* `Shown`: What has been shown by a run without an error.
* `Documents`: What has been shown is what is shown there.

## Theorems

* `documents_mainStep`, `documents_act`: Every step keeps to the path.
* `documented_run`: What a run shows.
-/

namespace MzzPlork

namespace Runtime

open EventChannel Server

/-- The state machine, with the ways past what needs a server. -/
def Follows (state next : ClientState) : Bool :=
  match state with
  | .starting => next = .initializing
  | .initializing => next = .checkingUpdate
  | .checkingUpdate => next = .connecting
  | .connecting => next = .authenticating || next = .loadingResources
  | .authenticating => next = .downloadingResources || next = .loadingResources
  | .downloadingResources => next = .loadingResources
  | .loadingResources => next = .ready
  | .ready => next = .disconnecting
  | .playing => false
  | .disconnecting => next = .stopped
  | .stopped => false

/-- The states of the process, in the order in which they are shown. -/
def lifecycles : List RuntimeState := [.initializing, .ready, .shuttingDown, .stopped]

/-- The session states on the standard output. -/
def stateTexts (events : List ClientEvent) : List Bytes :=
  events.filterMap (fun e => match e with
    | .service name _ message => if name = ascii "client-state" then some message else none
    | _ => none)

/-- The process states on the standard output. -/
def lifecycleTexts (events : List ClientEvent) : List Bytes :=
  events.filterMap (fun e => match e with
    | .state name => some name
    | _ => none)

/-- The errors on the standard output. -/
def errorTexts (events : List ClientEvent) : List Bytes :=
  events.filterMap (fun e => match e with
    | .error message => some message
    | _ => none)

/-- The services without which nothing goes on. -/
def Services.Fatal (services : Services) : Prop :=
  services.configuration.status = .failed ∨ services.cache.status = .failed

/-- The states are a path, and so are the process states. There is an error
    exactly where the run has failed, which it does for a fatal service only,
    and another run that has returned has come to the last state. -/
structure Documented (services : Services) (c : Client) : Prop where
  path : ∃ states : List ClientState, stateTexts c.events = states.map ClientState.text ∧
    (∀ s ∈ states.head?, s = .starting) ∧
    List.IsChain (fun s s' => Follows s s' = true) states ∧
    (c.main = .returned 0 → states.getLast? = some .stopped)
  lifecycle : ∃ k, lifecycleTexts c.events = (lifecycles.take k).map RuntimeState.text ∧
    (c.main = .returned 0 → k = 4)
  error : errorTexts c.events ≠ [] ↔ c.main = .returned 1
  fatal : c.main = .returned 1 → services.Fatal
  success : c.main = .returned 0 → ¬ services.Fatal
  exitCode : ∀ exitCode, c.main = .returned exitCode → exitCode = 0 ∨ exitCode = 1

/-- How many process states have been shown. -/
def MainPc.phase (main : MainPc) : Nat :=
  match main with
  | .starting => 0
  | .idle => 2
  | .joiningHeartbeat | .joiningReplication | .requestingDisconnect | .disconnect | .closing => 3
  | .returned 0 => 4
  | _ => 1

/-- The last session state that has been shown. -/
def MainPc.shows (main : MainPc) (last : Option ClientState) : Prop :=
  match main with
  | .starting => last = none
  | .services => last = some .initializing
  | .connecting => last = some .checkingUpdate
  | .helloRequest | .helloReply | .authRequest => last = some .connecting
  | .authReply | .manifestRequest => last = some .authenticating
  | .manifestReply | .applying | .aborted => last = some .downloadingResources
  | .unconnected => last = some .connecting ∨ last = some .authenticating
  | .loading _ => last = some .connecting ∨ last = some .authenticating ∨
      last = some .downloadingResources
  | .readyReply | .settling => last = some .loadingResources
  | .idle => last = some .ready
  | .joiningHeartbeat | .joiningReplication | .requestingDisconnect | .disconnect | .closing =>
    last = some .disconnecting
  | .returned 0 => last = some .stopped
  | .returned _ => True

/-- The services the run has come past. -/
def Passed (services : Services) (main : MainPc) : Prop :=
  match main with
  | .starting => True
  | .services => services.configuration.status ≠ .failed
  | .returned 0 => ¬ services.Fatal
  | .returned exitCode => exitCode = 1 ∧ services.Fatal
  | _ => ¬ services.Fatal

/-- What has been shown so far. -/
structure Showing (c : Client) (states : List ClientState) (k : Nat) (failed : Bool) : Prop where
  texts : stateTexts c.events = states.map ClientState.text
  phases : lifecycleTexts c.events = (lifecycles.take k).map RuntimeState.text
  errors : errorTexts c.events ≠ [] ↔ failed = true
  start : ∀ s ∈ states.head?, s = .starting
  chain : List.IsChain (fun s s' => Follows s s' = true) states

/-- The path so far leads to where the main thread is. -/
def Documents (services : Services) (c : Client) : Prop :=
  ∃ states, Showing c states c.main.phase (c.main = .returned 1) ∧
    c.main.shows states.getLast? ∧ Passed services c.main

section Steps

variable {c : Client} {states : List ClientState} {last : Option ClientState} {k : Nat}
  {failed : Bool} {services : Services} {script : Heartbeat.Script}
  {parses : ServerMessage → Bool}

theorem stateTexts_append (es es' : List ClientEvent) :
    stateTexts (es ++ es') = stateTexts es ++ stateTexts es' := List.filterMap_append

theorem lifecycleTexts_append (es es' : List ClientEvent) :
    lifecycleTexts (es ++ es') = lifecycleTexts es ++ lifecycleTexts es' := List.filterMap_append

theorem errorTexts_append (es es' : List ClientEvent) :
    errorTexts (es ++ es') = errorTexts es ++ errorTexts es' := List.filterMap_append

/-- Reports about services other than the state store show no state. -/
theorem stateTexts_service {service : Bytes} (hservice : service ≠ ascii "client-state")
    (status message : Bytes) : stateTexts [.service service status message] = [] := by
  simp only [stateTexts, List.filterMap_cons, if_neg hservice, List.filterMap_nil]

theorem stateTexts_state (status message : Bytes) :
    stateTexts [.service (ascii "client-state") status message] = [message] := by
  simp only [stateTexts, List.filterMap_cons, if_true, List.filterMap_nil]

/-- What shows nothing leaves the path as it is. -/
theorem Showing.emit (h : Showing c states k failed) {es : List ClientEvent}
    (hstates : stateTexts es = []) (hphases : lifecycleTexts es = [])
    (herrors : errorTexts es = []) : Showing (c.emit es) states k failed where
  texts := by rw [Client.emit, stateTexts_append, hstates, List.append_nil, h.texts]
  phases := by rw [Client.emit, lifecycleTexts_append, hphases, List.append_nil, h.phases]
  errors := by
    rw [Client.emit, errorTexts_append, herrors, List.append_nil]
    exact h.errors
  start := h.start
  chain := h.chain

theorem Showing.report (h : Showing c states k failed) (service : Bytes) (result : ServiceResult)
    (hservice : service ≠ ascii "client-state") :
    Showing (c.report service result) states k failed :=
  h.emit (stateTexts_service hservice _ _) rfl rfl

/-- The next state of the path. -/
theorem Showing.setState (h : Showing c states k failed) (state : ClientState)
    (hstart : states.getLast? = none → state = .starting)
    (hnext : ∀ last ∈ states.getLast?, Follows last state = true) :
    Showing (c.setState state) (states ++ [state]) k failed where
  texts := by
    rw [Client.setState, Client.emit, stateTexts_append, stateTexts_state, h.texts,
      List.map_append, List.map_singleton]
  phases := by
    rw [Client.setState, Client.emit, lifecycleTexts_append, h.phases]
    exact List.append_nil _
  errors := by
    rw [Client.setState, Client.emit, errorTexts_append]
    exact (iff_of_eq (congrArg (· ≠ []) (List.append_nil _))).trans h.errors
  -- The first state of a path is also its last one as long as it is the only one.
  start := by
    cases states with
    | nil => exact fun s hs => (Option.some.inj hs) ▸ hstart rfl
    | cons s states => exact h.start
  chain := List.isChain_append.mpr ⟨h.chain, List.isChain_singleton _,
    fun last hlast s hs => (Option.some.inj hs) ▸ hnext last hlast⟩

/-- The next state of the process. -/
theorem Showing.transitionTo (h : Showing c states k failed) (state : RuntimeState)
    (hnext : lifecycles[k]? = some state) :
    Showing (c.transitionTo state) states (k + 1) failed where
  texts := by
    rw [Client.transitionTo, Client.emit, stateTexts_append, h.texts]
    exact List.append_nil _
  phases := by
    rw [Client.transitionTo, Client.emit, lifecycleTexts_append, h.phases, List.take_add_one,
      hnext, List.map_append]
    rfl
  errors := by
    rw [Client.transitionTo, Client.emit, errorTexts_append]
    exact (iff_of_eq (congrArg (· ≠ []) (List.append_nil _))).trans h.errors
  start := h.start
  chain := h.chain

/-- The error that ends a run. -/
theorem Showing.fail (h : Showing c states k failed) (message : Bytes) :
    Showing (c.emit [.error message]) states k true where
  texts := by
    rw [Client.emit, stateTexts_append, h.texts]
    exact List.append_nil _
  phases := by
    rw [Client.emit, lifecycleTexts_append, h.phases]
    exact List.append_nil _
  errors := by
    rw [Client.emit, errorTexts_append]
    exact iff_of_true (List.append_ne_nil_of_right_ne_nil _ (List.cons_ne_nil _ _)) rfl
  start := h.start
  chain := h.chain

/-- Nothing but the events matters for what is shown. -/
theorem Showing.congr (h : Showing c states k failed) {c' : Client}
    (hevents : c'.events = c.events) : Showing c' states k failed :=
  ⟨by rw [hevents]; exact h.texts, by rw [hevents]; exact h.phases,
    by rw [hevents]; exact h.errors, h.start, h.chain⟩

/-- The path has led so far, and there has been no error. -/
def Shown (c : Client) (last : Option ClientState) (k : Nat) : Prop :=
  ∃ states, Showing c states k false ∧ states.getLast? = last

theorem Shown.report (h : Shown c last k) (service : Bytes) (result : ServiceResult)
    (hservice : service ≠ ascii "client-state") :
    Shown (c.report service result) last k := by
  rcases h with ⟨states, h, hlast⟩
  exact ⟨states, h.report service result hservice, hlast⟩

theorem Shown.setState (h : Shown c last k) (state : ClientState)
    (hstart : last = none → state = .starting)
    (hnext : ∀ l ∈ last, Follows l state = true) :
    Shown (c.setState state) (some state) k := by
  rcases h with ⟨states, h, rfl⟩
  exact ⟨states ++ [state], h.setState state hstart hnext, List.getLast?_concat⟩

theorem Shown.follow {l : ClientState} (h : Shown c (some l) k) (state : ClientState)
    (hnext : Follows l state = true) : Shown (c.setState state) (some state) k :=
  h.setState state (fun hnone => absurd hnone (Option.some_ne_none l))
    (fun _ hl => (Option.some.inj hl) ▸ hnext)

theorem Shown.transitionTo (h : Shown c last k) (state : RuntimeState)
    (hnext : lifecycles[k]? = some state) : Shown (c.transitionTo state) last (k + 1) := by
  rcases h with ⟨states, h, hlast⟩
  exact ⟨states, h.transitionTo state hnext, hlast⟩

theorem Shown.congr (h : Shown c last k) {c' : Client} (hevents : c'.events = c.events) :
    Shown c' last k := by
  rcases h with ⟨states, h, hlast⟩
  exact ⟨states, h.congr hevents, hlast⟩

/-- The main thread goes on, having shown what it shows there. -/
theorem Shown.moveTo (h : Shown c last k) {c' : Client} (hevents : c'.events = c.events)
    (hk : c'.main.phase = k) (hmain : c'.main ≠ .returned 1) (hshows : c'.main.shows last)
    (hp : Passed services c'.main) : Documents services c' := by
  rcases h with ⟨states, h, rfl⟩
  refine ⟨states, ?_, hshows, hp⟩
  rw [decide_eq_false hmain, hk]
  exact h.congr hevents

theorem Shown.goTo (h : Shown c last k) (main : MainPc) (hk : main.phase = k)
    (hmain : main ≠ .returned 1) (hshows : main.shows last) (hp : Passed services main) :
    Documents services (c.goTo main) :=
  h.moveTo rfl hk hmain hshows hp

/-- The main thread gives up. -/
theorem Shown.fail (h : Shown c last 1) (message : Bytes) (hfatal : services.Fatal) :
    Documents services ((c.emit [.error message]).goTo (.returned 1)) := by
  rcases h with ⟨states, h, -⟩
  exact ⟨states, (h.fail message).congr rfl, trivial, rfl, hfatal⟩

/-- Where the main thread is, seen from what has been shown. -/
theorem shown_of_documents (h : Documents services c) (hmain : c.main ≠ .returned 1) :
    ∃ last, Shown c last c.main.phase ∧ c.main.shows last ∧ Passed services c.main := by
  rcases h with ⟨states, h, hshows, hp⟩
  rw [decide_eq_false hmain] at h
  exact ⟨states.getLast?, ⟨states, h, rfl⟩, hshows, hp⟩

theorem documents_start (h : Shown c none 0) : Documents services (c.start services) := by
  have hstarting := ((h.transitionTo .initializing rfl).setState .starting (fun _ => rfl)
    (fun l hl => absurd hl (Option.not_mem_none l))).report (ascii "configuration")
      services.configuration (by decide)
  unfold Client.start
  dsimp only
  split
  · rename_i hfailed
    exact hstarting.fail _ (Or.inl hfailed)
  · rename_i hloaded
    exact ((hstarting.report _ _ (by decide)).follow .initializing rfl).goTo .services rfl
      (by decide) rfl hloaded

theorem documents_startServices (h : Shown c (some .initializing) 1)
    (hloaded : services.configuration.status ≠ .failed) :
    Documents services (c.startServices services) := by
  have hcache := h.report (ascii "cache") services.cache (by decide)
  unfold Client.startServices
  dsimp only
  split
  · rename_i hfailed
    exact hcache.fail _ (Or.inr hfailed)
  · rename_i hopened
    have hgame := ((hcache.report (ascii "network") services.network (by decide)).report
      (ascii "game-integration") services.gameInit (by decide)).report (ascii "game-detection")
        services.gameDetection (by decide)
    exact (hgame.follow .checkingUpdate rfl).goTo .connecting rfl (by decide) rfl
      (fun hfatal => hfatal.elim hloaded hopened)

theorem documents_connect (h : Shown c (some .checkingUpdate) 1) (hp : ¬ services.Fatal) :
    Documents services (c.connect services) := by
  have hstate := h.follow .connecting rfl
  unfold Client.connect
  dsimp only
  split
  · exact (hstate.report _ _ (by decide)).goTo .unconnected rfl (by decide) (Or.inl rfl) hp
  -- A connection shows nothing until the server has answered.
  · split
    · exact hstate.moveTo rfl rfl MainPc.noConfusion rfl hp
    · exact (hstate.report _ _ (by decide)).goTo .unconnected rfl (by decide) (Or.inl rfl) hp

/-- The connection is given up. -/
theorem documents_giveUp (h : Shown c last 1) {service : Bytes}
    (hservice : service ≠ ascii "client-state") (message : Bytes)
    (hlast : last = some .connecting ∨ last = some .authenticating) (hp : ¬ services.Fatal) :
    Documents services (c.giveUp service message) :=
  (h.report service ⟨.failed, message⟩ hservice).moveTo rfl rfl MainPc.noConfusion hlast hp

theorem documents_rejected (h : Shown c (some .connecting) 1) (hp : ¬ services.Fatal) :
    Documents services c.rejected :=
  documents_giveUp h (by decide) _ (Or.inl rfl) hp

theorem documents_unauthenticated (h : Shown c (some .authenticating) 1)
    (hp : ¬ services.Fatal) : Documents services c.unauthenticated :=
  documents_giveUp h (by decide) _ (Or.inr rfl) hp

/-- A request of the main thread. -/
theorem documents_request (h : Shown c last 1) (line : Line) (replyType : JsString) (sent : Bool)
    (waits : MainPc) (fails : Client → Client) (hk : waits.phase = 1) (hmain : waits ≠ .returned 1)
    (hshows : waits.shows last) (hp : Passed services waits)
    (hfails : Documents services (fails (c.erase replyType))) :
    Documents services (c.request line replyType sent waits fails) := by
  unfold Client.request
  cases sent with
  | true =>
      rw [if_pos rfl]
      exact h.moveTo rfl hk hmain hshows hp
  | false => exact hfails

theorem documents_onHelloAck (reply : Option ServerMessage) (h : Shown c (some .connecting) 1)
    (hp : ¬ services.Fatal) : Documents services (c.onHelloAck reply) := by
  unfold Client.onHelloAck
  split
  · exact (h.report _ _ (by decide)).goTo .authRequest rfl (by decide) rfl hp
  · exact documents_rejected h hp

theorem documents_onAuthResult (reply : Option ServerMessage)
    (h : Shown c (some .authenticating) 1) (hp : ¬ services.Fatal) :
    Documents services (c.onAuthResult reply) := by
  unfold Client.onAuthResult
  split
  · split
    · exact ((h.report (ascii "authentication") _ (by decide)).report (ascii "entity-created") _
        (by decide)).moveTo rfl rfl MainPc.noConfusion rfl hp
    · exact documents_unauthenticated h hp
  · exact documents_unauthenticated h hp

theorem documents_withoutManifest (h : Shown c (some .downloadingResources) 1)
    (hp : ¬ services.Fatal) : Documents services c.withoutManifest :=
  (h.report _ _ (by decide)).goTo (.loading false) rfl (by decide) (Or.inr (Or.inr rfl)) hp

theorem documents_onManifest (reply : Option ServerMessage)
    (h : Shown c (some .downloadingResources) 1) (hp : ¬ services.Fatal) :
    Documents services (c.onManifest reply) := by
  unfold Client.onManifest
  split
  · exact h.goTo .applying rfl (by decide) rfl hp
  · exact documents_withoutManifest h hp

theorem documents_applyManifest (h : Shown c (some .downloadingResources) 1)
    (hp : ¬ services.Fatal) : Documents services (c.applyManifest services) := by
  unfold Client.applyManifest
  split
  · exact (h.report _ _ (by decide)).goTo (.loading false) rfl (by decide) (Or.inr (Or.inr rfl)) hp
  · split
    · exact h.moveTo rfl rfl MainPc.noConfusion rfl hp
    · exact (h.report _ _ (by decide)).goTo (.loading _) rfl MainPc.noConfusion
        (Or.inr (Or.inr rfl)) hp

theorem documents_withoutAck (h : Shown c (some .loadingResources) 1) (hp : ¬ services.Fatal) :
    Documents services c.withoutAck :=
  (h.report _ _ (by decide)).goTo .settling rfl (by decide) rfl hp

theorem documents_load (manifestApplied sent : Bool) (h : Shown c last 1)
    (hlast : (MainPc.loading manifestApplied).shows last) (hp : ¬ services.Fatal) :
    Documents services (c.load script manifestApplied sent) := by
  have hstate : Shown (c.setState .loadingResources) (some .loadingResources) 1 := by
    rcases hlast with rfl | rfl | rfl <;> exact h.follow .loadingResources rfl
  unfold Client.load
  cases manifestApplied with
  | true =>
      have hreport := hstate.report (ascii "resource-loading") (Client.loadResult script)
        (by decide)
      rw [if_pos rfl]
      dsimp only
      split
      · exact documents_request hreport _ _ sent .readyReply _ rfl (by decide) rfl hp
          (documents_withoutAck (hreport.congr rfl) hp)
      · exact hreport.goTo .settling rfl (by decide) rfl hp
  | false =>
      rw [if_neg Bool.false_ne_true]
      exact (hstate.report _ _ (by decide)).goTo .settling rfl (by decide) rfl hp

theorem documents_onReadyAck (reply : Option ServerMessage)
    (h : Shown c (some .loadingResources) 1) (hp : ¬ services.Fatal) :
    Documents services (c.onReadyAck reply) := by
  unfold Client.onReadyAck
  split
  · exact (h.report _ _ (by decide)).goTo .settling rfl (by decide) rfl hp
  · exact documents_withoutAck h hp

theorem documents_settle (h : Shown c (some .loadingResources) 1) (hp : ¬ services.Fatal) :
    Documents services c.settle := by
  have hready := (h.transitionTo .ready rfl).follow .ready rfl
  have hbeat : ∀ c : Client, c.startHeartbeat.events = c.events := fun c => by
    unfold Client.startHeartbeat
    split <;> rfl
  have hrep : ∀ c : Client, c.startReplication.events = c.events := fun c => by
    unfold Client.startReplication
    split <;> rfl
  exact ((hready.congr (hbeat _)).congr (hrep _)).goTo .idle rfl (by decide) rfl hp

theorem documents_close (h : Shown c (some .disconnecting) 3) (hp : ¬ services.Fatal) :
    Documents services c.close := by
  have hstopped : Shown ({ c with lifecycle := .stopped, connected := false }.setState .stopped)
      (some .stopped) 3 :=
    Shown.congr (h.follow .stopped rfl) rfl
  exact (hstopped.transitionTo .stopped rfl).moveTo rfl rfl
    (show MainPc.returned 0 ≠ .returned 1 by decide) rfl hp

/-- The control input ends. -/
theorem documents_endOfInput (h : Documents services c) : Documents services c.endOfInput := by
  unfold Client.endOfInput
  split
  · rename_i hmain
    rcases shown_of_documents h (by rw [hmain]; decide) with ⟨last, h, hlast, hp⟩
    rw [hmain] at h hlast hp
    cases (show last = some .ready from hlast)
    have hstate : Shown ({ c with lifecycle := .shuttingDown }.setState .disconnecting)
        (some .disconnecting) 2 :=
      Shown.congr (h.follow .disconnecting rfl) rfl
    exact (hstate.transitionTo .shuttingDown rfl).moveTo rfl rfl MainPc.noConfusion rfl hp
  · exact h

/-- What shows nothing and leaves the main thread where it is. -/
theorem documents_congr (h : Documents services c) {c' : Client} (hmain : c'.main = c.main)
    (hevents : c'.events = c.events) : Documents services c' := by
  unfold Documents at h ⊢
  rw [hmain]
  rcases h with ⟨states, h, hshows, hp⟩
  exact ⟨states, h.congr hevents, hshows, hp⟩

theorem documents_report (h : Documents services c) {service : Bytes}
    (hservice : service ≠ ascii "client-state") (result : ServiceResult) :
    Documents services (c.report service result) := by
  rcases h with ⟨states, h, hshows, hp⟩
  exact ⟨states, h.report service result hservice, hshows, hp⟩

/-- A wait of the main thread goes on or is over. -/
theorem documents_reply {replyType : JsString} {expired : Bool}
    (f : Client → Option ServerMessage → Client) (h : Documents services c)
    (hf : ∀ (c' : Client) (reply : Option ServerMessage), c'.events = c.events →
      Documents services (f c' reply)) :
    Documents services (match c.reply parses replyType expired with
      | some reply => f (c.erase replyType) reply
      | none => c) := by
  split
  · exact hf _ _ rfl
  · exact h

/-- A step of the main thread. -/
theorem documents_mainStep (sent expired : Bool) (hdoc : Documents services c) :
    Documents services (c.mainStep services script parses sent expired) := by
  -- A run that has failed does not go on.
  by_cases hfailed : c.main = .returned 1
  · unfold Client.mainStep
    rw [hfailed]
    exact hdoc
  · rcases shown_of_documents hdoc hfailed with ⟨last, h, hlast, hp⟩
    unfold Client.mainStep
    -- The last state shown is known from the place, and the next one follows from it.
    cases hmain : c.main with
    | starting =>
        rw [hmain] at h hlast
        cases (show last = none from hlast)
        exact documents_start h
    | services =>
        rw [hmain] at h hlast hp
        cases (show last = some .initializing from hlast)
        exact documents_startServices h hp
    | connecting =>
        rw [hmain] at h hlast hp
        cases (show last = some .checkingUpdate from hlast)
        exact documents_connect h hp
    | helloRequest =>
        rw [hmain] at h hlast hp
        cases (show last = some .connecting from hlast)
        exact documents_request h _ _ sent .helloReply _ rfl (by decide) rfl hp
          (documents_rejected (Shown.congr h rfl) hp)
    | helloReply =>
        rw [hmain] at h hlast hp
        cases (show last = some .connecting from hlast)
        exact documents_reply Client.onHelloAck hdoc
          (fun _ reply hevents => documents_onHelloAck reply (h.congr hevents) hp)
    | authRequest =>
        rw [hmain] at h hlast hp
        cases (show last = some .connecting from hlast)
        have hstate := Shown.follow h .authenticating rfl
        exact documents_request hstate _ _ sent .authReply _ rfl (by decide) rfl hp
          (documents_unauthenticated (Shown.congr hstate rfl) hp)
    | authReply =>
        rw [hmain] at h hlast hp
        cases (show last = some .authenticating from hlast)
        exact documents_reply Client.onAuthResult hdoc
          (fun _ reply hevents => documents_onAuthResult reply (h.congr hevents) hp)
    | manifestRequest =>
        rw [hmain] at h hlast hp
        cases (show last = some .authenticating from hlast)
        have hstate := Shown.follow h .downloadingResources rfl
        exact documents_request hstate _ _ sent .manifestReply _ rfl (by decide) rfl hp
          (documents_withoutManifest (hstate.congr rfl) hp)
    | manifestReply =>
        rw [hmain] at h hlast hp
        cases (show last = some .downloadingResources from hlast)
        exact documents_reply Client.onManifest hdoc
          (fun _ reply hevents => documents_onManifest reply (h.congr hevents) hp)
    | applying =>
        rw [hmain] at h hlast hp
        cases (show last = some .downloadingResources from hlast)
        exact documents_applyManifest h hp
    -- Two states lead here, and the next one follows from either.
    | unconnected =>
        rw [hmain] at h hlast hp
        have hseen : last = some .connecting ∨ last = some .authenticating := hlast
        have hany : (MainPc.loading false).shows last := Or.imp_right Or.inl hseen
        exact (h.report (ascii "resources") _ (by decide)).goTo (.loading false) rfl (by decide)
          hany hp
    | loading manifestApplied =>
        rw [hmain] at h hlast hp
        exact documents_load manifestApplied sent h hlast hp
    | readyReply =>
        rw [hmain] at h hlast hp
        cases (show last = some .loadingResources from hlast)
        exact documents_reply Client.onReadyAck hdoc
          (fun _ reply hevents => documents_onReadyAck reply (h.congr hevents) hp)
    | settling =>
        rw [hmain] at h hlast hp
        cases (show last = some .loadingResources from hlast)
        exact documents_settle h hp
    | idle => exact hdoc
    -- The threads show nothing, so joining them leaves the path alone.
    | joiningHeartbeat =>
        rw [hmain] at h hlast hp
        dsimp only
        unfold Client.joinHeartbeat
        split
        · exact h.moveTo rfl rfl MainPc.noConfusion hlast hp
        · exact hdoc
    | joiningReplication =>
        rw [hmain] at h hlast hp
        dsimp only
        unfold Client.joinReplication
        split
        · cases c.connectedToServer with
          | true => exact h.goTo .requestingDisconnect rfl (by decide) hlast hp
          | false => exact h.goTo .closing rfl (by decide) hlast hp
        · exact hdoc
    | requestingDisconnect =>
        rw [hmain] at h hlast hp
        exact h.moveTo rfl rfl MainPc.noConfusion hlast hp
    | disconnect =>
        rw [hmain] at h hlast hp
        cases sent with
        | true => exact h.moveTo rfl rfl MainPc.noConfusion hlast hp
        | false => exact h.goTo .closing rfl (by decide) hlast hp
    | closing =>
        rw [hmain] at h hlast hp
        cases (show last = some .disconnecting from hlast)
        exact documents_close h hp
    | returned exitCode => exact hdoc
    | aborted => exact hdoc

/-- A step of the heartbeat thread shows nothing. -/
theorem heartbeatStep_events (sent expired : Bool) :
    (c.heartbeatStep parses sent expired).main = c.main ∧
      (c.heartbeatStep parses sent expired).events = c.events := by
  unfold Client.heartbeatStep
  split
  · exact ⟨rfl, rfl⟩
  · split
    · exact ⟨rfl, rfl⟩
    · split <;> exact ⟨rfl, rfl⟩
  · split <;> exact ⟨rfl, rfl⟩
  · exact ⟨rfl, rfl⟩

/-- Nor does a step of the replication thread. -/
theorem replicationStep_events (state : Option JsValue) (sent : Bool) :
    (c.replicationStep state sent).main = c.main ∧
      (c.replicationStep state sent).events = c.events := by
  unfold Client.replicationStep
  split
  · exact ⟨rfl, rfl⟩
  · exact ⟨rfl, rfl⟩
  · split
    · cases sent <;> exact ⟨rfl, rfl⟩
    · exact ⟨rfl, rfl⟩
  · exact ⟨rfl, rfl⟩

/-- A message of the server shows no state. -/
theorem documents_onDispatch (m : ServerMessage) (h : Documents services c) :
    Documents services (c.onDispatch parses m) := by
  unfold Client.onDispatch
  split
  · unfold Client.onMessage
    split
    · exact h
    · dsimp only
      split <;> exact documents_report h (by decide) _
    · exact documents_congr h rfl rfl
  · exact h

/-- Nor does an entity that comes or goes. -/
theorem documents_onEntity (created : Bool) (id : Bytes) (h : Documents services c) :
    Documents services (c.onEntity created id) := by
  unfold Client.onEntity
  split
  · cases created <;> exact documents_report h (by decide) _
  · exact h

/-- Every step keeps to the path. -/
theorem documents_act (a : ClientAction) (h : Documents services c) :
    Documents services (act services script parses c a) := by
  cases a with
  | main sent expired => exact documents_mainStep sent expired h
  | endOfInput => exact documents_endOfInput h
  | heartbeat sent expired =>
      exact documents_congr h (heartbeatStep_events sent expired).1
        (heartbeatStep_events sent expired).2
  | replication state sent =>
      exact documents_congr h (replicationStep_events state sent).1
        (replicationStep_events state sent).2
  | dispatch m => exact documents_onDispatch m h
  | entity created id => exact documents_onEntity created id h

theorem documents_init : Documents services Client.init :=
  ⟨[], ⟨rfl, rfl, iff_of_false (fun h => h rfl) Bool.false_ne_true,
    fun s hs => absurd hs (Option.not_mem_none s), List.isChain_nil⟩, rfl, trivial⟩

/-- Where the main thread is tells how the run has gone. -/
theorem documented_of_documents (h : Documents services c) : Documented services c := by
  rcases h with ⟨states, h, hshows, hp⟩
  have hreturned : ∀ exitCode, c.main = .returned exitCode → exitCode = 0 ∨ exitCode = 1 := by
    intro exitCode hmain
    rw [hmain] at hp
    cases exitCode with
    | zero => exact Or.inl rfl
    | succ exitCode => exact Or.inr hp.1
  refine ⟨⟨states, h.texts, h.start, h.chain, ?_⟩, ⟨c.main.phase, h.phases, ?_⟩,
    h.errors.trans (decide_eq_true_iff), ?_, ?_, hreturned⟩
  · intro hmain
    rw [hmain] at hshows
    exact hshows
  · intro hmain
    rw [hmain]
    rfl
  · intro hmain
    rw [hmain] at hp
    exact hp.2
  · intro hmain
    rw [hmain] at hp
    exact hp

/-- What a run shows, whatever the server says and whichever thread comes to
    its turn when. -/
theorem documented_run (services : Services) (script : Heartbeat.Script)
    (parses : ServerMessage → Bool) (as : List ClientAction) :
    Documented services (as.foldl (act services script parses) Client.init) :=
  documented_of_documents (Run.foldl_inv (act services script parses) (Documents services)
    (fun _ a h => documents_act a h) as Client.init documents_init)

end Steps

end Runtime

end MzzPlork
