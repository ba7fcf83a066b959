import MzzPlork.Base.Run
import MzzPlork.Core.ClientThreads

/-!
# Events Before the Subscription

Which of the server's first events reach the client's replication.

The server sends the players already there right behind `auth_result`. The
reader thread dispatches them as they come, while the main thread still has
to wake up, build the replication and subscribe its handlers. Nothing holds
an event back for a handler that is not there yet.

What has been delivered, what the reader is about to deliver and what the
remaining messages call for add up to a list (`owed`). A turn never adds to
it, and takes something from it exactly when the reader publishes an event
whose handler has not been subscribed. So the list delivered in the end is
the whole list if and only if that never happens.

## Main definitions

* `expected`: The call of the replication a message asks for.
* `owed`: What has been or still can be delivered.
* `Subscribed`: The turns that publish no event too early.

## Theorems

* `handlers_step`: The subscriptions are decided by how far the main thread is.
* `owed_step`: What a turn does to what is owed.
* `delivered_iff`: Everything is delivered exactly when nothing is published
  too early.
-/

namespace MzzPlork

namespace Threads

/-- The handler of the replication for an event type. -/
def replicationHandler (eventType : Bytes) : Option Handler :=
  if eventType = ascii "player_joined" then some .onPlayerJoined
  else if eventType = ascii "player_left" then some .onPlayerLeft
  else if eventType = ascii "player_state" then some .onPlayerState
  else none

/-- A handler of the replication, as opposed to the one that only logs. -/
def Handler.isReplication (h : Handler) : Bool :=
  match h with
  | .logPlayerState => false
  | .onPlayerJoined | .onPlayerLeft | .onPlayerState => true

/-- The type of an event. -/
def eventType (o : ClientObject) : Bytes := o.stringAt (ascii "eventType") []

/-- What an event carries. -/
def eventData (o : ClientObject) : ClientObject :=
  ((o.lookup (ascii "data")).getD .null).objectOrEmpty

/-- The call of the replication a message asks for, if any. -/
def expected (m : ServerMessage) : List (Handler × ClientObject) :=
  if m.type = ascii "event" then
    match m.payload with
    | none => []
    | some o => (replicationHandler (eventType o)).toList.map (fun h => (h, eventData o))
  else []

/-- The subscriptions made so far. -/
def MainPc.subscriptions (pc : MainPc) : List (Bytes × Handler) :=
  match pc with
  | .waiting | .replied _ | .constructed | .failed => []
  | .logSubscribed | .playerCreated => [(ascii "player_state", .logPlayerState)]
  | .joinedSubscribed =>
    [(ascii "player_state", .logPlayerState), (ascii "player_joined", .onPlayerJoined)]
  | .leftSubscribed =>
    [(ascii "player_state", .logPlayerState), (ascii "player_joined", .onPlayerJoined),
      (ascii "player_left", .onPlayerLeft)]
  | .running =>
    [(ascii "player_state", .logPlayerState), (ascii "player_joined", .onPlayerJoined),
      (ascii "player_left", .onPlayerLeft), (ascii "player_state", .onPlayerState)]

namespace Client

/-- The calls the replication has received, in order. -/
def replicated (c : Client) : List (Handler × ClientObject) :=
  c.delivered.filter (fun call => call.1.isReplication)

/-- The replication's calls in the reader's copy. -/
def inFlight (c : Client) : List (Handler × ClientObject) :=
  (c.toInvoke.filter Handler.isReplication).map (fun h => (h, c.data))

/-- What has been delivered, is being delivered or may still be. -/
def owed (c : Client) : List (Handler × ClientObject) :=
  c.replicated ++ (c.inFlight ++ c.incoming.flatMap expected)

/-- The subscriptions are those of the main thread's position. -/
def InStep (c : Client) : Prop := c.handlers = c.main.subscriptions

end Client

/-- The turn does not publish an event whose handler is missing. -/
def Subscribed (c : Client) (t : Turn) : Prop :=
  t = .reader → c.toInvoke = [] → ∀ m, c.incoming.head? = some m →
    ∀ call ∈ expected m, call.1 ∈ c.handlers.map Prod.snd

/-- The subscriptions are decided by how far the main thread is. -/
theorem handlers_step (c : Client) (t : Turn) (h : c.InStep) : (step c t).InStep := by
  cases t with
  | reader =>
      -- The reader thread subscribes to nothing.
      simp only [step, Client.readerStep]
      split
      · exact h
      · split
        · exact h
        · simp only [Client.onMessage]
          split
          · split
            · exact h
            · exact h
          · split
            · exact h
            · exact h
  | main =>
      rw [Client.InStep] at h
      simp only [step, Client.mainStep]
      -- Four of the turns of the main thread subscribe, each to the next event.
      cases hm : c.main with
      | waiting =>
          rw [hm] at h
          simp only []
          split
          · rw [Client.InStep, hm]
            exact h
          · exact h
      | replied payload =>
          rw [hm] at h
          cases payload with
          | none => exact h
          | some authResult =>
              simp only []
              split
              · exact h
              · exact h
      | running =>
          rw [hm] at h
          rw [Client.InStep, hm]
          exact h
      | failed =>
          rw [hm] at h
          rw [Client.InStep, hm]
          exact h
      | constructed =>
          rw [hm] at h
          simp only [Client.InStep, Client.subscribe, h]
          rfl
      | logSubscribed =>
          rw [hm] at h
          exact h
      | playerCreated =>
          rw [hm] at h
          simp only [Client.InStep, Client.subscribe, h]
          rfl
      | joinedSubscribed =>
          rw [hm] at h
          simp only [Client.InStep, Client.subscribe, h]
          rfl
      | leftSubscribed =>
          rw [hm] at h
          simp only [Client.InStep, Client.subscribe, h]
          rfl
  | timeout =>
      rw [Client.InStep] at h
      simp only [step, Client.timeoutStep]
      split
      · rename_i hm
        rw [hm] at h
        exact h
      · exact h

/-- The replication's part of the copy a publication takes. -/
theorem filter_subscriptions (pc : MainPc) (eventType : Bytes) :
    ((pc.subscriptions.filter (fun entry => entry.1 = eventType)).map Prod.snd).filter
        Handler.isReplication
      = (replicationHandler eventType).toList.filter
          (fun h => h ∈ pc.subscriptions.map Prod.snd) := by
  -- For each of the three types the copy is read off the main thread's position.
  by_cases h1 : eventType = ascii "player_joined"
  · subst h1
    cases pc <;> rfl
  · by_cases h2 : eventType = ascii "player_left"
    · subst h2
      cases pc <;> rfl
    · by_cases h3 : eventType = ascii "player_state"
      · subst h3
        cases pc <;> rfl
      · have hnone : replicationHandler eventType = none := by
          rw [replicationHandler, if_neg h1, if_neg h2, if_neg h3]
        rw [hnone]
        cases pc <;>
          simp only [MainPc.subscriptions, List.filter_cons, List.filter_nil, Ne.symm h1,
            Ne.symm h2, Ne.symm h3, decide_false, Bool.false_eq_true, if_false, List.map_nil,
            Option.toList_none]

/-- What a publication puts in flight: the expected call, if its handler is
    there. -/
theorem inFlight_onMessage (c : Client) (m : ServerMessage) (hc : c.InStep)
    (hidle : c.toInvoke = []) :
    (c.onMessage m).inFlight
      = (expected m).filter (fun call => call.1 ∈ c.handlers.map Prod.snd) := by
  have hquiet : c.inFlight = [] := by rw [Client.inFlight, hidle]; rfl
  rw [Client.onMessage, expected]
  by_cases he : m.type = ascii "event"
  · rw [if_pos he, if_pos he]
    cases m.payload with
    | none => exact hquiet
    | some o =>
        have hcopy := filter_subscriptions c.main (eventType o)
        rw [← hc] at hcopy
        simp only [Client.inFlight, Client.publish]
        -- `owed` looks at the replication's part of the copy only.
        rw [← eventType, hcopy, List.filter_map]
        rfl
  · rw [if_neg he, if_neg he]
    split <;> exact hquiet

theorem replicated_onMessage (c : Client) (m : ServerMessage) :
    (c.onMessage m).delivered = c.delivered ∧ (c.onMessage m).incoming = c.incoming := by
  rw [Client.onMessage]
  split
  · split <;> exact ⟨rfl, rfl⟩
  · split <;> exact ⟨rfl, rfl⟩

/-- A turn of the main thread delivers nothing and takes no message. -/
theorem owed_mainStep (c : Client) : c.mainStep.owed = c.owed := by
  rw [Client.mainStep]
  cases c.main with
  | waiting =>
      simp only []
      split <;> rfl
  | replied payload =>
      cases payload with
      | none => rfl
      | some authResult =>
          simp only []
          split <;> rfl
  | _ => rfl

theorem owed_timeoutStep (c : Client) : c.timeoutStep.owed = c.owed := by
  rw [Client.timeoutStep]
  split <;> rfl

/-- A turn that calls a handler moves one call from in flight to delivered. -/
theorem owed_invoke (c : Client) (h : Handler) (rest : List Handler)
    (hcopy : c.toInvoke = h :: rest) : c.readerStep.owed = c.owed := by
  simp only [Client.readerStep, hcopy, Client.owed, Client.replicated, Client.inFlight,
    List.filter_append, List.append_assoc, List.append_cancel_left_eq]
  rw [← List.append_assoc]
  -- The handler called is at the head of the copy, and so the next one delivered.
  congr 1
  cases hr : h.isReplication with
  | true => simp only [List.filter_cons, hr, if_true, List.filter_nil, List.map_cons,
      List.singleton_append]
  | false => simp only [List.filter_cons, hr, Bool.false_eq_true, if_false, List.filter_nil,
      List.nil_append]

/-- A turn never adds to what is owed, and takes nothing exactly when it does
    not publish too early. -/
theorem owed_step (c : Client) (t : Turn) (hc : c.InStep) :
    (step c t).owed.Sublist c.owed ∧ ((step c t).owed = c.owed ↔ Subscribed c t) := by
  have hkeep : ∀ c' : Client, c'.owed = c.owed → Subscribed c t →
      c'.owed.Sublist c.owed ∧ (c'.owed = c.owed ↔ Subscribed c t) := by
    intro c' heq hsub
    rw [heq]
    exact ⟨List.Sublist.refl _, iff_of_true rfl hsub⟩
  cases t with
  | main => exact hkeep _ (owed_mainStep c) (fun ht => Turn.noConfusion ht)
  | timeout => exact hkeep _ (owed_timeoutStep c) (fun ht => Turn.noConfusion ht)
  | reader =>
      cases hcopy : c.toInvoke with
      | cons h rest =>
          exact hkeep _ (owed_invoke c h rest hcopy) (fun _ hidle => by
            rw [hcopy] at hidle
            exact absurd hidle (List.cons_ne_nil h rest))
      | nil =>
          cases hin : c.incoming with
          | nil =>
              refine hkeep _ ?_ (fun _ _ m hm => ?_)
              · simp only [step, Client.readerStep, hcopy, hin]
              · rw [hin] at hm
                exact absurd hm (by simp only [List.head?_nil, reduceCtorEq, not_false_eq_true])
          | cons m rest =>
              -- The message is taken off the queue and its calls put in flight.
              have hstep : step c .reader = ({ c with incoming := rest }).onMessage m := by
                simp only [step, Client.readerStep, hcopy, hin]
              have hflight := inFlight_onMessage { c with incoming := rest } m hc hcopy
              rcases replicated_onMessage { c with incoming := rest } m with ⟨hdel, hrest⟩
              have hafter : (step c .reader).owed = c.replicated
                  ++ ((expected m).filter (fun call => call.1 ∈ c.handlers.map Prod.snd)
                    ++ rest.flatMap expected) := by
                rw [hstep, Client.owed, Client.replicated, hdel, hrest, hflight]
                rfl
              have hbefore : c.owed
                  = c.replicated ++ (expected m ++ rest.flatMap expected) := by
                rw [Client.owed, Client.inFlight, hcopy, hin, List.flatMap_cons]
                rfl
              rw [hafter, hbefore]
              refine ⟨(List.Sublist.refl _).append ((List.filter_sublist).append
                (List.Sublist.refl _)), ?_⟩
              rw [List.append_cancel_left_eq, List.append_cancel_right_eq, List.filter_eq_self]
              constructor
              · intro hall _ _ m' hm' call hcall
                rw [hin, List.head?_cons, Option.some.injEq] at hm'
                rw [← hm'] at hcall
                exact of_decide_eq_true (hall call hcall)
              · intro hsub call hcall
                exact decide_eq_true (hsub rfl hcopy m (by rw [hin]; rfl) call hcall)

/-- Once the reader has dispatched everything, the replication has received
    every player event behind `auth_result`, once and in order, exactly when
    no event was published before its handler was subscribed. -/
theorem delivered_iff (auth : ServerMessage) (events : List ServerMessage) (turns : List Turn)
    (hauth : auth.type = ascii "auth_result")
    (hdone : (turns.foldl step (Client.start (auth :: events))).incoming = [] ∧
      (turns.foldl step (Client.start (auth :: events))).toInvoke = []) :
    (turns.foldl step (Client.start (auth :: events))).replicated = events.flatMap expected ↔
      Run.EachStep step Subscribed (Client.start (auth :: events)) turns := by
  have howed : (Client.start (auth :: events)).owed = events.flatMap expected := by
    -- `auth_result` is no event, so nothing is owed for it.
    have hnone : expected auth = [] := by
      rw [expected, if_neg]
      rw [hauth]
      decide
    rw [Client.owed, Client.start, List.flatMap_cons, hnone]
    rfl
  have hfinal : (turns.foldl step (Client.start (auth :: events))).owed
      = (turns.foldl step (Client.start (auth :: events))).replicated := by
    rw [Client.owed, Client.inFlight, hdone.1, hdone.2]
    exact List.append_nil _
  rw [← hfinal, ← howed]
  exact Run.foldl_eq_iff_eachStep step Client.owed List.Sublist List.Sublist.refl
    (fun _ _ _ h h' => h.trans h') (fun _ _ h h' => h.antisymm h') Client.InStep handlers_step
    (fun c t hc => (owed_step c t hc).1) Subscribed (fun c t hc => (owed_step c t hc).2)
    turns (Client.start (auth :: events)) rfl

section Divergence

/-- A successful `auth_result`. -/
def authResult : ServerMessage := ⟨ascii "auth_result", some [(ascii "ok", .bool true)]⟩

/-- The backfill for one player who is already there. -/
def backfilled : ServerMessage :=
  ⟨ascii "event", some [(ascii "eventType", .str (ascii "player_joined")),
    (ascii "data", .obj [(ascii "playerId", .str (ascii "aaaaaaaa"))])]⟩

/-- The main thread wakes up and subscribes before the reader goes on. -/
def promptTurns : List Turn :=
  [.reader, .main, .main, .main, .main, .main, .main, .main, .reader, .reader]

/-- The reader dispatches both messages before the main thread gets a turn. -/
def eagerTurns : List Turn :=
  [.reader, .reader, .main, .main, .main, .main, .main, .main, .main]

theorem delivered_promptTurns :
    (promptTurns.foldl step (Client.start [authResult, backfilled])).replicated
        = [backfilled].flatMap expected ↔
      Run.EachStep step Subscribed (Client.start [authResult, backfilled]) promptTurns :=
  delivered_iff authResult [backfilled] promptTurns rfl ⟨rfl, rfl⟩

/-- The player who was there first is never delivered. -/
theorem not_delivered_eagerTurns :
    (eagerTurns.foldl step (Client.start [authResult, backfilled])).incoming = [] ∧
      (eagerTurns.foldl step (Client.start [authResult, backfilled])).toInvoke = [] ∧
      (eagerTurns.foldl step (Client.start [authResult, backfilled])).replicated
        ≠ [backfilled].flatMap expected := by
  refine ⟨rfl, rfl, fun h => ?_⟩
  have hlen := congrArg List.length h
  exact absurd hlen (by decide)

end Divergence

end Threads

end MzzPlork
