import MzzPlork.Base.Run
import MzzPlork.Core.Runtime

/-!
# The Order of the Client's Lines

What a client says to the server, whatever the server says to it and whichever
thread comes to its turn when.

The main thread says its part first, one request after the other, and leaves
off where one fails. Heartbeats and states are not sent before the first two
requests have been answered, because the threads that send them start when the
main thread has said its part. They are joined before the farewell is said, so
the farewell is the last line.

## Main definitions

* `preamble`: What the main thread asks for, in order.
* `Orderly`: The order of the lines.
* `Reached`: How much of the preamble has been said where.
* `Stage`: The order, as far as it has come.

## Theorems

* `stage_mainStep`, `stage_act`: Every step keeps to the order.
* `orderly_run`: The lines of a run are in order.
-/

namespace MzzPlork

namespace Runtime

open Server

/-- What the main thread asks for, in order. -/
def preamble : List MessageType := [.hello, .auth, .resourceManifestRequest, .resourcesReady]

/-- A beginning of the preamble, then heartbeats and states, then a farewell.
    Nothing but requests comes before the first two requests. -/
def Orderly (types : List MessageType) : Prop :=
  ∃ (n : Nat) (chatter farewell : List MessageType),
    types = preamble.take n ++ chatter ++ farewell ∧
    (∀ t ∈ chatter, t = .heartbeat ∨ t = .playerState) ∧
    (farewell = [] ∨ farewell = [.disconnect]) ∧
    (chatter ++ farewell ≠ [] → 2 ≤ n)

/-- The types of the lines that were sent. -/
def Client.types (c : Client) : List MessageType := c.said.map Line.type

/-- A thread that will not send any more. -/
def HeartbeatPc.halted (t : HeartbeatPc) : Prop := t = .absent ∨ t = .ended

/-- The same for the other one. -/
def ReplicationPc.halted (t : ReplicationPc) : Prop := t = .absent ∨ t = .ended

/-- How much of the preamble has been said while the main thread says it. -/
def Reached (main : MainPc) (connectedToServer : Bool) (n : Nat) : Prop :=
  match main with
  | .starting | .services | .connecting => n = 0 ∧ connectedToServer = false
  | .helloRequest => n = 0
  | .helloReply | .authRequest => n = 1
  | .authReply | .manifestRequest => n = 2
  | .manifestReply | .applying => n = 3
  | .unconnected => connectedToServer = false
  | .loading true => n = 3
  | .loading false | .settling => connectedToServer = true → 2 ≤ n
  | .readyReply => n = 4
  | _ => False

/-- The threads have not been started, and the main thread has said so much. -/
structure Alone (c : Client) (n : Nat) (b : Bool) : Prop where
  connected : c.connectedToServer = b
  types : c.types = preamble.take n
  heartbeat : c.heartbeat = .absent
  replication : c.replication = .absent
  player : c.player.isSome = true → 2 ≤ n

/-- The main thread listens to its input or waits for the threads to end. -/
structure Chatting (c : Client) (n : Nat) (chatter : List MessageType) : Prop where
  types : c.types = preamble.take n ++ chatter
  kind : ∀ t ∈ chatter, t = .heartbeat ∨ t = .playerState
  spoken : chatter ≠ [] → 2 ≤ n
  heartbeat : ¬ c.heartbeat.halted → 2 ≤ n
  replication : ¬ c.replication.halted → 2 ≤ n
  connected : c.connectedToServer = true → 2 ≤ n

/-- How far the main thread is with the threads while they may be running. -/
def Joined (c : Client) : Prop :=
  match c.main with
  | .idle | .joiningHeartbeat => True
  | .joiningReplication => c.heartbeat.halted
  | .requestingDisconnect | .disconnect =>
    c.heartbeat.halted ∧ c.replication.halted ∧ c.connectedToServer = true
  | _ => False

/-- Nothing is said any more. -/
def Client.Silent (c : Client) : Prop :=
  (c.main = .closing ∨ (∃ exitCode, c.main = .returned exitCode) ∨ c.main = .aborted) ∧
    c.heartbeat.halted ∧ c.replication.halted

/-- The order, as far as it has come. -/
inductive Stage (c : Client) : Prop where
  | alone (n : Nat) (b : Bool) (h : Alone c n b) (hn : Reached c.main b n)
  | chatting (n : Nat) (chatter : List MessageType) (h : Chatting c n chatter) (hj : Joined c)
  | silent (h : c.Silent) (ho : Orderly c.types)

section Steps

variable {c : Client} {n : Nat} {b : Bool} {services : Services} {script : Heartbeat.Script}
  {parses : ServerMessage → Bool}

/-- What is printed says nothing to the server. -/
theorem Alone.emit (h : Alone c n b) (es : List EventChannel.ClientEvent) : Alone (c.emit es) n b :=
  ⟨h.connected, h.types, h.heartbeat, h.replication, h.player⟩

theorem Alone.report (h : Alone c n b) (service : Bytes) (result : ServiceResult) :
    Alone (c.report service result) n b :=
  h.emit _

theorem Alone.setState (h : Alone c n b) (state : ClientState) : Alone (c.setState state) n b :=
  ⟨h.connected, h.types, h.heartbeat, h.replication, h.player⟩

theorem Alone.transitionTo (h : Alone c n b) (state : RuntimeState) :
    Alone (c.transitionTo state) n b :=
  ⟨h.connected, h.types, h.heartbeat, h.replication, h.player⟩

theorem Alone.erase (h : Alone c n b) (replyType : JsString) : Alone (c.erase replyType) n b :=
  ⟨h.connected, h.types, h.heartbeat, h.replication, h.player⟩

/-- The next request of the preamble. -/
theorem Alone.say (h : Alone c n b) (line : Line) (hline : preamble[n]? = some line.type) :
    Alone (c.say line) (n + 1) b where
  connected := h.connected
  types := by
    rw [Client.types, Client.say, List.map_append, ← Client.types, h.types, List.take_add_one,
      hline]
    rfl
  heartbeat := h.heartbeat
  replication := h.replication
  player := fun hp => Nat.le_succ_of_le (h.player hp)

/-- The main thread goes on, and still says the preamble. -/
theorem Alone.goTo (h : Alone c n b) (main : MainPc) (hn : Reached main b n) :
    Stage (c.goTo main) :=
  .alone n _ ⟨h.connected, h.types, h.heartbeat, h.replication, h.player⟩ hn

theorem orderly_take {types : List MessageType} (h : types = preamble.take n) : Orderly types :=
  ⟨n, [], [], by rw [h, List.append_nil, List.append_nil],
    fun _ ht => absurd ht List.not_mem_nil, Or.inl rfl, fun hne => absurd rfl hne⟩

/-- It ends here, before there are any threads. -/
theorem Alone.stop (h : Alone c n b) (main : MainPc)
    (hmain : (∃ exitCode, main = .returned exitCode) ∨ main = .aborted) : Stage (c.goTo main) :=
  .silent ⟨Or.inr hmain, Or.inl h.heartbeat, Or.inl h.replication⟩ (orderly_take h.types)

/-- The connection is given up for good. -/
theorem stage_giveUp (h : Alone c n b) (service message : Bytes) :
    Stage (c.giveUp service message) :=
  .alone n false ⟨rfl, h.types, h.heartbeat, h.replication, h.player⟩ rfl

/-- A request of the main thread. -/
theorem stage_request (h : Alone c n b) (line : Line) (replyType : JsString) (sent : Bool)
    (waits : MainPc) (fails : Client → Client) (hline : preamble[n]? = some line.type)
    (hwaits : Reached waits b (n + 1))
    (hfails : Stage (fails (c.erase replyType))) :
    Stage (c.request line replyType sent waits fails) := by
  unfold Client.request
  cases sent with
  | true => exact ((h.erase replyType).say line hline).goTo waits hwaits
  | false => exact hfails

/-- No manifest, but a session. -/
theorem stage_withoutManifest (h : Alone c n b) (hn : 2 ≤ n) : Stage c.withoutManifest :=
  (h.report _ _).goTo _ (fun _ => hn)

theorem stage_withoutAck (h : Alone c n b) (hn : 2 ≤ n) : Stage c.withoutAck :=
  (h.report _ _).goTo _ (fun _ => hn)

theorem stage_start (h : Alone c 0 false) :
    Stage (c.start services) := by
  have hloaded := ((h.transitionTo .initializing).setState .starting).report
    (ascii "configuration") services.configuration
  unfold Client.start
  dsimp only
  split
  · exact (hloaded.emit _).stop _ (Or.inl ⟨1, rfl⟩)
  · exact ((hloaded.report _ _).setState _).goTo .services ⟨rfl, rfl⟩

theorem stage_startServices (h : Alone c 0 false) :
    Stage (c.startServices services) := by
  have hcache := h.report (ascii "cache") services.cache
  unfold Client.startServices
  dsimp only
  split
  · exact (hcache.emit _).stop _ (Or.inl ⟨1, rfl⟩)
  · have hgame := ((hcache.report (ascii "network") services.network).report
      (ascii "game-integration") services.gameInit).report (ascii "game-detection")
        services.gameDetection
    exact (hgame.setState .checkingUpdate).goTo .connecting ⟨rfl, rfl⟩

theorem stage_connect (h : Alone c 0 false) :
    Stage (c.connect services) := by
  have hstate := h.setState .connecting
  unfold Client.connect
  dsimp only
  split
  · exact (hstate.report _ _).goTo .unconnected rfl
  · split
    · exact .alone 0 true ⟨rfl, h.types, h.heartbeat, h.replication, h.player⟩ rfl
    · exact (hstate.report _ _).goTo .unconnected rfl

theorem stage_onHelloAck (reply : Option ServerMessage) (h : Alone c 1 b) :
    Stage (c.onHelloAck reply) := by
  unfold Client.onHelloAck
  split
  · exact (h.report _ _).goTo _ rfl
  · exact stage_giveUp h _ _

theorem stage_onAuthResult (reply : Option ServerMessage) (h : Alone c 2 b) :
    Stage (c.onAuthResult reply) := by
  unfold Client.onAuthResult
  split
  · split
    · exact .alone 2 b ⟨h.connected, h.types, h.heartbeat, h.replication,
        fun _ => Nat.le_refl 2⟩ rfl
    · exact stage_giveUp h _ _
  · exact stage_giveUp h _ _

theorem stage_onManifest (reply : Option ServerMessage) (h : Alone c 3 b) :
    Stage (c.onManifest reply) := by
  unfold Client.onManifest
  split
  · exact h.goTo _ rfl
  · exact stage_withoutManifest h (by omega)

theorem stage_applyManifest (h : Alone c 3 b) : Stage (c.applyManifest services) := by
  unfold Client.applyManifest
  split
  · exact (h.report _ _).goTo _ (fun _ => by omega)
  · split
    · exact .silent ⟨Or.inr (Or.inr rfl), Or.inl h.heartbeat, Or.inl h.replication⟩
        (orderly_take h.types)
    · rename_i applied _
      -- Whether the manifest was applied decides what `Reached` asks for.
      refine (h.report _ _).goTo _ ?_
      cases decide (applied.status ≠ .failed) with
      | true => exact rfl
      | false => exact fun _ => by omega

theorem stage_load (manifestApplied sent : Bool) (h : Alone c n b)
    (hn : Reached (.loading manifestApplied) b n) :
    Stage (c.load script manifestApplied sent) := by
  have hstate := h.setState .loadingResources
  unfold Client.load
  cases manifestApplied with
  | true =>
      -- A manifest has come, so all three requests have been sent.
      have hthree : n = 3 := hn
      subst hthree
      have hreport := hstate.report (ascii "resource-loading") (Client.loadResult script)
      rw [if_pos rfl]
      dsimp only
      split
      · exact stage_request hreport _ _ sent _ _ rfl rfl
          (stage_withoutAck (hreport.erase _) (by omega))
      · exact hreport.goTo _ (fun _ => by omega)
  | false =>
      rw [if_neg Bool.false_ne_true]
      exact (hstate.report _ _).goTo _ hn

theorem stage_onReadyAck (reply : Option ServerMessage) (h : Alone c 4 b) :
    Stage (c.onReadyAck reply) := by
  unfold Client.onReadyAck
  split
  · exact (h.report _ _).goTo _ (fun _ => by omega)
  · exact stage_withoutAck h (by omega)

/-- Nobody has said anything beyond the preamble yet. -/
theorem chatting_alone (h : Alone c n b) (hn : b = true → 2 ≤ n) :
    Chatting c n [] where
  types := by rw [List.append_nil, h.types]
  kind := fun _ ht => absurd ht List.not_mem_nil
  spoken := fun hne => absurd rfl hne
  heartbeat := fun hrun => absurd (Or.inl h.heartbeat) hrun
  replication := fun hrun => absurd (Or.inl h.replication) hrun
  connected := fun hc => hn (h.connected.symm.trans hc)

theorem chatting_startHeartbeat {chatter : List MessageType} (h : Chatting c n chatter) :
    Chatting c.startHeartbeat n chatter := by
  unfold Client.startHeartbeat
  split
  · rename_i hc
    exact ⟨h.types, h.kind, h.spoken, fun _ => h.connected hc, h.replication, h.connected⟩
  · exact h

theorem chatting_startReplication {chatter : List MessageType} (h : Chatting c n chatter)
    (hp : c.player.isSome = true → 2 ≤ n) : Chatting c.startReplication n chatter := by
  unfold Client.startReplication
  split
  · rename_i hsome
    exact ⟨h.types, h.kind, h.spoken, h.heartbeat, fun _ => hp hsome, h.connected⟩
  · exact h

/-- The threads start. Each of them needs what comes with the first two
    requests. -/
theorem stage_settle (h : Alone c n b) (hn : b = true → 2 ≤ n) :
    Stage c.settle := by
  have hready := (h.transitionTo .ready).setState .ready
  have hbeat := chatting_startHeartbeat (chatting_alone hready hn)
  -- The player is what it was before the heartbeat thread started.
  have hp : ((c.transitionTo .ready).setState .ready).startHeartbeat.player = c.player := by
    unfold Client.startHeartbeat
    split <;> rfl
  have hboth := chatting_startReplication hbeat (by
    rw [hp]
    exact h.player)
  exact .chatting n [] ⟨hboth.types, hboth.kind, hboth.spoken, hboth.heartbeat, hboth.replication,
    hboth.connected⟩ trivial

theorem Chatting.orderly {chatter : List MessageType} (h : Chatting c n chatter) :
    Orderly c.types :=
  ⟨n, chatter, [], by rw [h.types, List.append_nil], h.kind, Or.inl rfl,
    fun hne => h.spoken (fun hnil => hne (by rw [hnil]; rfl))⟩

/-- The farewell of a client that has a session. -/
theorem Chatting.farewell {chatter : List MessageType} (h : Chatting c n chatter)
    (hc : c.connectedToServer = true) (line : Line) (hline : line.type = .disconnect) :
    Orderly (c.say line).types :=
  ⟨n, chatter, [.disconnect], by
    rw [Client.types, Client.say, List.map_append, ← Client.types, h.types, List.map_singleton,
      hline], h.kind, Or.inr rfl, fun _ => h.connected hc⟩

/-- The end of `Run`, once the main thread is through with its requests. -/
theorem stage_shutdown {chatter : List MessageType} (sent expired : Bool) (h : Chatting c n chatter)
    (hj : Joined c) : Stage (c.mainStep services script parses sent expired) := by
  have hsame : ∀ main : MainPc, Chatting (c.goTo main) n chatter := fun _ =>
    ⟨h.types, h.kind, h.spoken, h.heartbeat, h.replication, h.connected⟩
  unfold Client.mainStep
  cases hmain : c.main with
  | idle => exact .chatting n chatter h hj
  | joiningHeartbeat =>
      dsimp only
      unfold Client.joinHeartbeat
      split
      · rename_i hhalted
        exact .chatting n chatter ⟨h.types, h.kind, h.spoken, h.heartbeat, h.replication,
          h.connected⟩ hhalted
      · exact .chatting n chatter h hj
  | joiningReplication =>
      have hbeat : c.heartbeat.halted := by
        rw [Joined, hmain] at hj
        exact hj
      dsimp only
      unfold Client.joinReplication
      split
      · rename_i hhalted
        cases hc : c.connectedToServer with
        | true => exact .chatting n chatter (hsame _) ⟨hbeat, hhalted, hc⟩
        | false => exact .silent ⟨Or.inl rfl, hbeat, hhalted⟩ h.orderly
      · exact .chatting n chatter h hj
  -- Both threads are joined from here on.
  | requestingDisconnect =>
      rw [Joined, hmain] at hj
      exact .chatting n chatter ⟨h.types, h.kind, h.spoken, h.heartbeat, h.replication,
        h.connected⟩ hj
  | disconnect =>
      rw [Joined, hmain] at hj
      rcases hj with ⟨hbeat, hrep, hc⟩
      cases sent with
      -- Whether or not the farewell can be sent, it is the last line.
      | true => exact .silent ⟨Or.inl rfl, hbeat, hrep⟩ (h.farewell hc _ rfl)
      | false => exact .silent ⟨Or.inl rfl, hbeat, hrep⟩ h.orderly
  | _ =>
      rw [Joined, hmain] at hj
      exact hj.elim

/-- A wait of the main thread goes on or is over. -/
theorem stage_reply {replyType : JsString} {expired : Bool} {main : MainPc}
    (hmain : c.main = main) (f : Client → Option ServerMessage → Client) (h : Alone c n b)
    (hn : Reached main b n)
    (hf : ∀ (c' : Client) (reply : Option ServerMessage), Alone c' n b → Stage (f c' reply)) :
    Stage (match c.reply parses replyType expired with
      | some reply => f (c.erase replyType) reply
      | none => c) := by
  split
  · exact hf _ _ (h.erase _)
  · exact .alone n b h (by rw [hmain]; exact hn)

/-- The preamble. -/
theorem stage_preamble (sent expired : Bool) (h : Alone c n b)
    (hn : Reached c.main b n) :
    Stage (c.mainStep services script parses sent expired) := by
  unfold Client.mainStep
  -- How much has been said at each place, so the next request is the next of the
  -- preamble.
  cases hmain : c.main with
  | starting =>
      rw [hmain] at hn
      cases (show n = 0 from hn.1)
      cases hn.2
      exact stage_start h
  | services =>
      rw [hmain] at hn
      cases (show n = 0 from hn.1)
      cases hn.2
      exact stage_startServices h
  | connecting =>
      rw [hmain] at hn
      cases (show n = 0 from hn.1)
      cases hn.2
      exact stage_connect h
  | helloRequest =>
      rw [hmain] at hn
      cases (show n = 0 from hn)
      exact stage_request h _ _ sent _ _ rfl rfl (stage_giveUp (h.erase _) _ _)
  | helloReply =>
      rw [hmain] at hn
      cases (show n = 1 from hn)
      exact stage_reply hmain Client.onHelloAck h hn (fun _ reply h' => stage_onHelloAck reply h')
  | authRequest =>
      rw [hmain] at hn
      cases (show n = 1 from hn)
      exact stage_request (h.setState _) _ _ sent _ _ rfl rfl
        (stage_giveUp ((h.setState _).erase _) _ _)
  | authReply =>
      rw [hmain] at hn
      cases (show n = 2 from hn)
      exact stage_reply hmain Client.onAuthResult h hn
        (fun _ reply h' => stage_onAuthResult reply h')
  | manifestRequest =>
      rw [hmain] at hn
      cases (show n = 2 from hn)
      exact stage_request (h.setState _) _ _ sent _ _ rfl rfl
        (stage_withoutManifest ((h.setState _).erase _) (by omega))
  | manifestReply =>
      rw [hmain] at hn
      cases (show n = 3 from hn)
      exact stage_reply hmain Client.onManifest h hn (fun _ reply h' => stage_onManifest reply h')
  | applying =>
      rw [hmain] at hn
      cases (show n = 3 from hn)
      exact stage_applyManifest h
  -- No thread will be started without a connection.
  | unconnected =>
      rw [hmain] at hn
      exact (h.report _ _).goTo (.loading false)
        (fun htrue => Bool.noConfusion ((show b = false from hn).symm.trans htrue))
  | loading manifestApplied =>
      rw [hmain] at hn
      exact stage_load manifestApplied sent h hn
  | readyReply =>
      rw [hmain] at hn
      cases (show n = 4 from hn)
      exact stage_reply hmain Client.onReadyAck h hn (fun _ reply h' => stage_onReadyAck reply h')
  | settling =>
      rw [hmain] at hn
      exact stage_settle h hn
  | _ =>
      rw [hmain] at hn
      exact hn.elim

/-- A step of the main thread. -/
theorem stage_mainStep (sent expired : Bool) (h : Stage c) :
    Stage (c.mainStep services script parses sent expired) := by
  cases h with
  | alone n b h hn => exact stage_preamble sent expired h hn
  | chatting n chatter h hj => exact stage_shutdown sent expired h hj
  -- The end of `Shutdown` prints, and nothing is said after it.
  | silent h ho =>
      rcases h with ⟨hmain | ⟨exitCode, hmain⟩ | hmain, hthreads⟩
      · unfold Client.mainStep
        rw [hmain]
        exact .silent ⟨Or.inr (Or.inl ⟨0, rfl⟩), hthreads⟩ ho
      · unfold Client.mainStep
        rw [hmain]
        exact .silent ⟨Or.inr (Or.inl ⟨exitCode, hmain⟩), hthreads⟩ ho
      · unfold Client.mainStep
        rw [hmain]
        exact .silent ⟨Or.inr (Or.inr hmain), hthreads⟩ ho

/-- Nothing but the threads and what was said matters for the order. -/
theorem stage_congr {c' : Client} (h : Stage c) (hmain : c'.main = c.main)
    (hheartbeat : c'.heartbeat = c.heartbeat) (hreplication : c'.replication = c.replication)
    (hconnected : c'.connectedToServer = c.connectedToServer) (hplayer : c'.player = c.player)
    (hsaid : c'.said = c.said) : Stage c' := by
  have htypes : c'.types = c.types := congrArg (List.map Line.type) hsaid
  cases h with
  | alone n b h hn =>
      refine .alone n b ⟨hconnected.trans h.connected, htypes.trans h.types,
        hheartbeat.trans h.heartbeat,
        hreplication.trans h.replication, ?_⟩ (by rw [hmain]; exact hn)
      rw [hplayer]
      exact h.player
  | chatting n chatter h hj =>
      refine .chatting n chatter ⟨htypes.trans h.types, h.kind, h.spoken, ?_, ?_, ?_⟩ ?_
      · rw [hheartbeat]
        exact h.heartbeat
      · rw [hreplication]
        exact h.replication
      · rw [hconnected]
        exact h.connected
      · unfold Joined at hj ⊢
        rw [hmain, hheartbeat, hreplication, hconnected]
        exact hj
  | silent h ho =>
      refine .silent ?_ (by rw [htypes]; exact ho)
      unfold Client.Silent at h ⊢
      rw [hmain, hheartbeat, hreplication]
      exact h

/-- A thread says something while the main thread waits for its input or for
    the thread itself. -/
theorem Chatting.say {chatter : List MessageType} (h : Chatting c n chatter) (line : Line)
    (hline : line.type = .heartbeat ∨ line.type = .playerState) (hn : 2 ≤ n) :
    Chatting (c.say line) n (chatter ++ [line.type]) where
  types := by
    rw [Client.types, Client.say, List.map_append, ← Client.types, h.types, List.append_assoc]
    rfl
  kind := fun t ht => by
    rcases List.mem_append.mp ht with ht | ht
    · exact h.kind t ht
    · rw [List.mem_singleton.mp ht]
      exact hline
  spoken := fun _ => hn
  heartbeat := h.heartbeat
  replication := h.replication
  connected := h.connected

/-- While the heartbeat thread runs, the main thread has not joined it. -/
theorem joined_heartbeat (hj : Joined c) (hrun : ¬ c.heartbeat.halted) :
    c.main = .idle ∨ c.main = .joiningHeartbeat := by
  unfold Joined at hj
  cases hmain : c.main with
  | idle => exact Or.inl rfl
  | joiningHeartbeat => exact Or.inr rfl
  | joiningReplication =>
      rw [hmain] at hj
      exact absurd hj hrun
  | requestingDisconnect | disconnect =>
      rw [hmain] at hj
      exact absurd hj.1 hrun
  | _ =>
      rw [hmain] at hj
      exact hj.elim

/-- The same for the replication thread, which is joined after the other. -/
theorem joined_replication (hj : Joined c) (hrun : ¬ c.replication.halted) :
    (c.main = .idle ∨ c.main = .joiningHeartbeat) ∨
      c.main = .joiningReplication ∧ c.heartbeat.halted := by
  unfold Joined at hj
  cases hmain : c.main with
  | idle => exact Or.inl (Or.inl rfl)
  | joiningHeartbeat => exact Or.inl (Or.inr rfl)
  | joiningReplication =>
      rw [hmain] at hj
      exact Or.inr ⟨rfl, hj⟩
  | requestingDisconnect | disconnect =>
      rw [hmain] at hj
      exact absurd hj.2.1 hrun
  | _ =>
      rw [hmain] at hj
      exact hj.elim

theorem joined_of_main (hmain : c.main = .idle ∨ c.main = .joiningHeartbeat) : Joined c := by
  unfold Joined
  rcases hmain with hmain | hmain <;> rw [hmain] <;> exact trivial

/-- Another turn of the heartbeat thread. -/
theorem Chatting.beat {chatter : List MessageType} (h : Chatting c n chatter) (hn : 2 ≤ n)
    (hmain : c.main = .idle ∨ c.main = .joiningHeartbeat) (t : HeartbeatPc) :
    Stage { c with heartbeat := t } :=
  .chatting n chatter ⟨h.types, h.kind, h.spoken, fun _ => hn, h.replication, h.connected⟩
    (joined_of_main hmain)

/-- A step of the heartbeat thread. -/
theorem stage_heartbeatStep (sent expired : Bool) (h : Stage c) :
    Stage (c.heartbeatStep parses sent expired) := by
  by_cases hrun : c.heartbeat.halted
  · unfold Client.heartbeatStep
    rcases hrun with hrun | hrun <;> rw [hrun] <;> exact h
  · cases h with
    | alone n b h hn => exact absurd (Or.inl h.heartbeat) hrun
    | silent h ho => exact absurd h.2.1 hrun
    | chatting n chatter h hj =>
        -- The thread runs, so the main thread has a session and has not joined it.
        have htwo := h.heartbeat hrun
        have hmain := joined_heartbeat hj hrun
        -- Emptying a slot says nothing.
        have herased : Chatting (c.erase (js "heartbeat_ack")) n chatter :=
          ⟨h.types, h.kind, h.spoken, h.heartbeat, h.replication, h.connected⟩
        unfold Client.heartbeatStep
        split
        · exact .chatting n chatter h hj
        · split
          · exact h.beat htwo hmain _
          · split
            · exact (herased.say ⟨.heartbeat, .obj []⟩ (Or.inl rfl) htwo).beat htwo hmain _
            · exact .chatting n chatter herased (joined_of_main hmain)
        · split
          · exact herased.beat htwo hmain _
          · exact .chatting n chatter h hj
        · exact .chatting n chatter h hj

/-- Another turn of the replication thread. -/
theorem Chatting.turn {chatter : List MessageType} (h : Chatting c n chatter) (hn : 2 ≤ n)
    (hmain : (c.main = .idle ∨ c.main = .joiningHeartbeat) ∨
      c.main = .joiningReplication ∧ c.heartbeat.halted) (t : ReplicationPc) :
    Stage { c with replication := t } := by
  refine .chatting n chatter ⟨h.types, h.kind, h.spoken, h.heartbeat, fun _ => hn, h.connected⟩ ?_
  rcases hmain with hmain | ⟨hmain, hhalted⟩
  · exact joined_of_main hmain
  · unfold Joined
    dsimp only
    rw [hmain]
    exact hhalted

/-- A step of the replication thread. -/
theorem stage_replicationStep (state : Option JsValue) (sent : Bool) (h : Stage c) :
    Stage (c.replicationStep state sent) := by
  by_cases hrun : c.replication.halted
  · unfold Client.replicationStep
    rcases hrun with hrun | hrun <;> rw [hrun] <;> exact h
  · cases h with
    | alone n b h hn => exact absurd (Or.inl h.replication) hrun
    | silent h ho => exact absurd h.2.2 hrun
    | chatting n chatter h hj =>
        -- The same as for the heartbeat thread.
        have htwo := h.replication hrun
        have hmain := joined_replication hj hrun
        unfold Client.replicationStep
        split
        · exact .chatting n chatter h hj
        · exact h.turn htwo hmain _
        · split
          · rename_i payload
            cases sent with
            | true => exact (h.say ⟨.playerState, payload⟩ (Or.inr rfl) htwo).turn htwo hmain _
            | false => exact h.turn htwo hmain _
          · exact h.turn htwo hmain _
        · exact .chatting n chatter h hj

/-- The control input ends. -/
theorem stage_endOfInput (h : Stage c) : Stage c.endOfInput := by
  unfold Client.endOfInput
  split
  · rename_i hmain
    cases h with
    -- Only a main thread that is idle reads its input.
    | alone n b h hn =>
        rw [hmain] at hn
        exact hn.elim
    | silent h ho =>
        rcases h.1 with hat | ⟨exitCode, hat⟩ | hat <;> exact absurd (hmain.symm.trans hat)
          (by simp only [reduceCtorEq, not_false_eq_true])
    | chatting n chatter h hj =>
        exact .chatting n chatter ⟨h.types, h.kind, h.spoken, h.heartbeat, h.replication,
          h.connected⟩ trivial
  · exact h

/-- A message of the server says nothing for the client. -/
theorem stage_onDispatch (m : ServerMessage) (h : Stage c) : Stage (c.onDispatch parses m) := by
  unfold Client.onDispatch
  split
  · unfold Client.onMessage
    split
    · exact h
    · dsimp only
      split <;> exact stage_congr h rfl rfl rfl rfl rfl rfl
    · exact stage_congr h rfl rfl rfl rfl rfl rfl
  · exact h

/-- Nor does an entity that comes or goes. -/
theorem stage_onEntity (created : Bool) (id : Bytes) (h : Stage c) :
    Stage (c.onEntity created id) := by
  unfold Client.onEntity
  split
  · exact stage_congr h rfl rfl rfl rfl rfl rfl
  · exact h

/-- Every step keeps to the order. -/
theorem stage_act (a : ClientAction) (h : Stage c) : Stage (act services script parses c a) := by
  cases a with
  | main sent expired => exact stage_mainStep sent expired h
  | endOfInput => exact stage_endOfInput h
  | heartbeat sent expired => exact stage_heartbeatStep sent expired h
  | replication state sent => exact stage_replicationStep state sent h
  | dispatch m => exact stage_onDispatch m h
  | entity created id => exact stage_onEntity created id h

theorem stage_init : Stage Client.init :=
  .alone 0 false ⟨rfl, rfl, rfl, rfl, fun hp => Bool.noConfusion hp⟩ ⟨rfl, rfl⟩

theorem orderly_of_stage (h : Stage c) : Orderly c.types := by
  cases h with
  | alone n b h hn => exact orderly_take h.types
  | chatting n chatter h hj => exact h.orderly
  | silent h ho => exact ho

/-- The lines of a run are in order, whatever the server says and whichever
    thread comes to its turn when. -/
theorem orderly_run (services : Services) (script : Heartbeat.Script)
    (parses : ServerMessage → Bool) (as : List ClientAction) :
    Orderly (as.foldl (act services script parses) Client.init).types :=
  orderly_of_stage (Run.foldl_inv (act services script parses) Stage
    (fun _ a h => stage_act a h) as Client.init stage_init)

end Steps

end Runtime

end MzzPlork
