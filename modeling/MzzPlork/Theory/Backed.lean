import MzzPlork.Core.Runtime

/-!
# What Stands Behind a Report

What a client reports about its server is what it was told by it. A report that
the server is compatible, that the client is authenticated or that the server
has acknowledged the resources is there only if the message that says so has
come in, and the id that is reported is the one in it. That the client was
kicked is reported with a reason that it may be kicked for.

The main thread takes a reply out of the slot for its type, and only a message
of that type is ever put there.

## Main definitions

* `Fits`: A line of the client's, as it is said.
* `Justified`: A report that a message of the server's stands behind.
* `Backed`: The client knows what it was told, and says what it has to say.

## Theorems

* `backed_mainStep`, `backed_heartbeatStep`, `backed_replicationStep`,
  `backed_endOfInput`: The threads.
* `backed_onEntity`, `backed_onDispatch`: An event or another message comes in.
-/

namespace MzzPlork

namespace Runtime

open EventChannel Heartbeat Server

/-- A line of the client's, as it is said. -/
def Fits (script : Script) (line : Line) : Prop :=
  match line.type with
  | .hello => line.payload = helloPayload
  | .auth => line.payload = authPayload script
  | .resourcesReady => line.payload = readyPayload script
  | .disconnect => line.payload = leavePayload
  | .heartbeat | .resourceManifestRequest | .playerState => True
  | .unknown _ => False

/-- The reasons a client reports to have been kicked for. The last one is what
    it says where it cannot read the reason. -/
def excuses : List Bytes :=
  [ascii "heartbeat timeout", ascii "server shutting down", ascii "kicked by admin",
    ascii "disconnected by server"]

/-- The services whose reports are about the server. -/
def answering : List Bytes :=
  [ascii "server-connection", ascii "authentication", ascii "resources-ready-notification"]

/-- A report that a message of the server's stands behind. -/
def Justified (told : ServerMessage → Prop) (e : ClientEvent) : Prop :=
  match e with
  | .service name status message =>
    (name = ascii "server-connection" → message = ascii "connected and protocol-compatible" →
      ∃ version reason, told (.helloAck true version reason)) ∧
    (name = ascii "server-connection" → ∀ text, message = ascii "kicked by server: " ++ text →
      text ∈ excuses) ∧
    (name = ascii "authentication" → status = ascii "ok" →
      ∃ r, told (.authResult r) ∧ message = ascii "player " ++ asString r.playerId []) ∧
    (name = ascii "resources-ready-notification" → status = ascii "ok" → told .resourcesReadyAck)
  | _ => True

/-- The client knows what it was told, and says what it has to say. It does not
    forget that it has asked for a disconnect. -/
structure Backed (told : ServerMessage → Prop) (script : Script) (b : Bool) (c : Client) :
    Prop where
  pending : ∀ t m, c.pendingReplies t = some m → told m ∧ m.type = t
  player : ∀ r, c.player = some r → told (.authResult r)
  events : ∀ e ∈ c.events, Justified told e
  fits : ∀ line ∈ c.said, Fits script line
  asked : c.main = .disconnect → c.disconnectRequested = true
  farewell : ∀ line ∈ c.said, line.type = .disconnect → c.disconnectRequested = true
  keeps : b = true → c.disconnectRequested = true

section Client

variable {told : ServerMessage → Prop} {script : Script} {b : Bool} {c : Client}
  {services : Services} {parses : ServerMessage → Bool}

theorem justified_other {name : Bytes} (hname : name ∉ answering) (status message : Bytes) :
    Justified told (.service name status message) := by
  have hne : ∀ answer ∈ answering, name ≠ answer := fun answer hanswer heq => hname (heq ▸ hanswer)
  have hconnection := hne (ascii "server-connection") List.mem_cons_self
  have hauthentication := hne (ascii "authentication") (List.mem_cons_of_mem _ List.mem_cons_self)
  have hready := hne (ascii "resources-ready-notification")
    (List.mem_cons_of_mem _ (List.mem_cons_of_mem _ List.mem_cons_self))
  exact ⟨fun h => absurd h hconnection, fun h => absurd h hconnection,
    fun h => absurd h hauthentication, fun h => absurd h hready⟩

/-- What goes wrong between the two is no claim about the server, a kick
    excepted. -/
theorem justified_failed (name message : Bytes) (hname : name ≠ ascii "server-connection") :
    Justified told (.service name (ascii "failed") message) :=
  ⟨fun h => absurd h hname, fun h => absurd h hname, fun _ h => absurd h (by decide),
    fun _ h => absurd h (by decide)⟩

/-- The first letters of a report show that it is not about a kick. -/
theorem ne_kicked {message start : Bytes} (hstart : message.take 3 = start)
    (hkicked : start ≠ ascii "kic") (text : Bytes) :
    message ≠ ascii "kicked by server: " ++ text := by
  rintro rfl
  exact hkicked hstart.symm

/-- A report about the connection that is neither of the two. -/
theorem justified_connection (status message start : Bytes) (hstart : message.take 3 = start)
    (hgreeted : start ≠ ascii "con") (hkicked : start ≠ ascii "kic") :
    Justified told (.service (ascii "server-connection") status message) := by
  refine ⟨fun _ h => ?_, fun _ text h => absurd h (ne_kicked hstart hkicked text),
    fun h => absurd h (by decide), fun h => absurd h (by decide)⟩
  rw [h] at hstart
  exact absurd hstart.symm hgreeted

theorem justified_error (message : Bytes) :
    ∀ e ∈ [ClientEvent.error message], Justified told e := by
  intro e he
  rw [List.mem_singleton.mp he]
  exact trivial

theorem justified_state (state : Bytes) : ∀ e ∈ [ClientEvent.state state], Justified told e := by
  intro e he
  rw [List.mem_singleton.mp he]
  exact trivial

theorem Justified.mono {told' : ServerMessage → Prop} {e : ClientEvent} (h : Justified told e)
    (htold : ∀ m, told m → told' m) : Justified told' e := by
  cases e with
  | service name status message =>
      refine ⟨fun hname hmessage => ?_, h.2.1, fun hname hstatus => ?_,
        fun hname hstatus => htold _ (h.2.2.2 hname hstatus)⟩
      · rcases h.1 hname hmessage with ⟨version, reason, hack⟩
        exact ⟨version, reason, htold _ hack⟩
      · rcases h.2.2.1 hname hstatus with ⟨r, hr, hmessage⟩
        exact ⟨r, htold _ hr, hmessage⟩
  | _ => exact trivial

/-- Being told more does no harm. -/
theorem Backed.mono {told' : ServerMessage → Prop} (h : Backed told script b c)
    (htold : ∀ m, told m → told' m) : Backed told' script b c where
  pending := fun t m hm => ⟨htold m (h.pending t m hm).1, (h.pending t m hm).2⟩
  player := fun r hr => htold _ (h.player r hr)
  events := fun e he => (h.events e he).mono htold
  fits := h.fits
  asked := h.asked
  farewell := h.farewell
  keeps := h.keeps

/-- What has been asked for by now. -/
theorem Backed.now (h : Backed told script b c) :
    Backed told script c.disconnectRequested c :=
  ⟨h.pending, h.player, h.events, h.fits, h.asked, h.farewell, fun hasked => hasked⟩

theorem Backed.emit (h : Backed told script b c) (es : List ClientEvent)
    (hes : ∀ e ∈ es, Justified told e) : Backed told script b (c.emit es) :=
  ⟨h.pending, h.player, fun e he => (List.mem_append.mp he).elim (h.events e) (hes e), h.fits,
    h.asked, h.farewell, h.keeps⟩

theorem Backed.report (h : Backed told script b c) (service : Bytes) (result : ServiceResult)
    (hj : Justified told (.service service (statusText result.status) result.message)) :
    Backed told script b (c.report service result) :=
  h.emit _ (fun _ he => (List.mem_singleton.mp he) ▸ hj)

theorem Backed.setState (h : Backed told script b c) (state : ClientState) :
    Backed told script b (c.setState state) := by
  have hemit := h.emit [.service (ascii "client-state") (ascii "ok") state.text]
    (fun _ he => (List.mem_singleton.mp he) ▸ justified_other (by decide) _ _)
  exact ⟨hemit.pending, hemit.player, hemit.events, hemit.fits, hemit.asked, hemit.farewell,
    hemit.keeps⟩

theorem Backed.transitionTo (h : Backed told script b c) (state : RuntimeState) :
    Backed told script b (c.transitionTo state) := by
  have hemit := h.emit [.state state.text] (justified_state _)
  exact ⟨hemit.pending, hemit.player, hemit.events, hemit.fits, hemit.asked, hemit.farewell,
    hemit.keeps⟩

theorem Backed.erase (h : Backed told script b c) (replyType : JsString) :
    Backed told script b (c.erase replyType) := by
  refine ⟨fun t m hm => ?_, h.player, h.events, h.fits, h.asked, h.farewell, h.keeps⟩
  change Function.update c.pendingReplies replyType none t = some m at hm
  rw [Function.update_apply] at hm
  split at hm
  · exact absurd hm.symm (Option.some_ne_none m)
  · exact h.pending t m hm

theorem Backed.goTo (h : Backed told script b c) (main : MainPc)
    (hasked : main = .disconnect → c.disconnectRequested = true) :
    Backed told script b (c.goTo main) :=
  ⟨h.pending, h.player, h.events, h.fits, hasked, h.farewell, h.keeps⟩

theorem Backed.say (h : Backed told script b c) (line : Line) (hfits : Fits script line)
    (hasked : line.type = .disconnect → c.disconnectRequested = true) :
    Backed told script b (c.say line) where
  pending := h.pending
  player := h.player
  events := h.events
  fits := fun l hl => (List.mem_append.mp hl).elim (h.fits l)
    (fun hl => (List.mem_singleton.mp hl) ▸ hfits)
  asked := h.asked
  farewell := fun l hl => (List.mem_append.mp hl).elim (h.farewell l)
    (fun hl => (List.mem_singleton.mp hl) ▸ hasked)
  keeps := h.keeps

/-- A request of the main thread. -/
theorem backed_request (h : Backed told script b c) (line : Line) (replyType : JsString)
    (sent : Bool) (waits : MainPc) (fails : Client → Client) (hfits : Fits script line)
    (htype : line.type ≠ .disconnect) (hwaits : waits ≠ .disconnect)
    (hfails : Backed told script b (fails (c.erase replyType))) :
    Backed told script b (c.request line replyType sent waits fails) := by
  unfold Client.request
  cases sent with
  | true =>
      exact ((h.erase replyType).say line hfits (fun heq => absurd heq htype)).goTo waits
        (fun heq => absurd heq hwaits)
  | false => exact hfails

/-- What has come as a reply was told, and is of the type that was waited for. -/
theorem backed_reply (h : Backed told script b c) {replyType : JsString} {expired : Bool}
    (f : Client → Option ServerMessage → Client)
    (hf : ∀ (c' : Client) (reply : Option ServerMessage), Backed told script b c' →
      (∀ m ∈ reply, told m ∧ m.type = replyType) → Backed told script b (f c' reply)) :
    Backed told script b (match c.reply parses replyType expired with
      | some reply => f (c.erase replyType) reply
      | none => c) := by
  split
  · rename_i reply hreply
    refine hf _ _ (h.erase _) (fun m hm => ?_)
    unfold Client.reply at hreply
    split at hreply
    · rename_i m' hpending
      -- What was in the slot was put there for its type.
      have heq := Option.some.inj hreply
      split at heq
      · rw [← heq] at hm
        rw [← Option.some.inj hm]
        exact h.pending _ _ hpending
      · rw [← heq] at hm
        exact absurd hm (Option.not_mem_none m)
    · split at hreply
      · rw [← Option.some.inj hreply] at hm
        exact absurd hm (Option.not_mem_none m)
      · exact absurd hreply.symm (Option.some_ne_none reply)
  · exact h

theorem backed_start (h : Backed told script b c) : Backed told script b (c.start services) := by
  have hloaded := ((h.transitionTo .initializing).setState .starting).report
    (ascii "configuration") services.configuration (justified_other (by decide) _ _)
  unfold Client.start
  dsimp only
  split
  · exact (hloaded.emit _ (justified_error _)).goTo (.returned 1) MainPc.noConfusion
  · exact ((hloaded.report (ascii "logging") _ (justified_other (by decide) _ _)).setState
      .initializing).goTo .services MainPc.noConfusion

theorem backed_startServices (h : Backed told script b c) :
    Backed told script b (c.startServices services) := by
  have hcache := h.report (ascii "cache") services.cache (justified_other (by decide) _ _)
  unfold Client.startServices
  dsimp only
  split
  · exact (hcache.emit _ (justified_error _)).goTo (.returned 1) MainPc.noConfusion
  · have hnetwork := hcache.report (ascii "network") services.network
      (justified_other (by decide) _ _)
    have hgame := (hnetwork.report (ascii "game-integration") services.gameInit
      (justified_other (by decide) _ _)).report (ascii "game-detection") services.gameDetection
        (justified_other (by decide) _ _)
    exact (hgame.setState .checkingUpdate).goTo .connecting MainPc.noConfusion

theorem backed_connect (h : Backed told script b c) :
    Backed told script b (c.connect services) := by
  have hstate := h.setState .connecting
  unfold Client.connect
  dsimp only
  split
  · exact (hstate.report (ascii "server-connection") _ (justified_connection _ _ (ascii "no ") rfl
      (by decide) (by decide))).goTo .unconnected MainPc.noConfusion
  · split
    · exact ⟨hstate.pending, hstate.player, hstate.events, hstate.fits, MainPc.noConfusion,
        hstate.farewell, hstate.keeps⟩
    · exact (hstate.report (ascii "server-connection") _ (justified_connection _ _ (ascii "cou") rfl
        (by decide) (by decide))).goTo .unconnected MainPc.noConfusion

theorem backed_giveUp (h : Backed told script b c) (service message : Bytes)
    (hj : Justified told (.service service (ascii "failed") message)) :
    Backed told script b (c.giveUp service message) := by
  have hreport := h.report service ⟨.failed, message⟩ hj
  exact ⟨hreport.pending, hreport.player, hreport.events, hreport.fits, MainPc.noConfusion,
    hreport.farewell, hreport.keeps⟩

theorem backed_rejected (h : Backed told script b c) : Backed told script b c.rejected :=
  backed_giveUp h _ _ (justified_connection _ _ (ascii "pro") rfl (by decide) (by decide))

theorem backed_unauthenticated (h : Backed told script b c) :
    Backed told script b c.unauthenticated :=
  backed_giveUp h _ _ (justified_failed _ _ (by decide))

/-- A compatible answer is what the report stands for. -/
theorem backed_onHelloAck (reply : Option ServerMessage) (h : Backed told script b c)
    (hreply : ∀ m ∈ reply, told m ∧ m.type = js "hello_ack") :
    Backed told script b (c.onHelloAck reply) := by
  unfold Client.onHelloAck
  split
  · rename_i version reason
    have hack := (hreply _ rfl).1
    have hstart : (ascii "connected and protocol-compatible").take 3 = ascii "con" := rfl
    exact (h.report (ascii "server-connection") ⟨.ok, ascii "connected and protocol-compatible"⟩
      ⟨fun _ _ => ⟨version, reason, hack⟩,
        fun _ text heq => absurd heq (ne_kicked hstart (by decide) text),
        fun heq => absurd heq (by decide), fun heq => absurd heq (by decide)⟩).goTo .authRequest
          MainPc.noConfusion
  · exact backed_rejected h

/-- The id that is reported is the one that was issued. -/
theorem backed_onAuthResult (reply : Option ServerMessage) (h : Backed told script b c)
    (hreply : ∀ m ∈ reply, told m ∧ m.type = js "auth_result") :
    Backed told script b (c.onAuthResult reply) := by
  unfold Client.onAuthResult
  split
  · rename_i result hresult
    have htold : told (.authResult result) := by
      rcases Option.bind_eq_some_iff.mp hresult with ⟨m, hm, hof⟩
      cases m with
      | authResult r => exact (Option.some.inj hof) ▸ (hreply _ hm).1
      | _ => exact absurd hof.symm (Option.some_ne_none result)
    split
    · have hreport := h.report (ascii "authentication")
        ⟨.ok, ascii "player " ++ asString result.playerId []⟩
        ⟨fun heq => absurd heq (by decide), fun heq => absurd heq (by decide),
          fun _ _ => ⟨result, htold, rfl⟩, fun heq => absurd heq (by decide)⟩
      have hcreated := hreport.report (ascii "entity-created")
        ⟨.ok, asString result.playerId []⟩ (justified_other (by decide) _ _)
      exact ⟨hcreated.pending, fun r hr => (Option.some.inj hr) ▸ htold, hcreated.events,
        hcreated.fits, MainPc.noConfusion, hcreated.farewell, hcreated.keeps⟩
    · exact backed_unauthenticated h
  · exact backed_unauthenticated h

theorem backed_withoutManifest (h : Backed told script b c) :
    Backed told script b c.withoutManifest :=
  (h.report _ _ (justified_other (by decide) _ _)).goTo _ MainPc.noConfusion

theorem backed_onManifest (reply : Option ServerMessage) (h : Backed told script b c) :
    Backed told script b (c.onManifest reply) := by
  unfold Client.onManifest
  split
  · exact h.goTo .applying MainPc.noConfusion
  · exact backed_withoutManifest h

theorem backed_applyManifest (h : Backed told script b c) :
    Backed told script b (c.applyManifest services) := by
  unfold Client.applyManifest
  split
  · exact (h.report (ascii "resources") _ (justified_other (by decide) _ _)).goTo _
      MainPc.noConfusion
  · split
    · exact ⟨h.pending, h.player, h.events, h.fits, MainPc.noConfusion, h.farewell, h.keeps⟩
    · exact (h.report (ascii "resources") _ (justified_other (by decide) _ _)).goTo _
        MainPc.noConfusion

theorem backed_withoutAck (h : Backed told script b c) : Backed told script b c.withoutAck :=
  (h.report _ _ (justified_failed _ _ (by decide))).goTo _ MainPc.noConfusion

theorem backed_load (manifestApplied sent : Bool) (h : Backed told script b c) :
    Backed told script b (c.load script manifestApplied sent) := by
  have hstate := h.setState .loadingResources
  unfold Client.load
  dsimp only
  split
  · have hreport := hstate.report (ascii "resource-loading") (Client.loadResult script)
      (justified_other (by decide) _ _)
    split
    · exact backed_request hreport _ _ sent .readyReply _ rfl MessageType.noConfusion
        MainPc.noConfusion (backed_withoutAck (hreport.erase _))
    · exact hreport.goTo .settling MainPc.noConfusion
  · exact (hstate.report (ascii "resource-loading") _ (justified_other (by decide) _ _)).goTo
      .settling MainPc.noConfusion

/-- Only an acknowledgment is an acknowledgment. -/
theorem backed_onReadyAck (reply : Option ServerMessage) (h : Backed told script b c)
    (hreply : ∀ m ∈ reply, told m ∧ m.type = js "resources_ready_ack") :
    Backed told script b (c.onReadyAck reply) := by
  unfold Client.onReadyAck
  split
  · rename_i m
    have htold : told .resourcesReadyAck := by
      rcases hreply m rfl with ⟨hm, htype⟩
      cases m with
      | resourcesReadyAck => exact hm
      | _ =>
          dsimp only [ServerMessage.type] at htype
          exact absurd htype (by decide)
    exact (h.report (ascii "resources-ready-notification") ⟨.ok, ascii "server acknowledged"⟩
      ⟨fun heq => absurd heq (by decide), fun heq => absurd heq (by decide),
        fun heq => absurd heq (by decide), fun _ _ => htold⟩).goTo .settling MainPc.noConfusion
  · exact backed_withoutAck h

theorem backed_settle (h : Backed told script b c) : Backed told script b c.settle := by
  have hready := (h.transitionTo .ready).setState .ready
  have hbeat : ∀ c : Client, Backed told script b c → Backed told script b c.startHeartbeat := by
    intro c h
    unfold Client.startHeartbeat
    split
    · exact ⟨h.pending, h.player, h.events, h.fits, h.asked, h.farewell, h.keeps⟩
    · exact h
  have hrep : ∀ c : Client, Backed told script b c → Backed told script b c.startReplication := by
    intro c h
    unfold Client.startReplication
    split
    · exact ⟨h.pending, h.player, h.events, h.fits, h.asked, h.farewell, h.keeps⟩
    · exact h
  exact (hrep _ (hbeat _ hready)).goTo .idle MainPc.noConfusion

theorem backed_close (h : Backed told script b c) : Backed told script b c.close := by
  have hclosed : Backed told script b { c with lifecycle := .stopped, connected := false } :=
    ⟨h.pending, h.player, h.events, h.fits, h.asked, h.farewell, h.keeps⟩
  exact ((hclosed.setState .stopped).emit _ (justified_state _)).goTo (.returned 0)
    MainPc.noConfusion

theorem backed_endOfInput (h : Backed told script b c) : Backed told script b c.endOfInput := by
  unfold Client.endOfInput
  split
  · have hlast : Backed told script b { c with lifecycle := .shuttingDown } :=
      ⟨h.pending, h.player, h.events, h.fits, h.asked, h.farewell, h.keeps⟩
    have hemit := (hlast.setState .disconnecting).emit _
      (justified_state RuntimeState.shuttingDown.text)
    exact ⟨hemit.pending, hemit.player, hemit.events, hemit.fits, MainPc.noConfusion,
      hemit.farewell, hemit.keeps⟩
  · exact h

/-- A step of the main thread. -/
theorem backed_mainStep (sent expired : Bool) (h : Backed told script b c) :
    Backed told script b (c.mainStep services script parses sent expired) := by
  unfold Client.mainStep
  cases hmain : c.main with
  | starting => exact backed_start h
  | services => exact backed_startServices h
  | connecting => exact backed_connect h
  | helloRequest =>
      exact backed_request h _ _ sent .helloReply _ rfl MessageType.noConfusion MainPc.noConfusion
        (backed_rejected (h.erase _))
  | helloReply =>
      exact backed_reply h Client.onHelloAck
        (fun _ reply h' hreply => backed_onHelloAck reply h' hreply)
  | authRequest =>
      exact backed_request (h.setState _) _ _ sent .authReply _ rfl MessageType.noConfusion
        MainPc.noConfusion (backed_unauthenticated ((h.setState _).erase _))
  | authReply =>
      exact backed_reply h Client.onAuthResult
        (fun _ reply h' hreply => backed_onAuthResult reply h' hreply)
  | manifestRequest =>
      exact backed_request (h.setState _) _ _ sent .manifestReply _ trivial MessageType.noConfusion
        MainPc.noConfusion (backed_withoutManifest ((h.setState _).erase _))
  | manifestReply =>
      exact backed_reply h Client.onManifest (fun _ reply h' _ => backed_onManifest reply h')
  | applying => exact backed_applyManifest h
  | unconnected =>
      exact (h.report (ascii "resources") _ (justified_other (by decide) _ _)).goTo _
        MainPc.noConfusion
  | loading manifestApplied => exact backed_load manifestApplied sent h
  | readyReply =>
      exact backed_reply h Client.onReadyAck
        (fun _ reply h' hreply => backed_onReadyAck reply h' hreply)
  | settling => exact backed_settle h
  | idle => exact h
  | joiningHeartbeat =>
      dsimp only
      unfold Client.joinHeartbeat
      split
      · exact ⟨h.pending, h.player, h.events, h.fits, MainPc.noConfusion, h.farewell, h.keeps⟩
      · exact h
  | joiningReplication =>
      dsimp only
      unfold Client.joinReplication
      split
      · refine h.goTo _ ?_
        split <;> exact MainPc.noConfusion
      · exact h
  | requestingDisconnect =>
      exact ⟨h.pending, h.player, h.events, h.fits, fun _ => rfl, fun _ _ _ => rfl,
        fun _ => rfl⟩
  | disconnect =>
      have hasked := h.asked hmain
      cases sent with
      | true =>
          exact (h.say ⟨.disconnect, leavePayload⟩ rfl (fun _ => hasked)).goTo .closing
            MainPc.noConfusion
      | false => exact h.goTo .closing MainPc.noConfusion
  | closing => exact backed_close h
  | returned exitCode => exact h
  | aborted => exact h

/-- A step of the heartbeat thread. -/
theorem backed_heartbeatStep (sent expired : Bool) (h : Backed told script b c) :
    Backed told script b (c.heartbeatStep parses sent expired) := by
  have hturn : ∀ {c' : Client} (t : HeartbeatPc), Backed told script b c' →
      Backed told script b { c' with heartbeat := t } :=
    fun _ h' => ⟨h'.pending, h'.player, h'.events, h'.fits, h'.asked, h'.farewell, h'.keeps⟩
  unfold Client.heartbeatStep
  split
  · exact h
  · split
    · exact hturn _ h
    · split
      · exact hturn _ ((h.erase _).say ⟨.heartbeat, .obj []⟩ trivial MessageType.noConfusion)
      · exact h.erase _
  · split
    · exact hturn _ (h.erase _)
    · exact h
  · exact h

/-- A step of the replication thread. -/
theorem backed_replicationStep (state : Option JsValue) (sent : Bool) (h : Backed told script b c) :
    Backed told script b (c.replicationStep state sent) := by
  have hturn : ∀ {c' : Client} (t : ReplicationPc), Backed told script b c' →
      Backed told script b { c' with replication := t } :=
    fun _ h' => ⟨h'.pending, h'.player, h'.events, h'.fits, h'.asked, h'.farewell, h'.keeps⟩
  unfold Client.replicationStep
  split
  · exact h
  · exact hturn _ h
  · split
    · rename_i payload
      cases sent with
      | true => exact hturn _ (h.say ⟨.playerState, payload⟩ trivial MessageType.noConfusion)
      | false => exact hturn _ h
    · exact hturn _ h
  · exact h

/-- An entity comes or goes. -/
theorem backed_onEntity (created : Bool) (id : Bytes) (h : Backed told script b c) :
    Backed told script b (c.onEntity created id) := by
  unfold Client.onEntity
  split
  · cases created <;> exact h.report _ _ (justified_other (by decide) _ _)
  · exact h

/-- A message of the server's comes in. A kick that the client has not asked for
    has to have one of the known reasons. -/
theorem backed_onDispatch (m : ServerMessage) (hm : told m)
    (hkick : ∀ reason, m = .kick reason → c.disconnectRequested = false →
      asString reason (ascii "disconnected by server") ∈ excuses)
    (h : Backed told script b c) : Backed told script b (c.onDispatch parses m) := by
  unfold Client.onDispatch
  split
  · unfold Client.onMessage
    split
    · exact h
    · rename_i reason
      dsimp only
      split
      -- The client has asked for it: an acknowledgment, whatever the reason.
      · exact h.report (ascii "server-connection") _ (justified_connection _ _ (ascii "dis") rfl
          (by decide) (by decide))
      · rename_i hasked
        refine h.report (ascii "server-connection") _ ⟨fun _ heq => ?_, fun _ text heq => ?_,
          fun heq => absurd heq (by decide), fun heq => absurd heq (by decide)⟩
        · exact absurd (congrArg (List.take 3) heq) (show ascii "kic" ≠ ascii "con" by decide)
        · rw [← List.append_cancel_left heq]
          split
          · exact hkick reason rfl (Bool.eq_false_iff.mpr hasked)
          -- A payload that cannot be read has a reason of its own.
          · exact List.mem_cons_of_mem _ (List.mem_cons_of_mem _ (List.mem_cons_of_mem _
              List.mem_cons_self))
    -- The message goes into the slot of its own type.
    · refine ⟨fun t m' hm' => ?_, h.player, h.events, h.fits, h.asked, h.farewell, h.keeps⟩
      change Function.update c.pendingReplies m.type (some m) t = some m' at hm'
      rw [Function.update_apply] at hm'
      split at hm'
      · rename_i ht
        rw [← Option.some.inj hm', ht]
        exact ⟨hm, rfl⟩
      · exact h.pending t m' hm'
  · exact h

end Client

end Runtime

end MzzPlork
