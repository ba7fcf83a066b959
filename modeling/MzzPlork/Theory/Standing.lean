import MzzPlork.Core.HeartbeatRun
import MzzPlork.Theory.SessionClock

/-!
# What a Session Has Come To

A session has said hello, has been authenticated under an id, has reported its
resources to be there, and none of this is ever taken back. Only its own
messages get it further, and only in answer to them is it sent anything but
events and kicks.

A client that says the right things in the right order is never turned away.
What it is sent for each of them is written down here (`tells_hello` and the
lemmas after it), together with what it has come to.

## Main definitions

* `Standing`, `standing`: What a session has come to.
* `Tells`: A step in which a session is sent messages of a kind only.
* `Unasked`: What a session is sent without having said anything.

## Theorems

* `standing_foreign`, `tells_foreign`: Steps that are not about a session.
* `tells_hello`, `tells_auth`, `tells_heartbeat`, `tells_manifest`, `tells_state`,
  `tells_ready`, `tells_leave`: The messages of a client.
-/

namespace MzzPlork

namespace Server

/-- What a session has come to. -/
structure Standing where
  helloReceived : Bool
  authenticated : Bool
  playerId : JsValue
  resourcesReady : Bool

/-- What an object says of it. -/
def Session.standing (o : Session) : Standing where
  helloReceived := o.helloReceived
  authenticated := o.authenticated
  playerId := o.playerId
  resourcesReady := o.resourcesReady

theorem Session.standing_transitionTo (o : Session) (target : ConnectionState) :
    (o.transitionTo target).standing = o.standing := by
  unfold Session.transitionTo
  split <;> rfl

/-- The messages about others. -/
def IsEvent (m : ServerMessage) : Prop := ∃ e, m = .event e

/-- What a session is sent without having said anything. -/
def Unasked (m : ServerMessage) : Prop :=
  IsEvent m ∨ m = timeoutKick ∨ m = .kick (.str (js "server shutting down"))

namespace TcpServer

variable (u : SessionId)

/-- What a session has come to, if there is such a session. -/
def standing (srv : TcpServer) : Option Standing := (srv.objs u).map Session.standing

/-- A session is sent messages of a kind only. -/
def Tells (P : ServerMessage → Prop) (srv srv' : TcpServer) : Prop :=
  ∃ calls, srv'.log = srv.log ++ calls ∧ ∀ m, (u, m) ∈ calls → P m

section Tells

variable {u} {P Q : ServerMessage → Prop} {srv srv' srv'' : TcpServer}

theorem tells_of_log (h : srv'.log = srv.log) : Tells u P srv srv' :=
  ⟨[], h.trans (List.append_nil _).symm, fun _ hm => absurd hm List.not_mem_nil⟩

theorem Tells.trans (h : Tells u P srv srv') (h' : Tells u P srv' srv'') : Tells u P srv srv'' := by
  rcases h with ⟨calls, hlog, hcalls⟩
  rcases h' with ⟨calls', hlog', hcalls'⟩
  refine ⟨calls ++ calls', by rw [hlog', hlog, List.append_assoc], fun m hm => ?_⟩
  rcases List.mem_append.mp hm with hm | hm
  · exact hcalls m hm
  · exact hcalls' m hm

theorem Tells.mono (h : Tells u P srv srv') (hPQ : ∀ m, P m → Q m) : Tells u Q srv srv' := by
  rcases h with ⟨calls, hlog, hcalls⟩
  exact ⟨calls, hlog, fun m hm => hPQ m (hcalls m hm)⟩

/-- What was sent before or is of the kind. -/
theorem Tells.mem_log (h : Tells u P srv srv') {m : ServerMessage} (hm : (u, m) ∈ srv'.log) :
    (u, m) ∈ srv.log ∨ P m := by
  rcases h with ⟨calls, hlog, hcalls⟩
  rw [hlog] at hm
  exact (List.mem_append.mp hm).imp_right (hcalls m)

theorem Tells.subset (h : Tells u P srv srv') {m : ServerMessage} (hm : (u, m) ∈ srv.log) :
    (u, m) ∈ srv'.log := by
  rcases h with ⟨calls, hlog, _⟩
  rw [hlog]
  exact List.mem_append_left _ hm

theorem tells_emit (calls : List (SessionId × ServerMessage)) (h : ∀ m, (u, m) ∈ calls → P m) :
    Tells u P srv (srv.emit calls) := ⟨calls, rfl, h⟩

theorem tells_send (s : SessionId) (m : ServerMessage) (h : s = u → P m) :
    Tells u P srv (srv.send s m) := by
  refine tells_emit _ (fun m' hm => ?_)
  rcases Prod.mk.inj (List.mem_singleton.mp hm) with ⟨hs, rfl⟩
  exact h hs.symm

theorem tells_events (hP : ∀ m, IsEvent m → P m) (ids : List SessionId) (e : ServerEvent) :
    Tells u P srv (srv.emit (ids.map (fun s => (s, .event e)))) := by
  refine tells_emit _ (fun m hm => ?_)
  rcases List.mem_map.mp hm with ⟨s, -, heq⟩
  exact hP m ⟨e, (Prod.mk.inj heq).2.symm⟩

/-- A session leaves the map for a reason that it is told itself. -/
theorem tells_removeSession (hP : ∀ m, IsEvent m → P m) (s : SessionId) (reason : JsValue)
    (h : s = u → P (.kick reason)) : Tells u P srv (srv.removeSession s reason) := by
  have hkick : Tells u P srv ((srv.send s (.kick reason)).delete s) :=
    (tells_send s _ h).trans (tells_of_log rfl)
  simp only [removeSession]
  split
  · exact (hkick.trans (tells_events hP _ _)).trans (tells_of_log rfl)
  · exact hkick.trans (tells_of_log rfl)

theorem tells_disconnectSession (hP : ∀ m, IsEvent m → P m) (host : Host) (s : SessionId)
    (reason : JsValue) (h : s = u → P (.kick reason)) :
    Tells u P srv (srv.disconnectSession host s reason) := by
  unfold disconnectSession
  split
  · exact tells_of_log rfl
  · have hstate : Tells u P srv (srv.modify s (fun o => o.transitionTo .disconnecting)) :=
      tells_of_log rfl
    -- A reason without a text throws before anything is sent.
    cases JsValue.toText host.fmt reason with
    | none => exact hstate
    | some text => exact hstate.trans (tells_removeSession hP s reason h)

theorem standing_disconnectSession (srv : TcpServer) (host : Host) (s : SessionId)
    (reason : JsValue) : (srv.disconnectSession host s reason).standing u = srv.standing u :=
  map_objs_disconnectSession Session.standing host srv s u reason
    (fun o target => o.standing_transitionTo target)

theorem standing_modify (srv : TcpServer) (s : SessionId) (f : Session → Session)
    (hf : s = u → ∀ o, (f o).standing = o.standing) :
    (srv.modify s f).standing u = srv.standing u := by
  by_cases hs : u = s
  · exact map_objs_modify Session.standing srv s u f (hf hs.symm)
  · exact congrArg (Option.map Session.standing) (objs_modify_of_ne srv s u f hs)

/-- A session's own object is changed. -/
theorem standing_modify_self (srv : TcpServer) (f : Session → Session) (o : Session)
    (ho : srv.objs u = some o) : (srv.modify u f).standing u = some (f o).standing := by
  rw [standing, objs_modify, if_pos rfl, ho]
  rfl

theorem tells_backfill (hP : ∀ m, IsEvent m → P m) (srv acc : TcpServer) (s : SessionId) :
    Tells u P acc (acc.emit (srv.backfill s)) :=
  tells_emit _ (fun m hm => by
    rcases event_of_backfill srv s _ hm with ⟨e, he⟩
    exact hP m ⟨e, he⟩)

theorem tells_welcome (hP : ∀ m, IsEvent m → P m) (s : SessionId) (clientId : JsValue)
    (result : AuthResult) (hok : result.ok = true) (h : s = u → P (.authResult result)) :
    Tells u P srv (srv.welcome s clientId result) := by
  rw [srv.welcome_eq s clientId result hok]
  have hadmitted : Tells u P srv (srv.admitted s clientId result) :=
    ((tells_of_log rfl).trans (tells_send s _ h)).trans (tells_of_log rfl)
  exact (hadmitted.trans (tells_backfill hP _ _ s)).trans (tells_events hP _ _)

/-- A step of somebody else: a session has come to what it had come to before,
    and is sent messages of a kind only. -/
structure Aside (u : SessionId) (P : ServerMessage → Prop) (srv srv' : TcpServer) : Prop where
  standing : srv'.standing u = srv.standing u
  tells : Tells u P srv srv'

theorem Aside.refl (srv : TcpServer) : Aside u P srv srv := ⟨rfl, tells_of_log rfl⟩

theorem Aside.trans (h : Aside u P srv srv') (h' : Aside u P srv' srv'') : Aside u P srv srv'' :=
  ⟨h'.standing.trans h.standing, h.tells.trans h'.tells⟩

theorem Aside.mono (h : Aside u P srv srv') (hPQ : ∀ m, P m → Q m) : Aside u Q srv srv' :=
  ⟨h.standing, h.tells.mono hPQ⟩

theorem aside_modify (srv : TcpServer) (s : SessionId) (f : Session → Session)
    (hf : s = u → ∀ o, (f o).standing = o.standing) : Aside u P srv (srv.modify s f) :=
  ⟨standing_modify srv s f hf, tells_of_log rfl⟩

theorem aside_send (srv : TcpServer) (s : SessionId) (m : ServerMessage) (h : s = u → P m) :
    Aside u P srv (srv.send s m) := ⟨rfl, tells_send s m h⟩

theorem aside_disconnectSession (hP : ∀ m, IsEvent m → P m) (srv : TcpServer) (host : Host)
    (s : SessionId) (reason : JsValue) (h : s = u → P (.kick reason)) :
    Aside u P srv (srv.disconnectSession host s reason) :=
  ⟨standing_disconnectSession srv host s reason, tells_disconnectSession hP host s reason h⟩

theorem aside_foldl (f : TcpServer → SessionId → TcpServer) (hf : ∀ acc t, Aside u P acc (f acc t))
    (ts : List SessionId) (srv : TcpServer) : Aside u P srv (ts.foldl f srv) := by
  induction ts generalizing srv with
  | nil => exact Aside.refl srv
  | cons t ts ih => exact (hf srv t).trans (ih (f srv t))

theorem standing_welcome_of_ne (srv : TcpServer) (s : SessionId) (clientId : JsValue)
    (result : AuthResult) (hok : result.ok = true) (hs : s ≠ u) :
    (srv.welcome s clientId result).standing u = srv.standing u := by
  rw [srv.welcome_eq s clientId result hok]
  change Option.map Session.standing ((srv.admitted s clientId result).objs u) = _
  rw [admitted, objs_modify_of_ne _ s u _ hs.symm]
  exact standing_modify srv s _ (fun heq => absurd heq hs)

/-- A message of another session. Nobody can say that somebody else is to leave. -/
theorem aside_onMessage (srv : TcpServer) (host : Host) (s : SessionId) (o : Session)
    (type : MessageType) (payload : JsValue) (ambient : Ambient) (hs : s ≠ u) :
    Aside u IsEvent srv (srv.onMessage host s o type payload ambient) := by
  -- What a session is told or loses for its own line concerns nobody else.
  have hne : ∀ {p : Prop}, s = u → p := fun heq => absurd heq hs
  have hleave : ∀ (acc : TcpServer) (reason : JsValue),
      Aside u IsEvent acc (acc.disconnectSession host s reason) := fun acc reason =>
    aside_disconnectSession (fun _ h => h) acc host s reason hne
  have hset : ∀ (acc : TcpServer) (f : Session → Session), Aside u IsEvent acc (acc.modify s f) :=
    fun acc f => aside_modify acc s f hne
  -- The others hear of it by events only.
  cases type with
  | hello =>
      simp only [onMessage, onHello]
      split
      · exact ((hset srv _).trans (aside_send _ s _ hne)).trans (hset _ _)
      · exact ((hset srv _).trans (aside_send _ s _ hne)).trans (hleave _ _)
      · exact hset srv _
  | auth =>
      simp only [onMessage, onAuth]
      split
      · exact hleave srv _
      · split
        · exact Aside.refl srv
        · rename_i result hresult
          have hok := ok_of_authenticate host.fmt _ _ _ _ result hresult
          exact ⟨standing_welcome_of_ne srv s _ result hok hs,
            tells_welcome (fun _ h => h) s _ result hok hne⟩
  | heartbeat => exact (hset srv _).trans (aside_send _ s _ hne)
  | resourceManifestRequest =>
      simp only [onMessage, onResourceManifestRequest]
      split
      · exact hleave srv _
      · exact aside_send srv s _ hne
  | playerState =>
      simp only [onMessage, onPlayerState]
      split
      · exact hleave srv _
      · exact (hset srv _).trans ⟨rfl, tells_events (fun _ h => h) _ _⟩
  | resourcesReady =>
      simp only [onMessage, onResourcesReady]
      split
      · exact hleave srv _
      · split
        · exact ((hset srv _).trans (aside_send _ s _ hne)).trans
            ⟨rfl, tells_events (fun _ h => h) _ _⟩
        · exact hset srv _
  | disconnect => exact hleave srv _
  | unknown type => exact Aside.refl srv

theorem aside_checkHeartbeat (srv : TcpServer) (host : Host) (now : Int) (s : SessionId) :
    Aside u Unasked srv (checkHeartbeat host now srv s) := by
  unfold checkHeartbeat
  split
  · exact Aside.refl srv
  · split
    · exact aside_disconnectSession (fun _ h => Or.inl h) srv host s _
        (fun _ => Or.inr (Or.inl rfl))
    · exact Aside.refl srv

theorem aside_watchdog (srv : TcpServer) (host : Host) (now : Int) :
    Aside u Unasked srv (step host srv (.watchdog now)) :=
  aside_foldl _ (fun acc s => aside_checkHeartbeat acc host now s) _ srv

theorem aside_shutdown (srv : TcpServer) (host : Host) :
    Aside u Unasked srv (step host srv .shutdown) := by
  have hleave : ∀ (acc : TcpServer) (s : SessionId), Aside u Unasked acc
      (acc.disconnectSession host s (.str (js "server shutting down"))) := fun acc s =>
    aside_disconnectSession (fun _ h => Or.inl h) acc host s _ (fun _ => Or.inr (Or.inr rfl))
  exact aside_foldl _ hleave _ srv

end Tells

section Messages

variable {u} (srv : TcpServer) (host : Host) (o : Session) (ho : srv.objs u = some o)
  (payload : JsValue) (ambient : Ambient)

include ho

theorem standing_of_objs : srv.standing u = some o.standing := by
  rw [standing, ho]
  rfl

/-- A `hello` in the server's own version. -/
theorem tells_hello (hv : payload.field (js "protocolVersion") = some (.str protocolVersion)) :
    (srv.onHello host u payload).standing u = some { o.standing with helloReceived := true } ∧
      Tells u (fun m => m = .helloAck true protocolVersion none) srv
        (srv.onHello host u payload) := by
  have heq : srv.onHello host u payload = ((srv.modify u (fun o => { o with
      helloReceived := true, clientProtocolVersion := some (.str protocolVersion) })).send u
        (.helloAck true protocolVersion none)).modify u
          (fun o => o.transitionTo .authenticating) := by
    unfold onHello
    rw [hv]
    rfl
  rw [heq]
  constructor
  · rw [standing_modify _ u _ (fun _ o => o.standing_transitionTo .authenticating)]
    exact standing_modify_self srv _ o ho
  · exact ⟨[(u, .helloAck true protocolVersion none)], rfl,
      fun m hm => (Prod.mk.inj (List.mem_singleton.mp hm)).2⟩

/-- An `auth` after a `hello`. -/
theorem tells_auth (hhello : o.helloReceived = true) (result : AuthResult)
    (hresult : authenticate host.fmt (payload.field (js "clientId"))
      (payload.field (js "displayName")) ambient.playerUuid ambient.sessionUuid = some result) :
    (srv.onAuth host u o payload ambient).standing u = some { o.standing with
        authenticated := true, playerId := result.playerId } ∧
      Tells u (fun m => m = .authResult result ∨ IsEvent m) srv
        (srv.onAuth host u o payload ambient) := by
  have hok := ok_of_authenticate host.fmt _ _ _ _ result hresult
  have heq : srv.onAuth host u o payload ambient =
      srv.welcome u (JsValue.orElse (payload.field (js "clientId")) .null) result := by
    unfold onAuth
    rw [hhello, hresult]
    rfl
  rw [heq]
  refine ⟨?_, tells_welcome (fun _ h => Or.inr h) u _ result hok (fun _ => Or.inl rfl)⟩
  rw [srv.welcome_eq u _ result hok]
  change Option.map Session.standing ((srv.admitted u _ result).objs u) = _
  rw [admitted, ← standing, standing_modify _ u _ (fun _ o => o.standing_transitionTo _)]
  refine (standing_modify_self srv _ o ho).trans ?_
  rw [← hok]
  rfl

omit ho in
theorem tells_heartbeat :
    Aside u (fun m => ∃ now, m = .heartbeatAck now) srv (srv.onHeartbeat u ambient) :=
  (aside_modify srv u (fun o => { o with lastHeartbeatAt := ambient.now }) (fun _ _ => rfl)).trans
    (aside_send _ u (.heartbeatAck ambient.now) (fun _ => ⟨ambient.now, rfl⟩))

omit ho in
/-- A request for the manifest, once there is a session. -/
theorem tells_manifest (hauth : o.authenticated = true) :
    Aside u (fun m => m = .resourceManifest ambient.manifest host.httpPort) srv
      (srv.onResourceManifestRequest host u o ambient) := by
  unfold onResourceManifestRequest
  rw [hauth]
  exact aside_send srv u _ (fun _ => rfl)

omit ho in
theorem tells_state (hauth : o.authenticated = true) :
    Aside u IsEvent srv (srv.onPlayerState host u o payload) := by
  unfold onPlayerState
  rw [hauth]
  exact (aside_modify srv u (fun o => { o with lastPlayerState := some _ }) (fun _ _ => rfl)).trans
    ⟨rfl, tells_events (fun _ h => h) _ _⟩

/-- The notification that the resources are there. Its counts are numbers. -/
theorem tells_ready (hauth : o.authenticated = true)
    (hloaded : ∃ text, JsValue.textOf host.fmt (payload.field (js "loadedCount")) = some text)
    (hfailed : ∃ text, JsValue.textOf host.fmt (payload.field (js "failedCount")) = some text) :
    (srv.onResourcesReady host u o payload).standing u = some { o.standing with
        resourcesReady := true } ∧
      Tells u (fun m => m = .resourcesReadyAck ∨ IsEvent m) srv
        (srv.onResourcesReady host u o payload) := by
  rcases hloaded with ⟨loaded, hloaded⟩
  rcases hfailed with ⟨failed, hfailed⟩
  unfold onResourcesReady
  rw [hauth, hloaded, hfailed]
  exact ⟨standing_modify_self srv _ o ho, ((tells_of_log rfl).trans
    (tells_send u _ (fun _ => Or.inl rfl))).trans (tells_events (fun _ h => Or.inr h) _ _)⟩

omit ho in
/-- A farewell. The reason that it gives comes back. -/
theorem tells_leave (reason : JsString) (hr : payload.field (js "reason") = some (.str reason))
    (hne : reason ≠ []) :
    Aside u (fun m => m = .kick (.str reason) ∨ IsEvent m) srv
      (srv.onDisconnect host u payload) := by
  unfold onDisconnect
  rw [hr, show JsValue.orElse (some (.str reason)) (.str (js "client requested disconnect"))
    = .str reason from if_pos (by simpa [JsValue.truthy] using hne)]
  exact aside_disconnectSession (fun _ h => Or.inr h) srv host u _ (fun _ => Or.inl rfl)

end Messages

end TcpServer

/-- A session stays what it is, whatever happens to others, to its connection
    and to the server. -/
theorem standing_foreign (host : Host) (srv : TcpServer) (u : SessionId) (e : Event) (st : Standing)
    (hst : srv.standing u = some st)
    (he : ∀ type payload ambient, e ≠ .message u type payload ambient) :
    (step host srv e).standing u = some st := by
  cases e with
  | connect s now =>
      rw [step]
      split
      · exact hst
      · rename_i hs
        rw [TcpServer.standing, TcpServer.objs_onConnection, if_neg, ← TcpServer.standing, hst]
        rintro rfl
        rw [TcpServer.standing, Option.map_eq_some_iff] at hst
        rcases hst with ⟨o, ho, -⟩
        exact hs (ho ▸ rfl)
  | message s type payload ambient =>
      rw [step]
      split
      · exact hst
      · have hs : s ≠ u := fun heq => he type payload ambient (by rw [heq])
        exact (TcpServer.aside_onMessage srv host s _ type _ ambient hs).standing.trans hst
  | protocolError s => exact hst
  | close s => exact (TcpServer.standing_disconnectSession srv host s _).trans hst
  | watchdog now => exact (srv.aside_watchdog host now).standing.trans hst
  | shutdown => exact (srv.aside_shutdown host).standing.trans hst

/-- Without having said anything a session hears of others, or that it has to
    go. -/
theorem tells_foreign (host : Host) (srv : TcpServer) (u : SessionId) (e : Event)
    (he : ∀ type payload ambient, e ≠ .message u type payload ambient) (hc : e ≠ .close u) :
    TcpServer.Tells u Unasked srv (step host srv e) := by
  cases e with
  | connect s now =>
      rw [step]
      split <;> exact TcpServer.tells_of_log rfl
  | message s type payload ambient =>
      rw [step]
      split
      · exact TcpServer.tells_of_log rfl
      · have hs : s ≠ u := fun heq => he type payload ambient (by rw [heq])
        exact ((TcpServer.aside_onMessage srv host s _ type _ ambient hs).mono
          (fun _ h => Or.inl h)).tells
  | protocolError s => exact TcpServer.tells_of_log rfl
  | close s =>
      have hs : s ≠ u := fun heq => hc (by rw [heq])
      exact TcpServer.tells_disconnectSession (fun _ h => Or.inl h) host s _
        (fun heq => absurd heq hs)
  | watchdog now => exact (srv.aside_watchdog host now).tells
  | shutdown => exact (srv.aside_shutdown host).tells

end Server

end MzzPlork
