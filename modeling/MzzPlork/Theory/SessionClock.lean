import MzzPlork.Theory.Presence

/-!
# When a Session Was Last Heard Of

The watchdog looks at one field of a session, which is set when it connects
and whenever it sends a heartbeat. No other message sets it, and nobody else's
does. That goes for the log as well: only a tick of the watchdog writes that a
session has timed out.

## Main definitions

* `lastBeat`: When a session was last heard of.
* `Unclocked`: A step that neither refreshes a session nor times it out.

## Theorems

* `unclocked_onMessage`, `unclocked_step`: Which steps are unclocked.
* `mem_log_watchdog`: Whom a tick times out.
* `step_heartbeat`, `step_connect`: The steps that refresh a session.
-/

namespace MzzPlork

namespace Server

/-- What the watchdog tells a session. -/
def timeoutKick : ServerMessage := .kick (.str (js "heartbeat timeout"))

namespace TcpServer

/-- When a session was last heard of, as the server sees it. -/
def lastBeat (srv : TcpServer) (u : SessionId) : Option Int :=
  (srv.objs u).map (·.lastHeartbeatAt)

variable (u : SessionId)

/-- The session is not heard of, nor is it told that it has timed out. -/
structure Unclocked (srv srv' : TcpServer) : Prop where
  beat : srv'.lastBeat u = srv.lastBeat u
  log : ∃ calls, srv'.log = srv.log ++ calls ∧ (u, timeoutKick) ∉ calls

section Unclocked

variable {srv srv' srv'' : TcpServer}

theorem Unclocked.refl (srv : TcpServer) : Unclocked u srv srv :=
  ⟨rfl, [], (List.append_nil _).symm, List.not_mem_nil⟩

theorem Unclocked.trans (h : Unclocked u srv srv') (h' : Unclocked u srv' srv'') :
    Unclocked u srv srv'' := by
  rcases h.log with ⟨calls, hlog, hcalls⟩
  rcases h'.log with ⟨calls', hlog', hcalls'⟩
  refine ⟨h'.beat.trans h.beat, calls ++ calls', ?_, ?_⟩
  · rw [hlog', hlog, List.append_assoc]
  · rw [List.mem_append, not_or]
    exact ⟨hcalls, hcalls'⟩

theorem Unclocked.mem_log (h : Unclocked u srv srv') :
    (u, timeoutKick) ∈ srv'.log ↔ (u, timeoutKick) ∈ srv.log := by
  rcases h.log with ⟨calls, hlog, hcalls⟩
  rw [hlog, List.mem_append, or_iff_left hcalls]

theorem unclocked_emit (srv : TcpServer) (calls : List (SessionId × ServerMessage))
    (h : (u, timeoutKick) ∉ calls) : Unclocked u srv (srv.emit calls) :=
  ⟨rfl, calls, rfl, h⟩

theorem unclocked_send (srv : TcpServer) (s : SessionId) (m : ServerMessage)
    (h : s = u → m ≠ timeoutKick) : Unclocked u srv (srv.send s m) := by
  refine unclocked_emit u srv [(s, m)] (fun hmem => ?_)
  rcases Prod.mk.inj (List.mem_singleton.mp hmem) with ⟨hs, hm⟩
  exact h hs.symm hm.symm

/-- A broadcast is no kick. -/
theorem unclocked_events (srv : TcpServer) (ids : List SessionId) (e : ServerEvent) :
    Unclocked u srv (srv.emit (ids.map (fun s => (s, .event e)))) := by
  refine unclocked_emit u srv _ (fun hmem => ?_)
  rcases List.mem_map.mp hmem with ⟨s, -, heq⟩
  exact absurd (Prod.mk.inj heq).2 (by simp only [timeoutKick, reduceCtorEq, not_false_eq_true])

theorem unclocked_broadcast (srv : TcpServer) (e : ServerEvent) :
    Unclocked u srv (srv.broadcast e) := unclocked_events u srv _ e

theorem unclocked_broadcastExcept (srv : TcpServer) (s : SessionId) (e : ServerEvent) :
    Unclocked u srv (srv.broadcastExcept s e) := unclocked_events u srv _ e

theorem unclocked_modify (srv : TcpServer) (s : SessionId) (f : Session → Session)
    (hf : s = u → ∀ o, (f o).lastHeartbeatAt = o.lastHeartbeatAt) :
    Unclocked u srv (srv.modify s f) := by
  refine ⟨?_, [], (List.append_nil _).symm, List.not_mem_nil⟩
  rw [lastBeat, lastBeat, objs_modify]
  by_cases hs : u = s
  · rw [if_pos hs]
    cases srv.objs u with
    | none => rfl
    | some o => exact congrArg some (hf hs.symm o)
  · rw [if_neg hs]

theorem unclocked_transition (srv : TcpServer) (s : SessionId) (target : ConnectionState) :
    Unclocked u srv (srv.modify s (fun o => o.transitionTo target)) :=
  unclocked_modify u srv s _ (fun _ o => o.lastHeartbeatAt_transitionTo target)

theorem unclocked_removeSession (srv : TcpServer) (s : SessionId) (reason : JsValue)
    (h : s = u → reason ≠ .str (js "heartbeat timeout")) :
    Unclocked u srv (srv.removeSession s reason) := by
  have hkick := unclocked_send u srv s (.kick reason)
    (fun hs heq => h hs (ServerMessage.kick.inj heq))
  have hgone : Unclocked u srv ((srv.send s (.kick reason)).delete s) :=
    hkick.trans u ⟨rfl, [], (List.append_nil _).symm, List.not_mem_nil⟩
  have hreport : ∀ acc : TcpServer, Unclocked u srv acc →
      Unclocked u srv { acc with disconnected := acc.disconnected ++ [s] } :=
    fun acc hacc => ⟨hacc.beat, hacc.log⟩
  simp only [removeSession]
  split
  · exact hreport _ ((hgone.trans u (unclocked_broadcastExcept u _ s _)).trans u
      (unclocked_transition u _ s .disconnected))
  · exact hreport _ (hgone.trans u (unclocked_transition u _ s .disconnected))

/-- A disconnect for another reason, or of another session. -/
theorem unclocked_disconnectSession (srv : TcpServer) (host : Host) (s : SessionId)
    (reason : JsValue) (h : s = u → reason ≠ .str (js "heartbeat timeout")) :
    Unclocked u srv (srv.disconnectSession host s reason) := by
  unfold disconnectSession
  split
  · exact Unclocked.refl u srv
  · have hstate := unclocked_transition u srv s .disconnecting
    cases JsValue.toText host.fmt reason with
    | none => exact hstate
    | some text => exact hstate.trans u (unclocked_removeSession u _ s reason h)

end Unclocked

section Messages

variable (srv : TcpServer) (host : Host) (s : SessionId) (o : Session) (payload : JsValue)
  (ambient : Ambient)

/-- A newcomer is told of the others in events. -/
theorem event_of_backfill (call : SessionId × ServerMessage) (h : call ∈ srv.backfill s) :
    ∃ e, call.2 = .event e := by
  rcases List.mem_flatMap.mp h with ⟨t, -, hcall⟩
  unfold introduction at hcall
  cases ho : srv.objs t with
  | none =>
      rw [ho] at hcall
      exact absurd hcall List.not_mem_nil
  | some other =>
      rw [ho] at hcall
      rcases List.mem_cons.mp hcall with rfl | hcall
      · exact ⟨_, rfl⟩
      · cases hst : other.lastPlayerState with
        | none =>
            simp only [hst] at hcall
            exact absurd hcall List.not_mem_nil
        | some st =>
            simp only [hst] at hcall
            rw [List.mem_singleton.mp hcall]
            exact ⟨_, rfl⟩

theorem unclocked_welcome (clientId : JsValue) (result : AuthResult) (hok : result.ok = true) :
    Unclocked u srv (srv.welcome s clientId result) := by
  rw [srv.welcome_eq s clientId result hok]
  have hadmitted : Unclocked u srv (srv.admitted s clientId result) :=
    ((unclocked_modify u srv s (fun o => { o with
      authenticated := result.ok, clientId := clientId, playerId := result.playerId,
      displayName := result.displayName }) (fun _ _ => rfl)).trans u
      (unclocked_send u _ s (.authResult result) (fun _ => by
        simp only [timeoutKick, ne_eq, reduceCtorEq, not_false_eq_true]))).trans u
      (unclocked_transition u _ s .authenticated)
  refine (hadmitted.trans u (unclocked_emit u _ _ (fun hmem => ?_))).trans u
    (unclocked_broadcastExcept u _ s _)
  rcases event_of_backfill _ s _ hmem with ⟨e, he⟩
  exact absurd he (by simp only [timeoutKick, reduceCtorEq, not_false_eq_true])

/-- A reason of the server's own that is not the watchdog's. -/
theorem unclocked_disconnect_str (reason : JsString) (h : reason ≠ js "heartbeat timeout") :
    Unclocked u srv (srv.disconnectSession host s (.str reason)) :=
  unclocked_disconnectSession u srv host s _ (fun _ heq => h (Json.str.inj heq))

theorem unclocked_onHello : Unclocked u srv (srv.onHello host s payload) := by
  have hset := unclocked_modify u srv s (fun o => { o with
    helloReceived := true, clientProtocolVersion := payload.field (js "protocolVersion") })
    (fun _ _ => rfl)
  have hsend : ∀ (acc : TcpServer) (ok : Bool) (reason : Option JsString),
      Unclocked u acc (acc.send s (.helloAck ok protocolVersion reason)) := fun acc ok reason =>
    unclocked_send u acc s _ (fun _ => by
      simp only [timeoutKick, ne_eq, reduceCtorEq, not_false_eq_true])
  simp only [onHello]
  split
  · exact (hset.trans u (hsend _ _ _)).trans u (unclocked_transition u _ s .authenticating)
  · exact (hset.trans u (hsend _ _ _)).trans u
      (unclocked_disconnect_str u _ host s _ (by decide))
  · exact hset

theorem unclocked_onAuth : Unclocked u srv (srv.onAuth host s o payload ambient) := by
  unfold onAuth
  split
  · exact unclocked_disconnect_str u srv host s _ (by decide)
  · split
    · exact Unclocked.refl u srv
    · rename_i result hresult
      exact unclocked_welcome u srv s _ result (ok_of_authenticate host.fmt _ _ _ _ result hresult)

theorem unclocked_onResourcesReady :
    Unclocked u srv (srv.onResourcesReady host s o payload) := by
  unfold onResourcesReady
  split
  · exact unclocked_disconnect_str u srv host s _ (by decide)
  · have hset := unclocked_modify u srv s (fun o => { o with resourcesReady := true })
      (fun _ _ => rfl)
    dsimp only
    split
    · exact (hset.trans u (unclocked_send u _ s _ (fun _ => by
        simp only [timeoutKick, ne_eq, reduceCtorEq, not_false_eq_true]))).trans u
        (unclocked_broadcast u _ _)
    · exact hset

/-- A message of another session, or one that is neither a heartbeat nor a
    farewell. The other messages do not count as a sign of life. -/
theorem unclocked_onMessage (type : MessageType)
    (h : s = u → type ≠ .heartbeat ∧ type ≠ .disconnect) :
    Unclocked u srv (srv.onMessage host s o type payload ambient) := by
  cases type with
  | hello => exact unclocked_onHello u srv host s payload
  | auth => exact unclocked_onAuth u srv host s o payload ambient
  | heartbeat =>
      have hne : s ≠ u := fun hs => (h hs).1 rfl
      exact (unclocked_modify u srv s _ (fun hs => absurd hs hne)).trans u
        (unclocked_send u _ s _ (fun hs => absurd hs hne))
  | resourceManifestRequest =>
      simp only [onMessage, onResourceManifestRequest]
      split
      · exact unclocked_disconnect_str u srv host s _ (by decide)
      · exact unclocked_send u srv s _ (fun _ => by
          simp only [timeoutKick, ne_eq, reduceCtorEq, not_false_eq_true])
  | playerState =>
      simp only [onMessage, onPlayerState]
      split
      · exact unclocked_disconnect_str u srv host s _ (by decide)
      · exact (unclocked_modify u srv s (fun o => { o with lastPlayerState := some _ })
          (fun _ _ => rfl)).trans u (unclocked_broadcastExcept u _ s _)
  | resourcesReady => exact unclocked_onResourcesReady u srv host s o payload
  | disconnect =>
      exact unclocked_disconnectSession u srv host s _ (fun hs => absurd rfl (h hs).2)
  | unknown type => exact Unclocked.refl u srv

theorem unclocked_foldl (f : TcpServer → SessionId → TcpServer)
    (hf : ∀ acc t, Unclocked u acc (f acc t)) (ts : List SessionId) :
    Unclocked u srv (ts.foldl f srv) := by
  induction ts generalizing srv with
  | nil => exact Unclocked.refl u srv
  | cons t ts ih => exact (hf srv t).trans u (ih (f srv t))

end Messages

section Ticks

variable (srv : TcpServer) (host : Host) (now : Int)

theorem lastBeat_disconnectSession (s : SessionId) (reason : JsValue) :
    (srv.disconnectSession host s reason).lastBeat u = srv.lastBeat u :=
  map_objs_disconnectSession (·.lastHeartbeatAt) host srv s u reason
    (fun o target => o.lastHeartbeatAt_transitionTo target)

/-- A check refreshes nobody. -/
theorem lastBeat_checkHeartbeat (s : SessionId) :
    (checkHeartbeat host now srv s).lastBeat u = srv.lastBeat u := by
  unfold checkHeartbeat
  split
  · rfl
  · split
    · exact lastBeat_disconnectSession u srv host s _
    · rfl

theorem lastBeat_watchdog (ts : List SessionId) :
    (ts.foldl (checkHeartbeat host now) srv).lastBeat u = srv.lastBeat u := by
  induction ts generalizing srv with
  | nil => rfl
  | cons t ts ih => exact (ih _).trans (lastBeat_checkHeartbeat u srv host now t)

/-- A session has expired when it was last heard of too long ago. -/
theorem expired_eq : expired host now srv u
    = (srv.lastBeat u).any (fun beat => now - beat > host.heartbeatTimeoutMs) := by
  unfold expired lastBeat
  cases srv.objs u <;> rfl

theorem mem_log_removeSession (reason : JsValue) :
    (u, .kick reason) ∈ (srv.removeSession u reason).log := by
  have hsent : (u, ServerMessage.kick reason) ∈ (srv.send u (.kick reason)).log :=
    List.mem_append_right _ (List.mem_singleton_self _)
  simp only [removeSession]
  split
  · exact List.mem_append_left _ hsent
  · exact hsent

theorem mem_sessions_removeSession (s : SessionId) (reason : JsValue) (hs : s ≠ u) :
    u ∈ (srv.removeSession s reason).sessions ↔ u ∈ srv.sessions := by
  have hsessions : (srv.removeSession s reason).sessions = srv.sessions.filter (· ≠ s) := by
    simp only [removeSession]
    split <;> rfl
  rw [hsessions, List.mem_filter, and_iff_left (decide_eq_true hs.symm)]

/-- The check of another session. -/
theorem checkHeartbeat_other (s : SessionId) (hs : s ≠ u) :
    Unclocked u srv (checkHeartbeat host now srv s) ∧
      (u ∈ (checkHeartbeat host now srv s).sessions ↔ u ∈ srv.sessions) := by
  unfold checkHeartbeat
  split
  · exact ⟨Unclocked.refl u srv, Iff.rfl⟩
  · split
    · refine ⟨unclocked_disconnectSession u srv host s _ (fun heq => absurd heq hs), ?_⟩
      unfold disconnectSession
      split
      · rfl
      · exact mem_sessions_removeSession u _ s _ hs
    · exact ⟨Unclocked.refl u srv, Iff.rfl⟩

/-- A session's own check. -/
theorem checkHeartbeat_self :
    (u ∈ srv.sessions ∧ expired host now srv u = true →
        (u, timeoutKick) ∈ (checkHeartbeat host now srv u).log) ∧
      (¬ (u ∈ srv.sessions ∧ expired host now srv u = true) →
        checkHeartbeat host now srv u = srv) := by
  have hcheck : checkHeartbeat host now srv u = if expired host now srv u then
      srv.disconnectSession host u (.str (js "heartbeat timeout")) else srv := by
    rw [checkHeartbeat, expired]
    cases srv.objs u <;> rfl
  rw [hcheck]
  constructor
  · rintro ⟨hu, hexpired⟩
    rw [if_pos hexpired, disconnectSession, if_neg (not_not_intro hu)]
    exact mem_log_removeSession u _ _
  · intro hnot
    by_cases hexpired : expired host now srv u = true
    · rw [if_pos hexpired, disconnectSession, if_pos (fun hu => hnot ⟨hu, hexpired⟩)]
    · rw [if_neg hexpired]

/-- What was sent is still in the log after a tick. -/
theorem mem_log_foldl (ts : List SessionId) (h : (u, timeoutKick) ∈ srv.log) :
    (u, timeoutKick) ∈ (ts.foldl (checkHeartbeat host now) srv).log := by
  induction ts generalizing srv with
  | nil => exact h
  | cons t ts ih =>
      refine ih _ ?_
      by_cases ht : t = u
      · rw [ht]
        by_cases hout : u ∈ srv.sessions ∧ expired host now srv u = true
        · exact (checkHeartbeat_self u srv host now).1 hout
        · rwa [(checkHeartbeat_self u srv host now).2 hout]
      · exact ((checkHeartbeat_other u srv host now t ht).1.mem_log).mpr h

/-- Whom a tick times out. -/
theorem mem_log_watchdog (ts : List SessionId) :
    (u, timeoutKick) ∈ (ts.foldl (checkHeartbeat host now) srv).log ↔
      (u, timeoutKick) ∈ srv.log ∨
        (u ∈ ts ∧ u ∈ srv.sessions ∧ expired host now srv u = true) := by
  induction ts generalizing srv with
  | nil => simp only [List.foldl_nil, List.not_mem_nil, false_and, or_false]
  | cons t ts ih =>
      rw [List.foldl_cons]
      by_cases ht : t = u
      · subst ht
        by_cases hout : t ∈ srv.sessions ∧ expired host now srv t = true
        -- Once timed out, a session stays so.
        · exact iff_of_true (mem_log_foldl t _ host now ts
            ((checkHeartbeat_self t srv host now).1 hout)) (Or.inr ⟨List.mem_cons_self, hout⟩)
        · rw [(checkHeartbeat_self t srv host now).2 hout, ih,
            or_iff_left (fun h => hout h.2), or_iff_left (fun h => hout h.2)]
      · rcases checkHeartbeat_other u srv host now t ht with ⟨hunclocked, hsessions⟩
        have hmem : u ∈ t :: ts ↔ u ∈ ts := by
          rw [List.mem_cons, or_iff_right (fun heq => ht heq.symm)]
        rw [ih, hunclocked.mem_log, hsessions, expired_eq, expired_eq, hunclocked.beat, hmem]

end Ticks

end TcpServer

/-- The events that set or read the clock of a session. A client that says
    farewell chooses the reason that it is told itself. -/
def Event.clocks (u : SessionId) (e : Event) : Bool :=
  match e with
  | .connect s _ => s = u
  | .message s .heartbeat _ _ => s = u
  | .message s .disconnect _ _ => s = u
  | .watchdog _ => true
  | _ => false

theorem unclocked_step (host : Host) (srv : TcpServer) (u : SessionId) (e : Event)
    (h : e.clocks u = false) : srv.Unclocked u (step host srv e) := by
  cases e with
  | connect s now =>
      have hs : s ≠ u := of_decide_eq_false h
      rw [step]
      split
      · exact TcpServer.Unclocked.refl u srv
      · refine ⟨?_, [], (List.append_nil _).symm, List.not_mem_nil⟩
        rw [TcpServer.lastBeat, TcpServer.objs_onConnection, if_neg hs.symm, TcpServer.lastBeat]
  | message s type payload ambient =>
      rw [step]
      split
      · exact TcpServer.Unclocked.refl u srv
      · refine TcpServer.unclocked_onMessage u srv host s _ _ _ type (fun hs => ⟨?_, ?_⟩)
        · rintro rfl
          exact of_decide_eq_false h hs
        · rintro rfl
          exact of_decide_eq_false h hs
  | protocolError s => exact TcpServer.Unclocked.refl u srv
  | close s => exact TcpServer.unclocked_disconnect_str u srv host s _ (by decide)
  | watchdog now => exact Bool.noConfusion h
  | shutdown =>
      exact TcpServer.unclocked_foldl u srv _ (fun acc s =>
        TcpServer.unclocked_disconnect_str u acc host s _ (by decide)) _

/-- A heartbeat is what refreshes a session. -/
theorem step_heartbeat (host : Host) (srv : TcpServer) (u : SessionId) (payload : Option JsValue)
    (ambient : Ambient) (beat : Int) (h : srv.lastBeat u = some beat) :
    (step host srv (.message u .heartbeat payload ambient)).lastBeat u = some ambient.now ∧
      ((u, timeoutKick) ∈ (step host srv (.message u .heartbeat payload ambient)).log ↔
        (u, timeoutKick) ∈ srv.log) := by
  rcases Option.map_eq_some_iff.mp h with ⟨o, ho, -⟩
  have hstep : step host srv (.message u .heartbeat payload ambient) =
      srv.onHeartbeat u ambient := by
    simp only [step, ho, TcpServer.onMessage]
  rw [hstep]
  constructor
  · change (((srv.modify u _).objs u).map (·.lastHeartbeatAt)) = some ambient.now
    rw [TcpServer.objs_modify, if_pos rfl, ho]
    rfl
  · have hsent := TcpServer.unclocked_send u (srv.modify u (fun o => { o with
      lastHeartbeatAt := ambient.now })) u (.heartbeatAck ambient.now) (fun _ => by
        simp only [timeoutKick, ne_eq, reduceCtorEq, not_false_eq_true])
    exact hsent.mem_log

/-- A connection counts from the moment it is made. -/
theorem step_connect (host : Host) (srv : TcpServer) (u : SessionId) (now : Int)
    (h : srv.lastBeat u = none) :
    (step host srv (.connect u now)).lastBeat u = some now ∧
      (step host srv (.connect u now)).log = srv.log := by
  have ho : srv.objs u = none := Option.map_eq_none_iff.mp h
  have hstep : step host srv (.connect u now) = srv.onConnection u now := by
    rw [step, ho]
    rfl
  rw [hstep, TcpServer.lastBeat, TcpServer.objs_onConnection, if_pos rfl]
  exact ⟨rfl, rfl⟩

end Server

end MzzPlork
