import MzzPlork.Theory.Agreement
import MzzPlork.Theory.Silence

/-!
# Connections Nobody Sees

A connection that never authenticates leaves no trace with the others.

Two states of the server are compared with one session `u` taken out of both
(`SameOff`): the other objects, the order of the map and of the two logs. The
operations of the server respect the comparison. Where `u` is not
authenticated, what its own events do is invisible in it, because nothing is
broadcast on its behalf and nobody is told of it.

`sameOff_run` puts the two together: taking all events of `u` out of a run in
which it never authenticates gives a run that the others cannot tell from it.

## Main definitions

* `Event.subject`: The connection an event is about.
* `without`: A run with the events of one connection taken out.
* `SameOff`: The same, but for one session.

## Theorems

* `SameOff.step`: An event about somebody else respects the comparison.
* `sameOff_own`: An event of an unauthenticated session is invisible in it.
* `sameOff_run`: A run without the events of a session that never
  authenticates.
* `unseen`: What the others are sent and how they end up.
-/

namespace MzzPlork

namespace Server

/-- The connection an event is about. The watchdog's tick and the shutdown
    are about the whole server. -/
def Event.subject (e : Event) : Option SessionId :=
  match e with
  | .connect u _ => some u
  | .message u _ _ _ => some u
  | .protocolError u => some u
  | .close u => some u
  | .watchdog _ => none
  | .shutdown => none

/-- A run with the events of one connection taken out. -/
def without (u : SessionId) (es : List Event) : List Event :=
  es.filter (fun e => e.subject ≠ some u)

theorem without_own {u : SessionId} {e : Event} {es : List Event} (h : e.subject = some u) :
    without u (e :: es) = without u es :=
  List.filter_cons_of_neg (by simp only [h, ne_eq, not_true_eq_false, decide_false,
    Bool.false_eq_true, not_false_eq_true])

theorem without_other {u : SessionId} {e : Event} {es : List Event} (h : e.subject ≠ some u) :
    without u (e :: es) = e :: without u es :=
  List.filter_cons_of_pos (decide_eq_true h)

namespace TcpServer

/-- The same, but for one session. -/
structure SameOff (u : SessionId) (a b : TcpServer) : Prop where
  objs : ∀ s, s ≠ u → a.objs s = b.objs s
  sessions : a.sessions.filter (· ≠ u) = b.sessions.filter (· ≠ u)
  log : a.log.filter (fun call => call.1 ≠ u) = b.log.filter (fun call => call.1 ≠ u)
  disconnected : a.disconnected.filter (· ≠ u) = b.disconnected.filter (· ≠ u)

section Relation

variable {u : SessionId} {a b c : TcpServer}

theorem SameOff.refl (u : SessionId) (a : TcpServer) : SameOff u a a :=
  ⟨fun _ _ => rfl, rfl, rfl, rfl⟩

theorem SameOff.trans (h : SameOff u a b) (h' : SameOff u b c) : SameOff u a c where
  objs := fun s hs => (h.objs s hs).trans (h'.objs s hs)
  sessions := h.sessions.trans h'.sessions
  log := h.log.trans h'.log
  disconnected := h.disconnected.trans h'.disconnected

theorem SameOff.symm (h : SameOff u a b) : SameOff u b a where
  objs := fun s hs => (h.objs s hs).symm
  sessions := h.sessions.symm
  log := h.log.symm
  disconnected := h.disconnected.symm

theorem SameOff.authenticated (h : SameOff u a b) (s : SessionId) (hs : s ≠ u) :
    a.authenticated s = b.authenticated s := by
  rw [TcpServer.authenticated, TcpServer.authenticated, h.objs s hs]

theorem SameOff.playerId (h : SameOff u a b) (s : SessionId) (hs : s ≠ u) :
    a.playerId s = b.playerId s := by
  rw [TcpServer.playerId, TcpServer.playerId, h.objs s hs]

theorem SameOff.mem (h : SameOff u a b) (s : SessionId) (hs : s ≠ u) :
    s ∈ a.sessions ↔ s ∈ b.sessions := by
  have hmem : ∀ l : List SessionId, s ∈ l ↔ s ∈ l.filter (· ≠ u) := by
    intro l
    rw [List.mem_filter, decide_eq_true hs, and_iff_left rfl]
  rw [hmem a.sessions, hmem b.sessions, h.sessions]

theorem SameOff.received (h : SameOff u a b) (s : SessionId) (hs : s ≠ u) :
    a.received s = b.received s := by
  have hlog : ∀ l : List (SessionId × ServerMessage), l.filter (fun call => call.1 = s)
      = (l.filter (fun call => call.1 ≠ u)).filter (fun call => call.1 = s) := by
    intro l
    rw [List.filter_filter]
    refine List.filter_congr (fun call _ => ?_)
    by_cases hc : call.1 = s
    · simp only [hc, hs, ne_eq, not_false_eq_true, decide_true, Bool.and_self]
    · simp only [hc, decide_false, Bool.false_and]
  rw [TcpServer.received, TcpServer.received, hlog a.log, hlog b.log, h.log]

theorem SameOff.emit (h : SameOff u a b) (calls calls' : List (SessionId × ServerMessage))
    (hcalls : calls.filter (fun call => call.1 ≠ u) = calls'.filter (fun call => call.1 ≠ u)) :
    SameOff u (a.emit calls) (b.emit calls') where
  objs := h.objs
  sessions := h.sessions
  log := by
    change (a.log ++ calls).filter _ = (b.log ++ calls').filter _
    rw [List.filter_append, List.filter_append, h.log, hcalls]
  disconnected := h.disconnected

theorem SameOff.send (h : SameOff u a b) (s : SessionId) (m : ServerMessage) :
    SameOff u (a.send s m) (b.send s m) :=
  h.emit _ _ rfl

theorem SameOff.modify (h : SameOff u a b) (s : SessionId) (f : Session → Session) :
    SameOff u (a.modify s f) (b.modify s f) where
  objs := fun t ht => by rw [objs_modify, objs_modify, h.objs t ht]
  sessions := h.sessions
  log := h.log
  disconnected := h.disconnected

theorem SameOff.delete (h : SameOff u a b) (s : SessionId) :
    SameOff u (a.delete s) (b.delete s) where
  objs := h.objs
  sessions := by
    change (a.sessions.filter (· ≠ s)).filter (· ≠ u) = (b.sessions.filter (· ≠ s)).filter (· ≠ u)
    rw [List.filter_comm, h.sessions, List.filter_comm]
  log := h.log
  disconnected := h.disconnected

theorem SameOff.report (h : SameOff u a b) (s : SessionId) :
    SameOff u { a with disconnected := a.disconnected ++ [s] }
      { b with disconnected := b.disconnected ++ [s] } where
  objs := h.objs
  sessions := h.sessions
  log := h.log
  disconnected := by
    change (a.disconnected ++ [s]).filter _ = (b.disconnected ++ [s]).filter _
    rw [List.filter_append, List.filter_append, h.disconnected]

theorem SameOff.onConnection (h : SameOff u a b) (s : SessionId) (now : Int) :
    SameOff u (a.onConnection s now) (b.onConnection s now) where
  objs := fun t ht => by rw [objs_onConnection, objs_onConnection, h.objs t ht]
  sessions := by
    change (a.sessions ++ [s]).filter _ = (b.sessions ++ [s]).filter _
    rw [List.filter_append, List.filter_append, h.sessions]
  log := h.log
  disconnected := h.disconnected

/-- Who is addressed by a broadcast, `u` aside. -/
theorem SameOff.recipients (h : SameOff u a b) (p : TcpServer → SessionId → Bool)
    (hp : ∀ s, s ≠ u → p a s = p b s) (m : ServerMessage) :
    ((a.sessions.filter (p a)).map (fun s => (s, m))).filter (fun call => call.1 ≠ u)
      = ((b.sessions.filter (p b)).map (fun s => (s, m))).filter (fun call => call.1 ≠ u) := by
  rw [List.filter_map, List.filter_map]
  congr 1
  change (a.sessions.filter (p a)).filter (· ≠ u) = (b.sessions.filter (p b)).filter (· ≠ u)
  rw [List.filter_comm, h.sessions, List.filter_comm _ (p b)]
  refine List.filter_congr (fun s hs => ?_)
  exact hp s (of_decide_eq_true (List.mem_filter.mp hs).2)

theorem SameOff.broadcast (h : SameOff u a b) (e : ServerEvent) :
    SameOff u (a.broadcast e) (b.broadcast e) :=
  h.emit _ _ (h.recipients TcpServer.authenticated h.authenticated (.event e))

theorem SameOff.broadcastExcept (h : SameOff u a b) (s : SessionId) (e : ServerEvent) :
    SameOff u (a.broadcastExcept s e) (b.broadcastExcept s e) :=
  h.emit _ _ (h.recipients (fun srv t => srv.authenticated t && t ≠ s)
    (fun t ht => by rw [h.authenticated t ht]) (.event e))

theorem SameOff.disconnectSession (h : SameOff u a b) (host : Host) (s : SessionId)
    (reason : JsValue) (hs : s ≠ u) :
    SameOff u (a.disconnectSession host s reason) (b.disconnectSession host s reason) := by
  rw [TcpServer.disconnectSession, TcpServer.disconnectSession]
  by_cases hin : s ∈ b.sessions
  swap
  · rw [if_pos hin, if_pos (fun ha => hin ((h.mem s hs).mp ha))]
    exact h
  · rw [if_neg (not_not_intro hin), if_neg (not_not_intro ((h.mem s hs).mpr hin))]
    have hstate := h.modify s (fun o => o.transitionTo .disconnecting)
    simp only []
    cases JsValue.toText host.fmt reason with
    | none => exact hstate
    | some text =>
        have hgone := (hstate.send s (.kick reason)).delete s
        simp only [removeSession, hgone.authenticated s hs, hgone.playerId s hs]
        -- Whether the others are told depends on the session, which is not `u`.
        split
        · exact ((hgone.broadcastExcept s _).modify s _).report s
        · exact (hgone.modify s _).report s

end Relation

section Own

variable (a : TcpServer) (u : SessionId)

theorem sameOff_modify (f : Session → Session) : SameOff u (a.modify u f) a where
  objs := fun s hs => objs_modify_of_ne a u s f hs
  sessions := rfl
  log := rfl
  disconnected := rfl

theorem sameOff_send (m : ServerMessage) : SameOff u (a.send u m) a where
  objs := fun _ _ => rfl
  sessions := rfl
  log := by
    change (a.log ++ [(u, m)]).filter _ = _
    rw [List.filter_append, List.filter_cons_of_neg (by simp only [ne_eq, not_true_eq_false,
      decide_false, Bool.false_eq_true, not_false_eq_true]), List.filter_nil, List.append_nil]
  disconnected := rfl

theorem sameOff_delete : SameOff u (a.delete u) a where
  objs := fun _ _ => rfl
  sessions := by
    change (a.sessions.filter (· ≠ u)).filter (· ≠ u) = _
    rw [List.filter_filter]
    exact List.filter_congr (fun s _ => Bool.and_self _)
  log := rfl
  disconnected := rfl

theorem sameOff_report : SameOff u { a with disconnected := a.disconnected ++ [u] } a where
  objs := fun _ _ => rfl
  sessions := rfl
  log := rfl
  disconnected := by
    change (a.disconnected ++ [u]).filter _ = _
    rw [List.filter_append, List.filter_cons_of_neg (by simp only [ne_eq, not_true_eq_false,
      decide_false, Bool.false_eq_true, not_false_eq_true]), List.filter_nil, List.append_nil]

theorem sameOff_onConnection (now : Int) : SameOff u (a.onConnection u now) a where
  objs := fun s hs => by rw [objs_onConnection, if_neg hs]
  sessions := by
    change (a.sessions ++ [u]).filter _ = _
    rw [List.filter_append, List.filter_cons_of_neg (by simp only [ne_eq, not_true_eq_false,
      decide_false, Bool.false_eq_true, not_false_eq_true]), List.filter_nil, List.append_nil]
  log := rfl
  disconnected := rfl

/-- Nobody is told that an unauthenticated session left. -/
theorem sameOff_disconnectSession (host : Host) (reason : JsValue)
    (hu : a.authenticated u = false) : SameOff u (a.disconnectSession host u reason) a := by
  rw [disconnectSession]
  split
  · exact SameOff.refl u a
  · have hstate := a.sameOff_modify u (fun o => o.transitionTo .disconnecting)
    simp only []
    cases JsValue.toText host.fmt reason with
    | none => exact hstate
    | some text =>
        have hquiet : (((a.modify u (fun o => o.transitionTo .disconnecting)).send u
            (.kick reason)).delete u).authenticated u = false :=
          (authenticated_modify a u u _ (fun o => o.authenticated_transitionTo _)).trans hu
        simp only [removeSession, hquiet, Bool.false_eq_true, if_false]
        exact (sameOff_report _ u).trans ((sameOff_modify _ u _).trans ((sameOff_delete _ u).trans
          ((sameOff_send _ u _).trans hstate)))

end Own

section Handlers

variable {u : SessionId} {a b : TcpServer} (host : Host) (s : SessionId) (o : Session)
  (payload : JsValue) (ambient : Ambient)

theorem SameOff.onHello (h : SameOff u a b) (hs : s ≠ u) :
    SameOff u (a.onHello host s payload) (b.onHello host s payload) := by
  have hset := h.modify s (fun o => { o with
    helloReceived := true, clientProtocolVersion := payload.field (js "protocolVersion") })
  simp only [TcpServer.onHello, isProtocolCompatible]
  cases JsValue.textOf host.fmt (payload.field (js "protocolVersion")) with
  | none => exact hset
  | some text =>
      rw [Option.map_some]
      cases decide (protocolMajor text = protocolMajor protocolVersion) with
      | true => exact (hset.send s _).modify s _
      | false => exact (hset.send s _).disconnectSession host s _ hs

/-- What a newcomer is told of the others does not depend on a session that is
    not authenticated. -/
theorem SameOff.backfill (h : SameOff u a b) (ha : a.authenticated u = false)
    (hb : b.authenticated u = false) : a.backfill s = b.backfill s := by
  have hothers : ∀ srv : TcpServer, srv.authenticated u = false →
      srv.sessions.filter (fun t => t ≠ s && srv.authenticated t)
        = (srv.sessions.filter (· ≠ u)).filter (fun t => t ≠ s && srv.authenticated t) := by
    intro srv hsrv
    rw [List.filter_filter]
    refine List.filter_congr (fun t _ => ?_)
    by_cases ht : t = u
    · rw [ht, hsrv, Bool.and_false, Bool.false_and]
    · rw [decide_eq_true ht, Bool.and_true]
  rw [TcpServer.backfill, TcpServer.backfill, hothers a ha, hothers b hb, h.sessions]
  have hoff : ∀ t ∈ b.sessions.filter (· ≠ u), t ≠ u :=
    fun t ht => of_decide_eq_true (List.mem_filter.mp ht).2
  rw [List.filter_congr (fun t ht => by rw [h.authenticated t (hoff t ht)])]
  refine List.flatMap_congr (fun t ht => ?_)
  rw [introduction, introduction, h.objs t (hoff t (List.mem_of_mem_filter ht))]

theorem SameOff.welcome (h : SameOff u a b) (ha : a.authenticated u = false)
    (hb : b.authenticated u = false) (hs : s ≠ u) (clientId : JsValue) (result : AuthResult) :
    SameOff u (a.welcome s clientId result) (b.welcome s clientId result) := by
  have hresult := (h.modify s (fun o => { o with
    authenticated := result.ok, clientId := clientId, playerId := result.playerId,
    displayName := result.displayName })).send s (.authResult result)
  simp only [TcpServer.welcome]
  split
  · have hin := hresult.modify s (fun o => o.transitionTo .authenticated)
    -- The newcomer is not `u`, so `u` is still not authenticated.
    have hback := hin.backfill s ((a.authenticated_admitted s clientId result u hs.symm).trans ha)
      ((b.authenticated_admitted s clientId result u hs.symm).trans hb)
    refine (hin.emit _ _ ?_).broadcastExcept s _
    rw [hback]
  · exact hresult

theorem SameOff.onAuth (h : SameOff u a b) (ha : a.authenticated u = false)
    (hb : b.authenticated u = false) (hs : s ≠ u) :
    SameOff u (a.onAuth host s o payload ambient) (b.onAuth host s o payload ambient) := by
  simp only [TcpServer.onAuth]
  split
  · exact h.disconnectSession host s _ hs
  · split
    · exact h
    · exact h.welcome s ha hb hs _ _

theorem SameOff.onPlayerState (h : SameOff u a b) (hs : s ≠ u) :
    SameOff u (a.onPlayerState host s o payload) (b.onPlayerState host s o payload) := by
  simp only [TcpServer.onPlayerState]
  split
  · exact h.disconnectSession host s _ hs
  · exact (h.modify s _).broadcastExcept s _

theorem SameOff.onResourcesReady (h : SameOff u a b) (hs : s ≠ u) :
    SameOff u (a.onResourcesReady host s o payload) (b.onResourcesReady host s o payload) := by
  simp only [TcpServer.onResourcesReady]
  split
  · exact h.disconnectSession host s _ hs
  · split
    · exact ((h.modify s _).send s _).broadcast _
    · exact h.modify s _

/-- A message of somebody else. -/
theorem SameOff.onMessage (h : SameOff u a b) (ha : a.authenticated u = false)
    (hb : b.authenticated u = false) (hs : s ≠ u) (type : MessageType) :
    SameOff u (a.onMessage host s o type payload ambient)
      (b.onMessage host s o type payload ambient) := by
  cases type with
  | hello => exact h.onHello host s payload hs
  | auth => exact h.onAuth host s o payload ambient ha hb hs
  | heartbeat => exact (h.modify s _).send s _
  | resourceManifestRequest =>
      simp only [TcpServer.onMessage, onResourceManifestRequest]
      split
      · exact h.disconnectSession host s _ hs
      · exact h.send s _
  | playerState => exact h.onPlayerState host s o payload hs
  | resourcesReady => exact h.onResourcesReady host s o payload hs
  | disconnect => exact h.disconnectSession host s _ hs
  | unknown type => exact h

/-- A message of `u`, which is not authenticated before it or after it. -/
theorem sameOff_onMessage (a : TcpServer) (ho : a.objs u = some o)
    (ha : a.authenticated u = false) (type : MessageType)
    (hafter : (a.onMessage host u o type payload ambient).authenticated u = false) :
    SameOff u (a.onMessage host u o type payload ambient) a := by
  have hflag : o.authenticated = false := by
    rw [TcpServer.authenticated, ho] at ha
    exact ha
  cases type with
  | hello =>
      have hset := a.sameOff_modify u (fun o => { o with
        helloReceived := true, clientProtocolVersion := payload.field (js "protocolVersion") })
      have hquiet : ∀ m, ((a.modify u (fun o => { o with
          helloReceived := true,
          clientProtocolVersion := payload.field (js "protocolVersion") })).send u
            m).authenticated u = false :=
        fun _ => (authenticated_modify a u u (fun o => { o with
          helloReceived := true,
          clientProtocolVersion := payload.field (js "protocolVersion") })
            (fun _ => rfl)).trans ha
      simp only [TcpServer.onMessage, TcpServer.onHello, isProtocolCompatible]
      cases JsValue.textOf host.fmt (payload.field (js "protocolVersion")) with
      | none => exact hset
      | some text =>
          rw [Option.map_some]
          cases decide (protocolMajor text = protocolMajor protocolVersion) with
          | true => exact (sameOff_modify _ u _).trans ((sameOff_send _ u _).trans hset)
          | false =>
              exact (sameOff_disconnectSession _ u host _ (hquiet _)).trans
                ((sameOff_send _ u _).trans hset)
  | auth =>
      simp only [TcpServer.onMessage, TcpServer.onAuth] at hafter ⊢
      split
      · exact a.sameOff_disconnectSession u host _ ha
      · rename_i hh
        rw [if_neg hh] at hafter
        cases hres : authenticate host.fmt (payload.field (js "clientId"))
          (payload.field (js "displayName")) ambient.playerUuid ambient.sessionUuid with
        | none => exact SameOff.refl u a
        -- An issued id sets the flag, which is not set.
        | some result =>
            have hok := ok_of_authenticate host.fmt _ _ _ _ result hres
            simp only [hres] at hafter
            rw [(a.joined_welcome u _ result o ho hok).auth_self] at hafter
            exact Bool.noConfusion hafter
  | heartbeat => exact (sameOff_send _ u _).trans (a.sameOff_modify u _)
  | resourceManifestRequest =>
      simp only [TcpServer.onMessage, onResourceManifestRequest, hflag, Bool.not_false, if_true]
      exact a.sameOff_disconnectSession u host _ ha
  | playerState =>
      simp only [TcpServer.onMessage, TcpServer.onPlayerState, hflag, Bool.not_false, if_true]
      exact a.sameOff_disconnectSession u host _ ha
  | resourcesReady =>
      simp only [TcpServer.onMessage, TcpServer.onResourcesReady, hflag, Bool.not_false, if_true]
      exact a.sameOff_disconnectSession u host _ ha
  | disconnect => exact a.sameOff_disconnectSession u host _ ha
  | unknown type => exact SameOff.refl u a

end Handlers

/-- Going through the sessions of a map, where what is done to `u` does not
    show. -/
theorem SameOff.foldl {u : SessionId} (f : TcpServer → SessionId → TcpServer)
    (hquiet : ∀ srv s, srv.authenticated u = false → (f srv s).authenticated u = false)
    (hown : ∀ srv, srv.authenticated u = false → SameOff u (f srv u) srv)
    (hother : ∀ srv srv' s, SameOff u srv srv' → s ≠ u → SameOff u (f srv s) (f srv' s))
    (ss : List SessionId) (a b : TcpServer) (h : SameOff u a b)
    (ha : a.authenticated u = false) :
    SameOff u (ss.foldl f a) ((ss.filter (· ≠ u)).foldl f b) := by
  induction ss generalizing a b with
  | nil => exact h
  | cons s ss ih =>
      by_cases hs : s = u
      · have hcut : (s :: ss).filter (· ≠ u) = ss.filter (· ≠ u) :=
          List.filter_cons_of_neg (by simp only [hs, ne_eq, not_true_eq_false, decide_false,
            Bool.false_eq_true, not_false_eq_true])
        rw [hcut, List.foldl_cons]
        refine ih (f a s) b (SameOff.trans ?_ h) (hquiet a s ha)
        rw [hs]
        exact hown a ha
      · have hkeep : (s :: ss).filter (· ≠ u) = s :: ss.filter (· ≠ u) :=
          List.filter_cons_of_pos (decide_eq_true hs)
        rw [hkeep, List.foldl_cons, List.foldl_cons]
        exact ih (f a s) (f b s) (hother a b s h hs) (hquiet a s ha)

/-- An event about somebody else. -/
theorem sameOff_other (host : Host) (u : SessionId) (a b : TcpServer) (e : Event)
    (h : SameOff u a b) (ha : a.authenticated u = false) (hb : b.authenticated u = false)
    (hu : e.subject ≠ some u) : SameOff u (step host a e) (step host b e) := by
  -- A tick and a shutdown go through the map as it was at their start.
  have hall : ∀ f : TcpServer → SessionId → TcpServer,
      (∀ srv s, srv.authenticated u = false → (f srv s).authenticated u = false) →
      (∀ srv, srv.authenticated u = false → SameOff u (f srv u) srv) →
      (∀ srv srv' s, SameOff u srv srv' → s ≠ u → SameOff u (f srv s) (f srv' s)) →
      SameOff u (a.sessions.foldl f a) (b.sessions.foldl f b) := by
    intro f hquiet hown hother
    have hleft := SameOff.foldl f hquiet hown hother a.sessions a b h ha
    have hright := SameOff.foldl f hquiet hown hother b.sessions b b (SameOff.refl u b) hb
    rw [h.sessions] at hleft
    exact hleft.trans hright.symm
  have hquiet : ∀ (srv : TcpServer) (s : SessionId) (reason : JsString),
      srv.authenticated u = false →
        (srv.disconnectSession host s (.str reason)).authenticated u = false :=
    fun srv s reason hsrv => ((srv.removed_disconnectSession_str host s reason).auth u).trans hsrv
  cases e with
  | connect s now =>
      have hs : s ≠ u := fun heq => hu (congrArg some heq)
      simp only [step, h.objs s hs]
      split
      · exact h
      · exact h.onConnection s now
  | message s type payload ambient =>
      have hs : s ≠ u := fun heq => hu (congrArg some heq)
      simp only [step, h.objs s hs]
      cases b.objs s with
      | none => exact h
      | some o => exact h.onMessage host s o _ ambient ha hb hs type
  | protocolError s => exact h
  | close s =>
      exact h.disconnectSession host s (.str (js "connection closed"))
        (fun heq => hu (congrArg some heq))
  | watchdog now =>
      refine hall (checkHeartbeat host now) (fun srv s hsrv => ?_) (fun srv hsrv => ?_)
        (fun srv srv' s hsame hs => ?_)
      · rw [checkHeartbeat]
        split
        · exact hsrv
        · split
          · exact hquiet srv s _ hsrv
          · exact hsrv
      · rw [checkHeartbeat]
        split
        · exact SameOff.refl u srv
        · split
          · exact srv.sameOff_disconnectSession u host _ hsrv
          · exact SameOff.refl u srv
      · rw [checkHeartbeat, checkHeartbeat, hsame.objs s hs]
        split
        · exact hsame
        · split
          · exact hsame.disconnectSession host s _ hs
          · exact hsame
  | shutdown =>
      exact hall (fun acc s => acc.disconnectSession host s (.str (js "server shutting down")))
        (fun srv s hsrv => hquiet srv s _ hsrv)
        (fun srv hsrv => srv.sameOff_disconnectSession u host _ hsrv)
        (fun srv srv' s hsame hs => hsame.disconnectSession host s _ hs)

/-- An event about `u`, which is not authenticated before it or after it. -/
theorem sameOff_own (host : Host) (u : SessionId) (a : TcpServer) (e : Event)
    (ha : a.authenticated u = false) (hafter : (step host a e).authenticated u = false)
    (hu : e.subject = some u) : SameOff u (step host a e) a := by
  cases e with
  | connect s now =>
      rw [← Option.some.inj hu]
      simp only [step]
      split
      · exact SameOff.refl s a
      · exact a.sameOff_onConnection s now
  | message s type payload ambient =>
      rw [Option.some.inj hu] at hafter ⊢
      simp only [step] at hafter ⊢
      cases ho : a.objs u with
      | none => exact SameOff.refl u a
      | some o =>
          simp only [ho] at hafter
          exact sameOff_onMessage host o _ ambient a ho ha type hafter
  | protocolError s => exact SameOff.refl u a
  | close s =>
      rw [Option.some.inj hu]
      exact a.sameOff_disconnectSession u host (.str (js "connection closed")) ha
  | watchdog now => exact absurd hu (by simp only [Event.subject, reduceCtorEq, not_false_eq_true])
  | shutdown => exact absurd hu (by simp only [Event.subject, reduceCtorEq, not_false_eq_true])

/-- Only events about a session issue it an id. -/
theorem authenticated_step_of_subject (host : Host) (srv : TcpServer) (e : Event)
    (u : SessionId) (hu : e.subject ≠ some u) :
    (step host srv e).authenticated u = srv.authenticated u := by
  refine authenticated_step_of_ne host srv e u (fun p hp => ?_)
  cases e with
  | message s type payload ambient =>
      simp only [effect] at hp
      cases ho : srv.objs s with
      | none => simp only [ho, reduceCtorEq] at hp
      | some o =>
          rw [ho] at hp
          exact messageEffect_ne_joined host s u o type _ ambient p
            (fun heq => hu (congrArg some heq.symm)) hp
  | _ => exact Effect.noConfusion hp

/-- The run without the events of `u`. -/
theorem sameOff_run (host : Host) (u : SessionId) (es : List Event) (a b : TcpServer)
    (h : SameOff u a b) (hb : b.authenticated u = false)
    (hnever : Run.Always (step host) (fun srv => srv.authenticated u = false) a es) :
    SameOff u (es.foldl (step host) a) ((without u es).foldl (step host) b) := by
  induction es generalizing a b with
  | nil => exact h
  | cons e es ih =>
      rcases (Run.always_cons _ _ a e es).mp hnever with ⟨ha, hrest⟩
      have hafter : (step host a e).authenticated u = false := hrest [] List.nil_prefix
      rw [List.foldl_cons]
      by_cases hu : e.subject = some u
      -- Taken out: the step does not show.
      · rw [without_own hu]
        exact ih _ b ((sameOff_own host u a e ha hafter hu).trans h) hb hrest
      -- Left in: both runs take the step.
      · rw [without_other hu, List.foldl_cons]
        exact ih _ _ (sameOff_other host u a b e h ha hb hu)
          ((authenticated_step_of_subject host b e u hu).trans hb) hrest

end TcpServer

/-- A connection that never authenticates is invisible: without its events,
    every other session is sent the same messages and ends up the same, in the
    map or out of it. -/
theorem unseen (host : Host) (u : SessionId) (es : List Event)
    (hnever : Run.Always (step host) (fun srv => srv.authenticated u = false)
      TcpServer.init es) (s : SessionId) (hs : s ≠ u) :
    (es.foldl (step host) TcpServer.init).received s
        = ((without u es).foldl (step host) TcpServer.init).received s ∧
      (es.foldl (step host) TcpServer.init).objs s
        = ((without u es).foldl (step host) TcpServer.init).objs s ∧
      (s ∈ (es.foldl (step host) TcpServer.init).sessions ↔
        s ∈ ((without u es).foldl (step host) TcpServer.init).sessions) := by
  have hrun := TcpServer.sameOff_run host u es TcpServer.init TcpServer.init
    (TcpServer.SameOff.refl u _) rfl hnever
  exact ⟨hrun.received s hs, hrun.objs s hs, hrun.mem s hs⟩

section Lurker

/-- A client comes, a second connection reports a state it may not report and
    is thrown out, and the client reports its own. -/
def lurkerRun : List Event :=
  let ambient : Ambient := ⟨0, [], [], []⟩
  arrive (js "s1") (js "aaaaaaaa")
    ++ [.connect (js "s2") 0, .message (js "s2") .playerState none ambient,
      .message (js "s1") .playerState none ambient, .watchdog 50000]

theorem unseen_lurkerRun :
    (∀ pre ∈ lurkerRun.inits,
      (pre.foldl (step (Host.shipped (fun _ => []))) TcpServer.init).authenticated (js "s2")
        = false) ∧
    (lurkerRun.foldl (step (Host.shipped (fun _ => []))) TcpServer.init).received (js "s1")
      = ((without (js "s2") lurkerRun).foldl (step (Host.shipped (fun _ => [])))
          TcpServer.init).received (js "s1") := by
  have hnever : ∀ pre ∈ lurkerRun.inits,
      (pre.foldl (step (Host.shipped (fun _ => []))) TcpServer.init).authenticated (js "s2")
        = false := by decide
  exact ⟨hnever, (unseen (Host.shipped (fun _ => [])) (js "s2") lurkerRun
    (fun pre hpre => hnever pre ((List.mem_inits pre lurkerRun).mpr hpre)) (js "s1")
    (by decide)).1⟩

end Lurker

end Server

end MzzPlork
