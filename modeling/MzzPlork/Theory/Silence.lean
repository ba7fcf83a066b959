import MzzPlork.Base.Run
import MzzPlork.Theory.Presence

/-!
# Silence After a Disconnect

What a connection can still do once its session has left the map.

Removing a session deletes its map entry and half-closes its socket. The
framer keeps handing over the lines that arrive, and the handlers ask
`helloReceived` and `authenticated`, never whether the session is still in the
map. Three kinds of line get through: an `auth` after a `hello`, and a
`player_state` or `resources_ready` from a session that was authenticated.
`eachStep_silent_iff` says that these are all, and that a run is silent
exactly when no such line finds an authenticated session to reach.

A session leaves the map through `disconnectSession` only, and once it has
left it never comes back (`Departed`). That is what makes every further
attempt to disconnect it a no-op.

## Main definitions

* `Departed`: Disconnected sessions are known and out of the map.
* `OnlyTo`: Nothing was sent to anybody but one session.
* `Silent`: A step in which no disconnected session does anything.
* `Harmless`: The events that are silent.

## Theorems

* `departed_step`: The bookkeeping is kept by every step.
* `silent_onMessage_iff`: When a line of a disconnected session is silent.
* `silent_step_iff`: When an event is.
* `eachStep_silent_iff`: When a run is.
-/

namespace MzzPlork

namespace Server

namespace TcpServer

/-- Disconnected sessions are known and out of the map, and only known
    sessions are in it. -/
structure Departed (srv : TcpServer) : Prop where
  known : ∀ s ∈ srv.sessions, (srv.objs s).isSome = true
  gone : ∀ s ∈ srv.disconnected, s ∉ srv.sessions ∧ (srv.objs s).isSome = true

/-- Sessions only left, and those that did were reported. -/
structure Shrinks (srv srv' : TcpServer) : Prop where
  sessions : ∀ s ∈ srv'.sessions, s ∈ srv.sessions
  objs : ∀ s, (srv'.objs s).isSome = (srv.objs s).isSome
  disconnected : ∀ s ∈ srv'.disconnected,
    s ∈ srv.disconnected ∨ (s ∈ srv.sessions ∧ s ∉ srv'.sessions)

theorem Shrinks.refl (srv : TcpServer) : Shrinks srv srv :=
  ⟨fun _ h => h, fun _ => rfl, fun _ h => Or.inl h⟩

theorem Shrinks.trans {srv srv' srv'' : TcpServer} (h : Shrinks srv srv')
    (h' : Shrinks srv' srv'') : Shrinks srv srv'' where
  sessions := fun s hs => h.sessions s (h'.sessions s hs)
  objs := fun s => (h'.objs s).trans (h.objs s)
  disconnected := fun s hs => by
    -- Who was disconnected in the second part was there before the first or not.
    rcases h'.disconnected s hs with hd | ⟨hin, hout⟩
    · rcases h.disconnected s hd with hd | ⟨hin, hout⟩
      · exact Or.inl hd
      · exact Or.inr ⟨hin, fun hs' => hout (h'.sessions s hs')⟩
    · exact Or.inr ⟨h.sessions s hin, hout⟩

theorem Shrinks.departed {srv srv' : TcpServer} (h : Shrinks srv srv') (hd : srv.Departed) :
    srv'.Departed where
  known := fun s hs => (h.objs s).trans (hd.known s (h.sessions s hs))
  gone := fun s hs => by
    rw [h.objs]
    rcases h.disconnected s hs with hdis | ⟨hin, hout⟩
    · rcases hd.gone s hdis with ⟨hout, hknown⟩
      exact ⟨fun hs' => hout (h.sessions s hs'), hknown⟩
    · exact ⟨hout, hd.known s hin⟩

theorem shrinks_emit (srv : TcpServer) (calls : List (SessionId × ServerMessage)) :
    Shrinks srv (srv.emit calls) :=
  ⟨fun _ h => h, fun _ => rfl, fun _ h => Or.inl h⟩

theorem shrinks_modify (srv : TcpServer) (u : SessionId) (f : Session → Session) :
    Shrinks srv (srv.modify u f) := by
  refine ⟨fun _ h => h, fun s => ?_, fun _ h => Or.inl h⟩
  rw [objs_modify]
  split
  · exact Option.isSome_map
  · rfl

theorem shrinks_removeSession (srv : TcpServer) (u : SessionId) (reason : JsValue)
    (hu : u ∈ srv.sessions) : Shrinks srv (srv.removeSession u reason) := by
  -- Whether the rest is told or not makes no difference here.
  have hsessions : (srv.removeSession u reason).sessions = srv.sessions.filter (· ≠ u) := by
    simp only [removeSession]
    split <;> rfl
  have hdisconnected : (srv.removeSession u reason).disconnected
      = srv.disconnected ++ [u] := by
    simp only [removeSession]
    split <;> rfl
  refine ⟨fun s hs => ?_, fun s => ?_, fun s hs => ?_⟩
  · rw [hsessions] at hs
    exact List.mem_of_mem_filter hs
  · simp only [removeSession]
    split <;> exact (shrinks_modify _ u _).objs s
  · rw [hdisconnected] at hs
    rcases List.mem_append.mp hs with hs | hs
    · exact Or.inl hs
    · rw [List.mem_singleton.mp hs, hsessions]
      refine Or.inr ⟨hu, fun h => ?_⟩
      exact of_decide_eq_true (List.mem_filter.mp h).2 rfl

theorem shrinks_disconnectSession (srv : TcpServer) (host : Host) (u : SessionId)
    (reason : JsValue) : Shrinks srv (srv.disconnectSession host u reason) := by
  rw [disconnectSession]
  split
  · exact Shrinks.refl srv
  · rename_i hu
    have hstate := srv.shrinks_modify u (fun o => o.transitionTo .disconnecting)
    cases JsValue.toText host.fmt reason with
    | none => exact hstate
    | some text =>
        exact hstate.trans (shrinks_removeSession _ u reason (not_not.mp hu))

theorem shrinks_foldl (f : TcpServer → SessionId → TcpServer)
    (hf : ∀ srv u, Shrinks srv (f srv u)) (us : List SessionId) (srv : TcpServer) :
    Shrinks srv (us.foldl f srv) := by
  induction us generalizing srv with
  | nil => exact Shrinks.refl srv
  | cons u us ih => exact (hf srv u).trans (ih (f srv u))

theorem shrinks_welcome (srv : TcpServer) (u : SessionId) (clientId : JsValue)
    (result : AuthResult) (hok : result.ok = true) :
    Shrinks srv (srv.welcome u clientId result) := by
  rw [srv.welcome_eq u clientId result hok]
  refine Shrinks.trans (Shrinks.trans ?_ (shrinks_emit _ _)) (shrinks_emit _ _)
  exact ((srv.shrinks_modify u _).trans (shrinks_emit _ _)).trans (shrinks_modify _ u _)

/-- No message brings a session back. -/
theorem shrinks_onMessage (srv : TcpServer) (host : Host) (u : SessionId) (o : Session)
    (type : MessageType) (payload : JsValue) (ambient : Ambient) :
    Shrinks srv (srv.onMessage host u o type payload ambient) := by
  -- Every handler changes its session, sends, or disconnects, one after the other.
  cases type with
  | hello =>
      simp only [onMessage, onHello]
      split
      · exact ((srv.shrinks_modify u _).trans (shrinks_emit _ _)).trans (shrinks_modify _ u _)
      · exact ((srv.shrinks_modify u _).trans (shrinks_emit _ _)).trans
          (shrinks_disconnectSession _ host u _)
      · exact srv.shrinks_modify u _
  | auth =>
      simp only [onMessage, onAuth]
      split
      · exact srv.shrinks_disconnectSession host u _
      · cases hres : authenticate host.fmt (payload.field (js "clientId"))
          (payload.field (js "displayName")) ambient.playerUuid ambient.sessionUuid with
        | none => exact Shrinks.refl srv
        | some result =>
            exact srv.shrinks_welcome u _ result (ok_of_authenticate host.fmt _ _ _ _ result hres)
  | heartbeat => exact (srv.shrinks_modify u _).trans (shrinks_emit _ _)
  | resourceManifestRequest =>
      simp only [onMessage, onResourceManifestRequest]
      split
      · exact srv.shrinks_disconnectSession host u _
      · exact srv.shrinks_emit _
  | playerState =>
      simp only [onMessage, onPlayerState]
      split
      · exact srv.shrinks_disconnectSession host u _
      · exact (srv.shrinks_modify u _).trans (shrinks_emit _ _)
  | resourcesReady =>
      simp only [onMessage, onResourcesReady]
      split
      · exact srv.shrinks_disconnectSession host u _
      · split
        · exact ((srv.shrinks_modify u _).trans (shrinks_emit _ _)).trans (shrinks_emit _ _)
        · exact srv.shrinks_modify u _
  | disconnect => exact srv.shrinks_disconnectSession host u _
  | unknown type => exact Shrinks.refl srv

end TcpServer

/-- The bookkeeping is kept by every step. -/
theorem departed_step (host : Host) (srv : TcpServer) (e : Event) (hd : srv.Departed) :
    (step host srv e).Departed := by
  cases e with
  | connect u now =>
      rw [step]
      split
      · exact hd
      · rename_i hu
        have hnone : srv.objs u = none := Option.not_isSome_iff_eq_none.mp hu
        -- A new object takes the place of none.
        have hobjs : ∀ s, (srv.objs s).isSome = true →
            ((srv.onConnection u now).objs s).isSome = true := by
          intro s hs
          rw [TcpServer.objs_onConnection]
          split
          · rfl
          · exact hs
        refine ⟨fun s hs => ?_, fun s hs => ?_⟩
        · rcases List.mem_append.mp hs with hs | hs
          · exact hobjs s (hd.known s hs)
          · rw [TcpServer.objs_onConnection, if_pos (List.mem_singleton.mp hs)]
            rfl
        · rcases hd.gone s hs with ⟨hout, hknown⟩
          refine ⟨fun hin => ?_, hobjs s hknown⟩
          -- The id is new, so it is not that of a session that left.
          rcases List.mem_append.mp hin with hin | hin
          · exact hout hin
          · rw [List.mem_singleton.mp hin] at hknown
            exact hu hknown
  | message u type payload ambient =>
      rw [step]
      split
      · exact hd
      · exact (srv.shrinks_onMessage host u _ type _ ambient).departed hd
  | protocolError u => exact hd
  | close u =>
      rw [step]
      exact (srv.shrinks_disconnectSession host u _).departed hd
  | watchdog now =>
      refine (TcpServer.shrinks_foldl _ (fun acc u => ?_) srv.sessions srv).departed hd
      rw [TcpServer.checkHeartbeat]
      split
      · exact TcpServer.Shrinks.refl acc
      · split
        · exact acc.shrinks_disconnectSession host u _
        · exact TcpServer.Shrinks.refl acc
  | shutdown =>
      exact (TcpServer.shrinks_foldl _ (fun acc u => acc.shrinks_disconnectSession host u _)
        srv.sessions srv).departed hd

/-- Nothing was sent to anybody but `u`. -/
def OnlyTo (srv srv' : TcpServer) (u : SessionId) : Prop :=
  ∃ calls, srv'.log = srv.log ++ calls ∧ ∀ call ∈ calls, call.1 = u

namespace TcpServer

theorem onlyTo_refl (srv : TcpServer) (u : SessionId) : OnlyTo srv srv u :=
  ⟨[], (List.append_nil _).symm, fun _ h => absurd h List.not_mem_nil⟩

/-- Once only `u` was addressed, it depends on the next calls alone. -/
theorem onlyTo_emit_iff {srv srv' : TcpServer} {u : SessionId} (h : OnlyTo srv srv' u)
    (calls : List (SessionId × ServerMessage)) :
    OnlyTo srv (srv'.emit calls) u ↔ ∀ call ∈ calls, call.1 = u := by
  rcases h with ⟨before, hlog, hbefore⟩
  -- The log is only ever written behind, so the calls can be told apart.
  have hemit : (srv'.emit calls).log = srv.log ++ (before ++ calls) := by
    rw [emit, hlog, List.append_assoc]
  constructor
  · rintro ⟨all, hall, hu⟩ call hcall
    rw [hemit] at hall
    refine hu call ?_
    rw [← List.append_cancel_left hall]
    exact List.mem_append_right before hcall
  · intro hcalls
    refine ⟨before ++ calls, hemit, fun call hcall => ?_⟩
    exact (List.mem_append.mp hcall).elim (hbefore call) (hcalls call)

theorem onlyTo_modify (srv : TcpServer) (u : SessionId) (f : Session → Session) :
    OnlyTo srv (srv.modify u f) u :=
  ⟨[], (List.append_nil _).symm, fun _ h => absurd h List.not_mem_nil⟩

theorem onlyTo_send {srv srv' : TcpServer} {u : SessionId} (h : OnlyTo srv srv' u)
    (m : ServerMessage) : OnlyTo srv (srv'.send u m) u :=
  (onlyTo_emit_iff h [(u, m)]).mpr (fun _ hcall => by rw [List.mem_singleton.mp hcall])

section Broadcasts

variable {srv srv' : TcpServer} {u : SessionId} (h : OnlyTo srv srv' u)
  (hu : u ∉ srv'.sessions) (e : ServerEvent)

include h hu

/-- From outside the map, a broadcast reaches nobody else only if nobody is
    there. -/
theorem onlyTo_broadcast_iff :
    OnlyTo srv (srv'.broadcast e) u ↔ ∀ s, ¬ srv'.Present s := by
  rw [broadcast, onlyTo_emit_iff h]
  constructor
  · intro hcalls s hs
    have hto := hcalls (s, .event e) (List.mem_map.mpr ⟨s, List.mem_filter.mpr hs, rfl⟩)
    have hto : s = u := hto
    exact hu (hto ▸ hs.1)
  · intro hnone call hcall
    rcases List.mem_map.mp hcall with ⟨s, hs, _⟩
    exact absurd (List.mem_filter.mp hs) (hnone s)

theorem onlyTo_broadcastExcept_iff :
    OnlyTo srv (srv'.broadcastExcept u e) u ↔ ∀ s, ¬ srv'.Present s := by
  -- Leaving out a session that is not in the map leaves out nobody.
  have hfilter : srv'.sessions.filter (fun s => srv'.authenticated s && s ≠ u)
      = srv'.sessions.filter srv'.authenticated := by
    refine List.filter_congr (fun s hs => ?_)
    have hne : s ≠ u := fun heq => hu (heq ▸ hs)
    rw [decide_eq_true hne, Bool.and_true]
  rw [broadcastExcept, hfilter]
  exact onlyTo_broadcast_iff h hu e

end Broadcasts

/-- Whoever is not in the map is not disconnected again. -/
theorem disconnectSession_absent (srv : TcpServer) (host : Host) (u : SessionId)
    (reason : JsValue) (hu : u ∉ srv.sessions) : srv.disconnectSession host u reason = srv := by
  rw [disconnectSession, if_pos hu]

/-- A message that issues no id leaves every flag as it is. -/
theorem authenticated_of_removed {srv srv' : TcpServer} {c : Effect} {ks : List SessionId}
    (h : c.Relates srv srv') (hc : c = .removed ks) (u : SessionId) :
    srv'.authenticated u = srv.authenticated u := by
  rw [hc] at h
  exact h.auth u

end TcpServer

/-- When a line of a session outside the map is silent. -/
def MessageHarmless (host : Host) (srv : TcpServer) (o : Session) (type : MessageType)
    (payload : JsValue) (ambient : Ambient) : Prop :=
  match type with
  | .auth => ∀ result, o.helloReceived = true →
      authenticate host.fmt (payload.field (js "clientId")) (payload.field (js "displayName"))
        ambient.playerUuid ambient.sessionUuid = some result →
      o.authenticated = true ∧ ∀ s, ¬ srv.Present s
  | .playerState => o.authenticated = true → ∀ s, ¬ srv.Present s
  | .resourcesReady => o.authenticated = true →
      (JsValue.textOf host.fmt (payload.field (js "loadedCount"))).isSome = true →
      (JsValue.textOf host.fmt (payload.field (js "failedCount"))).isSome = true →
      ∀ s, ¬ srv.Present s
  | .hello | .heartbeat | .resourceManifestRequest | .disconnect | .unknown _ => True

namespace TcpServer

/-- Assigning a field that is not the flag leaves everybody's presence. -/
theorem present_modify (srv : TcpServer) (u s : SessionId) (f : Session → Session)
    (hf : ∀ o, (f o).authenticated = o.authenticated) :
    (srv.modify u f).Present s ↔ srv.Present s := by
  rw [Present, authenticated_modify srv u s f hf]
  exact Iff.rfl

section Lines

variable (srv : TcpServer) (host : Host) (u : SessionId) (o : Session) (payload : JsValue)
  (ambient : Ambient) (hu : u ∉ srv.sessions)

include hu

theorem onlyTo_onHello : OnlyTo srv (srv.onHello host u payload) u := by
  have hset := srv.onlyTo_modify u (fun o => { o with
    helloReceived := true, clientProtocolVersion := payload.field (js "protocolVersion") })
  simp only [onHello]
  split
  · exact onlyTo_send hset _
  · rw [disconnectSession_absent]
    · exact onlyTo_send hset _
    · exact hu
  · exact hset

theorem onlyTo_onResourceManifestRequest :
    OnlyTo srv (srv.onResourceManifestRequest host u o ambient) u := by
  rw [onResourceManifestRequest]
  split
  · rw [disconnectSession_absent srv host u _ hu]
    exact srv.onlyTo_refl u
  · exact onlyTo_send (srv.onlyTo_refl u) _

theorem onlyTo_onPlayerState_iff :
    OnlyTo srv (srv.onPlayerState host u o payload) u
      ↔ (o.authenticated = true → ∀ s, ¬ srv.Present s) := by
  simp only [onPlayerState]
  by_cases ha : o.authenticated = true
  -- What the new state is does not matter, only that it is broadcast.
  · generalize PlayerState.mk _ _ _ _ = st
    have hset := srv.onlyTo_modify u (fun o => { o with lastPlayerState := some st })
    have hout : u ∉ (srv.modify u (fun o => { o with lastPlayerState := some st })).sessions := hu
    rw [if_neg (by rw [ha]; decide), onlyTo_broadcastExcept_iff hset hout]
    simp only [ha, true_implies]
    exact forall_congr' (fun s => not_congr (present_modify srv u s _ (fun _ => rfl)))
  · rw [if_pos (Bool.not_eq_true' _ ▸ Bool.eq_false_iff.mpr ha),
      disconnectSession_absent srv host u _ hu]
    exact ⟨fun _ hc => absurd hc ha, fun _ => srv.onlyTo_refl u⟩

theorem onlyTo_onResourcesReady_iff :
    OnlyTo srv (srv.onResourcesReady host u o payload) u
      ↔ (o.authenticated = true →
        (JsValue.textOf host.fmt (payload.field (js "loadedCount"))).isSome = true →
        (JsValue.textOf host.fmt (payload.field (js "failedCount"))).isSome = true →
        ∀ s, ¬ srv.Present s) := by
  have hset := srv.onlyTo_modify u (fun o => { o with resourcesReady := true })
  simp only [onResourcesReady]
  by_cases ha : o.authenticated = true
  · rw [if_neg (by rw [ha]; decide)]
    simp only [ha, true_implies]
    cases JsValue.textOf host.fmt (payload.field (js "loadedCount")) with
    -- The log line throws before the acknowledgement is sent.
    | none => exact ⟨fun _ hc => Bool.noConfusion hc, fun _ => hset⟩
    | some loaded =>
        cases JsValue.textOf host.fmt (payload.field (js "failedCount")) with
        | none => exact ⟨fun _ _ hc => Bool.noConfusion hc, fun _ => hset⟩
        | some failed =>
            have hack := onlyTo_send hset .resourcesReadyAck
            have hout : u ∉ ((srv.modify u (fun o => { o with resourcesReady := true })).send u
              .resourcesReadyAck).sessions := hu
            simp only [Option.isSome_some, true_implies]
            rw [onlyTo_broadcast_iff hack hout]
            exact forall_congr' (fun s => not_congr
              (present_modify srv u s (fun o => { o with resourcesReady := true })
                (fun _ => rfl)))
  · rw [if_pos (Bool.not_eq_true' _ ▸ Bool.eq_false_iff.mpr ha),
      disconnectSession_absent srv host u _ hu]
    exact ⟨fun _ hc => absurd hc ha, fun _ => srv.onlyTo_refl u⟩

theorem onlyTo_welcome_iff (clientId : JsValue) (result : AuthResult) (hok : result.ok = true) :
    OnlyTo srv (srv.welcome u clientId result) u ↔ ∀ s, ¬ srv.Present s := by
  have hadmitted : OnlyTo srv (srv.admitted u clientId result) u :=
    onlyTo_send (srv.onlyTo_modify u _) (.authResult result)
  -- The result and the backfill go to the newcomer itself.
  have hbackfill := (onlyTo_emit_iff hadmitted _).mpr
    (fst_of_mem_backfill (srv.admitted u clientId result) u)
  have hout : u ∉ ((srv.admitted u clientId result).emit
    ((srv.admitted u clientId result).backfill u)).sessions := hu
  rw [srv.welcome_eq u clientId result hok, onlyTo_broadcastExcept_iff hbackfill hout]
  refine forall_congr' (fun s => not_congr ?_)
  -- The newcomer is not in the map, and nobody else was changed.
  constructor
  · rintro ⟨hs, ha⟩
    have hne : s ≠ u := fun heq => hu (heq ▸ hs)
    exact ⟨hs, (srv.authenticated_admitted u clientId result s hne).symm.trans ha⟩
  · rintro ⟨hs, ha⟩
    have hne : s ≠ u := fun heq => hu (heq ▸ hs)
    exact ⟨hs, (srv.authenticated_admitted u clientId result s hne).trans ha⟩

end Lines

/-- Only an `auth` issues an id. -/
theorem messageEffect_removed (host : Host) (u : SessionId) (o : Session) (type : MessageType)
    (payload : JsValue) (ambient : Ambient) (htype : type ≠ .auth) :
    ∃ ks, messageEffect host u o type payload ambient = .removed ks := by
  cases type with
  | hello =>
      simp only [messageEffect]
      split <;> exact ⟨_, rfl⟩
  | auth => exact absurd rfl htype
  | heartbeat => exact ⟨[], rfl⟩
  | resourceManifestRequest =>
      simp only [messageEffect]
      split <;> exact ⟨_, rfl⟩
  | playerState =>
      simp only [messageEffect]
      split <;> exact ⟨_, rfl⟩
  | resourcesReady =>
      simp only [messageEffect]
      split <;> exact ⟨_, rfl⟩
  | disconnect =>
      simp only [messageEffect]
      split <;> exact ⟨_, rfl⟩
  | unknown type => exact ⟨[], rfl⟩

section Lines

variable (srv : TcpServer) (host : Host) (u : SessionId) (o : Session) (payload : JsValue)
  (ambient : Ambient) (hu : u ∉ srv.sessions) (ho : srv.objs u = some o)

include hu ho

theorem silent_onAuth_iff :
    (OnlyTo srv (srv.onAuth host u o payload ambient) u ∧ (srv.authenticated u = false →
      (srv.onAuth host u o payload ambient).authenticated u = false)) ↔
      MessageHarmless host srv o .auth payload ambient := by
  have hflag : srv.authenticated u = o.authenticated := by rw [authenticated, ho]
  simp only [onAuth, MessageHarmless]
  by_cases hh : o.helloReceived = true
  · rw [if_neg (by rw [hh]; decide)]
    cases hres : authenticate host.fmt (payload.field (js "clientId"))
      (payload.field (js "displayName")) ambient.playerUuid ambient.sessionUuid with
    | none =>
        -- `authenticate` throws, so nothing is sent and nothing set.
        exact ⟨fun _ result _ hc => by simp only [reduceCtorEq] at hc,
          fun _ => ⟨srv.onlyTo_refl u, fun h => h⟩⟩
    | some result =>
        have hok := ok_of_authenticate host.fmt _ _ _ _ result hres
        -- The flag is set now, so it must have been set before.
        have hnow := (srv.joined_welcome u (JsValue.orElse (payload.field (js "clientId")) .null)
          result o ho hok).auth_self
        simp only []
        rw [srv.onlyTo_welcome_iff u hu _ result hok, hnow, hflag]
        constructor
        · rintro ⟨hnone, hstay⟩ result' _ _
          refine ⟨?_, hnone⟩
          by_contra hnot
          exact Bool.noConfusion (hstay (Bool.eq_false_iff.mpr hnot))
        · intro h
          rcases h result hh rfl with ⟨ha, hnone⟩
          exact ⟨hnone, fun hf => absurd (ha.symm.trans hf) (by decide)⟩
  · rw [if_pos (Bool.not_eq_true' _ ▸ Bool.eq_false_iff.mpr hh),
      disconnectSession_absent srv host u _ hu]
    exact ⟨fun _ _ hc => absurd hc hh, fun _ => ⟨srv.onlyTo_refl u, fun h => h⟩⟩

/-- A line of a session outside the map is silent exactly when it is harmless. -/
theorem silent_onMessage_iff (type : MessageType) :
    (OnlyTo srv (srv.onMessage host u o type payload ambient) u ∧
      (srv.authenticated u = false →
        (srv.onMessage host u o type payload ambient).authenticated u = false)) ↔
      MessageHarmless host srv o type payload ambient := by
  by_cases htype : type = .auth
  · rw [htype]
    exact silent_onAuth_iff srv host u o payload ambient hu ho
  · rcases messageEffect_removed host u o type payload ambient htype with ⟨ks, hks⟩
    -- No other message sets the flag, so only the calls are left to look at.
    have hsame := authenticated_of_removed
      (srv.relates_onMessage host u o payload ambient type ho) hks u
    rw [hsame, and_iff_left (fun h => h)]
    cases type with
    | hello => exact iff_of_true (srv.onlyTo_onHello host u payload hu) trivial
    | auth => exact absurd rfl htype
    | heartbeat =>
        exact iff_of_true (onlyTo_send (srv.onlyTo_modify u _) (.heartbeatAck ambient.now)) trivial
    | resourceManifestRequest =>
        exact iff_of_true (srv.onlyTo_onResourceManifestRequest host u o ambient hu) trivial
    | playerState => exact srv.onlyTo_onPlayerState_iff host u o payload hu
    | resourcesReady => exact srv.onlyTo_onResourcesReady_iff host u o payload hu
    | disconnect =>
        refine iff_of_true ?_ trivial
        rw [onMessage, onDisconnect, disconnectSession_absent srv host u _ hu]
        exact srv.onlyTo_refl u
    | unknown type => exact iff_of_true (srv.onlyTo_refl u) trivial

end Lines

end TcpServer

/-- The connection an event is a line from. -/
def Event.lineFrom (e : Event) : Option SessionId :=
  match e with
  | .message u _ _ _ => some u
  | .protocolError u => some u
  | .connect _ _ | .close _ | .watchdog _ | .shutdown => none

/-- A step in which no disconnected session does anything: none of its lines
    reaches another session, and none comes to count as authenticated. -/
def Silent (host : Host) (srv : TcpServer) (e : Event) : Prop :=
  ∀ u ∈ srv.disconnected,
    (e.lineFrom = some u → OnlyTo srv (step host srv e) u) ∧
      (srv.authenticated u = false → (step host srv e).authenticated u = false)

/-- The events in which no disconnected session does anything. -/
def Harmless (host : Host) (srv : TcpServer) (e : Event) : Prop :=
  match e with
  | .message u type payload ambient => u ∈ srv.disconnected → ∀ o, srv.objs u = some o →
      MessageHarmless host srv o type (JsValue.orElse payload (.obj [])) ambient
  | .connect _ _ | .protocolError _ | .close _ | .watchdog _ | .shutdown => True

/-- Only a session's own `auth` sets its flag. -/
theorem authenticated_step_of_ne (host : Host) (srv : TcpServer) (e : Event) (u : SessionId)
    (h : ∀ p, effect host srv e ≠ .joined u p) :
    (step host srv e).authenticated u = srv.authenticated u := by
  have heffect := step_effect host srv e
  cases hc : effect host srv e with
  | removed ks => exact TcpServer.authenticated_of_removed heffect hc u
  | joined v p =>
      rw [hc] at heffect
      exact heffect.auth u (fun heq => h p (by rw [hc, heq]))

theorem messageEffect_ne_joined (host : Host) (u v : SessionId) (o : Session)
    (type : MessageType) (payload : JsValue) (ambient : Ambient) (p : PlayerId) (hne : v ≠ u) :
    messageEffect host u o type payload ambient ≠ .joined v p := by
  by_cases htype : type = .auth
  · rw [htype]
    simp only [messageEffect]
    split
    · simp only [ne_eq, reduceCtorEq, not_false_eq_true]
    · split
      · simp only [ne_eq, reduceCtorEq, not_false_eq_true]
      · intro hc
        exact hne (Effect.joined.inj hc).1.symm
  · rcases TcpServer.messageEffect_removed host u o type payload ambient htype with ⟨ks, hks⟩
    rw [hks]
    simp only [ne_eq, reduceCtorEq, not_false_eq_true]

/-- An event that is no line and issues no id is silent. -/
theorem silent_of_no_line (host : Host) (srv : TcpServer) (e : Event) (hline : e.lineFrom = none)
    (hjoin : ∀ u p, effect host srv e ≠ .joined u p) : Silent host srv e := by
  refine fun u _ => ⟨fun h => ?_, fun hf => ?_⟩
  · rw [hline] at h
    exact absurd h (by simp only [reduceCtorEq, not_false_eq_true])
  · rw [authenticated_step_of_ne host srv e u (hjoin u), hf]

/-- An event is silent exactly when it is harmless. -/
theorem silent_step_iff (host : Host) (srv : TcpServer) (e : Event) (hd : srv.Departed) :
    Silent host srv e ↔ Harmless host srv e := by
  cases e with
  | message u type payload ambient =>
      constructor
      · intro hsilent hu o ho
        rcases hsilent u hu with ⟨honly, hflag⟩
        refine (srv.silent_onMessage_iff host u o _ ambient (hd.gone u hu).1 ho type).mp ?_
        simp only [step, ho] at honly hflag
        exact ⟨honly rfl, hflag⟩
      · intro hharmless v hv
        by_cases hne : v = u
        -- The line is the disconnected session's own.
        · rw [hne] at hv ⊢
          rcases Option.isSome_iff_exists.mp (hd.gone u hv).2 with ⟨o, ho⟩
          rcases (srv.silent_onMessage_iff host u o _ ambient (hd.gone u hv).1 ho type).mpr
            (hharmless hv o ho) with ⟨honly, hflag⟩
          simp only [step, ho]
          exact ⟨fun _ => honly, hflag⟩
        -- It is another session's line, and issues no id to this one.
        · refine ⟨fun hline => absurd (Option.some.inj hline).symm hne, fun hf => ?_⟩
          rw [authenticated_step_of_ne host srv _ v, hf]
          intro p
          simp only [effect]
          cases srv.objs u with
          | none => simp only [ne_eq, reduceCtorEq, not_false_eq_true]
          | some o => exact messageEffect_ne_joined host u v o type _ ambient p hne
  | protocolError u =>
      refine iff_of_true (fun v hv => ⟨fun _ => srv.onlyTo_refl v, fun hf => hf⟩) trivial
  | connect u now =>
      exact iff_of_true (silent_of_no_line host srv _ rfl (fun _ _ => Effect.noConfusion)) trivial
  | close u =>
      exact iff_of_true (silent_of_no_line host srv _ rfl (fun _ _ => Effect.noConfusion)) trivial
  | watchdog now =>
      exact iff_of_true (silent_of_no_line host srv _ rfl (fun _ _ => Effect.noConfusion)) trivial
  | shutdown =>
      exact iff_of_true (silent_of_no_line host srv _ rfl (fun _ _ => Effect.noConfusion)) trivial

theorem departed_init : TcpServer.init.Departed :=
  ⟨fun _ h => absurd h List.not_mem_nil, fun _ h => absurd h List.not_mem_nil⟩

/-- Disconnected sessions stay silent along a run exactly when every step of
    the run is harmless. -/
theorem eachStep_silent_iff (host : Host) (es : List Event) :
    Run.EachStep (step host) (Silent host) TcpServer.init es ↔
      Run.EachStep (step host) (Harmless host) TcpServer.init es :=
  Run.eachStep_congr (step host) TcpServer.Departed (departed_step host) (Silent host)
    (Harmless host) (silent_step_iff host) es TcpServer.init departed_init

section Divergence

/-- A player is there, and a second connection says hello and disconnects. -/
def departureRun : List Event :=
  let ambient : Ambient := ⟨0, [], [], []⟩
  let hello : Option JsValue := some (.obj [(js "protocolVersion", .str (js "1.0"))])
  [.connect (js "s1") 0, .message (js "s1") .hello hello ambient,
    .message (js "s1") .auth (some (.obj [(js "clientId", .str (js "aaaaaaaa"))])) ambient,
    .connect (js "s2") 0, .message (js "s2") .hello hello ambient,
    .message (js "s2") .disconnect none ambient]

/-- An `auth` that was in the same chunk as the `disconnect`. -/
def lateAuth : Event :=
  .message (js "s2") .auth (some (.obj [(js "clientId", .str (js "bbbbbbbb"))])) ⟨0, [], [], []⟩

/-- The server after that. -/
def afterDeparture : TcpServer :=
  departureRun.foldl (step (Host.shipped (fun _ => []))) TcpServer.init

/-- The late `auth` makes the disconnected session count as authenticated and
    tells the player who is there that somebody joined. -/
theorem not_silent_lateAuth :
    js "s2" ∈ afterDeparture.disconnected ∧
      ¬ Silent (Host.shipped (fun _ => [])) afterDeparture lateAuth := by
  have hgone : js "s2" ∈ afterDeparture.disconnected := by decide
  refine ⟨hgone, fun hsilent => ?_⟩
  have hflag := (hsilent (js "s2") hgone).2 (by decide)
  exact absurd hflag (by decide)

end Divergence

end Server

end MzzPlork
