import MzzPlork.Theory.Agreement
import MzzPlork.Theory.Silence

/-!
# Catching Up With the Others

What a client knows of another player's state.

A state reaches a client on one of two ways. It is relayed when its player
reports it, to everybody who is there by then, and it is handed to a newcomer
together with the player's introduction. `Told` says of the messages sent to
one client that the last state they carry for a player is a given one and
that the player was introduced before it. Along a run in which sessions
authenticate once and player ids are not shared, every present session has
been told exactly what the server keeps as `lastPlayerState` of every other
(`Caught`), and that is what the player reported last.

Both assumptions are needed. A second `auth` gives a session a new id under
which it has not been introduced with a state, and under a shared id the
states of two sessions cannot be told apart.

## Main definitions

* `Told`: What a list of messages says of one player.
* `Distinct`: No two sessions were issued the same player id.
* `Still`: A step that reports no state and issues no id.
* `Caught`: Everybody present has been told of everybody else's state.
* `LastReport`: What a player reported last in a run.

## Theorems

* `still_step`: Which steps are still.
* `caught_step`: A step keeps `Caught`.
* `caught_up`: What was told at the end of a run is what was reported last.
-/

namespace MzzPlork

namespace Server

/-- The messages introduce a player. -/
def ToldJoined (ms : List ServerMessage) (p : PlayerId) : Prop :=
  ∃ name, .event (.playerJoined p name) ∈ ms

/-- The last state the messages carry for a player is `st`, and the player was
    introduced before it. -/
def ToldState (ms : List ServerMessage) (p : PlayerId) (st : PlayerState) : Prop :=
  ∃ before name between after,
    ms = before ++ .event (.playerJoined p name) :: between
      ++ .event (.playerState p st) :: after ∧
    ∀ st', .event (.playerState p st') ∉ after

/-- The messages introduce a player and leave off at its last state, if it has
    one. -/
def Told (ms : List ServerMessage) (p : PlayerId) (last : Option PlayerState) : Prop :=
  match last with
  | none => ToldJoined ms p
  | some st => ToldState ms p st

section Told

variable {ms : List ServerMessage} {p : PlayerId} {last : Option PlayerState}

theorem Told.joined (h : Told ms p last) : ToldJoined ms p := by
  cases last with
  | none => exact h
  | some st =>
      rcases h with ⟨before, name, between, after, rfl, _⟩
      refine ⟨name, ?_⟩
      simp only [List.mem_append, List.mem_cons, true_or, or_true]

/-- Messages that carry no state of the player change nothing. -/
theorem Told.append (h : Told ms p last) (ms' : List ServerMessage)
    (hms : ∀ st, .event (.playerState p st) ∉ ms') : Told (ms ++ ms') p last := by
  cases last with
  | none =>
      rcases h with ⟨name, hname⟩
      exact ⟨name, List.mem_append_left _ hname⟩
  | some st =>
      rcases h with ⟨before, name, between, after, rfl, hafter⟩
      refine ⟨before, name, between, after ++ ms', ?_, fun st' hst => ?_⟩
      · simp only [List.append_assoc, List.cons_append]
      · rcases List.mem_append.mp hst with hst | hst
        · exact hafter st' hst
        · exact hms st' hst

/-- A player that was introduced reports a state, once or several times. -/
theorem ToldJoined.report (h : ToldJoined ms p) (st : PlayerState) (ms' : List ServerMessage)
    (hne : ms' ≠ []) (hms : ∀ m ∈ ms', m = .event (.playerState p st)) :
    Told (ms ++ ms') p (some st) := by
  rcases h with ⟨name, hname⟩
  rcases List.append_of_mem hname with ⟨before, between, rfl⟩
  rcases List.eq_nil_or_concat ms' with hnil | ⟨reports, m, rfl⟩
  · exact absurd hnil hne
  · have hm := hms m (by simp only [List.concat_eq_append, List.mem_append, List.mem_cons,
      List.not_mem_nil, or_false, or_true])
    refine ⟨before, name, between ++ reports, [], ?_, fun _ => List.not_mem_nil⟩
    rw [hm]
    simp only [List.concat_eq_append, List.append_assoc, List.cons_append]

end Told

namespace TcpServer

/-- The last state a session reported. -/
def lastState (srv : TcpServer) (u : SessionId) : Option PlayerState :=
  (srv.objs u).bind (·.lastPlayerState)

/-- No two sessions were issued the same player id. -/
def Distinct (srv : TcpServer) : Prop :=
  ∀ s t r r', (s, .authResult r) ∈ srv.log → (t, .authResult r') ∈ srv.log →
    r.playerId = r'.playerId → s = t

/-- Neither a state nor the issuing of an id. -/
def isQuiet (m : ServerMessage) : Bool :=
  match m with
  | .event (.playerState _ _) => false
  | .authResult _ => false
  | _ => true

/-- Nobody reported a state, nobody was issued an id, and nobody came. -/
structure Still (srv srv' : TcpServer) : Prop where
  log : ∃ calls, srv'.log = srv.log ++ calls ∧ ∀ call ∈ calls, isQuiet call.2 = true
  last : ∀ s, srv'.lastState s = srv.lastState s
  auth : ∀ s, srv'.authenticated s = srv.authenticated s
  pid : ∀ s, srv'.playerId s = srv.playerId s
  present : ∀ s, srv'.Present s → srv.Present s

section Still

variable {srv srv' srv'' : TcpServer}

theorem Still.refl (srv : TcpServer) : Still srv srv :=
  ⟨⟨[], (List.append_nil _).symm, fun _ h => absurd h List.not_mem_nil⟩, fun _ => rfl,
    fun _ => rfl, fun _ => rfl, fun _ h => h⟩

theorem Still.trans (h : Still srv srv') (h' : Still srv' srv'') : Still srv srv'' where
  log := by
    rcases h.log with ⟨calls, hlog, hcalls⟩
    rcases h'.log with ⟨calls', hlog', hcalls'⟩
    refine ⟨calls ++ calls', ?_, fun call hcall => ?_⟩
    · rw [hlog', hlog, List.append_assoc]
    · rcases List.mem_append.mp hcall with hcall | hcall
      · exact hcalls call hcall
      · exact hcalls' call hcall
  last := fun s => (h'.last s).trans (h.last s)
  auth := fun s => (h'.auth s).trans (h.auth s)
  pid := fun s => (h'.pid s).trans (h.pid s)
  present := fun s hs => h.present s (h'.present s hs)

theorem Still.report (h : Still srv srv') (u : SessionId) :
    Still srv { srv' with disconnected := srv'.disconnected ++ [u] } :=
  ⟨h.log, h.last, h.auth, h.pid, h.present⟩

theorem still_emit (srv : TcpServer) (calls : List (SessionId × ServerMessage))
    (h : ∀ call ∈ calls, isQuiet call.2 = true) : Still srv (srv.emit calls) :=
  ⟨⟨calls, rfl, h⟩, fun _ => rfl, fun _ => rfl, fun _ => rfl, fun _ h => h⟩

theorem still_send (srv : TcpServer) (u : SessionId) (m : ServerMessage) (h : isQuiet m = true) :
    Still srv (srv.send u m) :=
  srv.still_emit _ (fun call hcall => by rw [List.mem_singleton.mp hcall]; exact h)

theorem still_broadcast (srv : TcpServer) (e : ServerEvent) (h : isQuiet (.event e) = true) :
    Still srv (srv.broadcast e) := by
  refine srv.still_emit _ (fun call hcall => ?_)
  rcases List.mem_map.mp hcall with ⟨s, _, rfl⟩
  exact h

theorem still_broadcastExcept (srv : TcpServer) (u : SessionId) (e : ServerEvent)
    (h : isQuiet (.event e) = true) : Still srv (srv.broadcastExcept u e) := by
  refine srv.still_emit _ (fun call hcall => ?_)
  rcases List.mem_map.mp hcall with ⟨s, _, rfl⟩
  exact h

theorem lastState_modify (srv : TcpServer) (u s : SessionId) (f : Session → Session)
    (hf : ∀ o, (f o).lastPlayerState = o.lastPlayerState) :
    (srv.modify u f).lastState s = srv.lastState s := by
  rw [lastState, lastState, objs_modify]
  split
  · cases srv.objs s with
    | none => rfl
    | some o => exact hf o
  · rfl

theorem still_modify (srv : TcpServer) (u : SessionId) (f : Session → Session)
    (hlast : ∀ o, (f o).lastPlayerState = o.lastPlayerState)
    (hauth : ∀ o, (f o).authenticated = o.authenticated)
    (hpid : ∀ o, (f o).playerId = o.playerId) : Still srv (srv.modify u f) where
  log := ⟨[], (List.append_nil _).symm, fun _ h => absurd h List.not_mem_nil⟩
  last := fun s => srv.lastState_modify u s f hlast
  auth := fun s => authenticated_modify srv u s f hauth
  pid := fun s => playerId_modify srv u s f hpid
  present := fun s hs => ⟨hs.1, (authenticated_modify srv u s f hauth).symm.trans hs.2⟩

theorem lastPlayerState_transitionTo (o : Session) (target : ConnectionState) :
    (o.transitionTo target).lastPlayerState = o.lastPlayerState := by
  rw [Session.transitionTo]
  split <;> rfl

theorem still_transition (srv : TcpServer) (u : SessionId) (target : ConnectionState) :
    Still srv (srv.modify u (fun o => o.transitionTo target)) :=
  srv.still_modify u _ (fun o => lastPlayerState_transitionTo o target)
    (fun o => o.authenticated_transitionTo target) (fun o => o.playerId_transitionTo target)

theorem still_delete (srv : TcpServer) (u : SessionId) : Still srv (srv.delete u) :=
  ⟨⟨[], (List.append_nil _).symm, fun _ h => absurd h List.not_mem_nil⟩, fun _ => rfl,
    fun _ => rfl, fun _ => rfl, fun _ h => ⟨List.mem_of_mem_filter h.1, h.2⟩⟩

/-- A disconnect is still. -/
theorem still_disconnectSession (srv : TcpServer) (host : Host) (u : SessionId)
    (reason : JsValue) : Still srv (srv.disconnectSession host u reason) := by
  rw [disconnectSession]
  split
  · exact Still.refl srv
  · have hstate := srv.still_transition u .disconnecting
    cases JsValue.toText host.fmt reason with
    | none => exact hstate
    | some text =>
        have hgone := (hstate.trans (still_send _ u (.kick reason) rfl)).trans
          (still_delete _ u)
        simp only [removeSession]
        split
        · exact ((hgone.trans (still_broadcastExcept _ u (.playerLeft _) rfl)).trans
            (still_transition _ u .disconnected)).report u
        · exact (hgone.trans (still_transition _ u .disconnected)).report u

theorem still_foldl (f : TcpServer → SessionId → TcpServer)
    (hf : ∀ srv u, Still srv (f srv u)) (us : List SessionId) (srv : TcpServer) :
    Still srv (us.foldl f srv) := by
  induction us generalizing srv with
  | nil => exact Still.refl srv
  | cons u us ih => exact (hf srv u).trans (ih (f srv u))

end Still

/-- Which messages are still: all but an `auth` and a report of somebody
    authenticated. -/
theorem still_onMessage (srv : TcpServer) (host : Host) (u : SessionId) (o : Session)
    (type : MessageType) (payload : JsValue) (ambient : Ambient) (hauth : type ≠ .auth)
    (hreport : type = .playerState → o.authenticated = false) :
    Still srv (srv.onMessage host u o type payload ambient) := by
  cases type with
  | hello =>
      -- The fields that a handler sets are none of those that stay.
      have hset := srv.still_modify u (fun o => { o with
        helloReceived := true, clientProtocolVersion := payload.field (js "protocolVersion") })
        (fun _ => rfl) (fun _ => rfl) (fun _ => rfl)
      simp only [onMessage, onHello]
      split
      · exact (hset.trans (still_send _ u _ rfl)).trans (still_transition _ u _)
      · exact (hset.trans (still_send _ u _ rfl)).trans (still_disconnectSession _ host u _)
      · exact hset
  | auth => exact absurd rfl hauth
  | heartbeat =>
      exact (srv.still_modify u (fun o => { o with lastHeartbeatAt := ambient.now })
        (fun _ => rfl) (fun _ => rfl) (fun _ => rfl)).trans (still_send _ u _ rfl)
  | resourceManifestRequest =>
      simp only [onMessage, onResourceManifestRequest]
      split
      · exact srv.still_disconnectSession host u _
      · exact srv.still_send u _ rfl
  | playerState =>
      simp only [onMessage, onPlayerState, hreport rfl, Bool.not_false, if_true]
      exact srv.still_disconnectSession host u _
  | resourcesReady =>
      have hset := srv.still_modify u (fun o => { o with resourcesReady := true })
        (fun _ => rfl) (fun _ => rfl) (fun _ => rfl)
      simp only [onMessage, onResourcesReady]
      split
      · exact srv.still_disconnectSession host u _
      · split
        · exact (hset.trans (still_send _ u _ rfl)).trans (still_broadcast _ _ rfl)
        · exact hset
  | disconnect => exact srv.still_disconnectSession host u _
  | unknown type => exact Still.refl srv

theorem still_onConnection (srv : TcpServer) (u : SessionId) (now : Int)
    (hu : srv.objs u = none) : Still srv (srv.onConnection u now) := by
  have hr := srv.removed_onConnection u now hu
  refine ⟨⟨[], (List.append_nil _).symm, fun _ h => absurd h List.not_mem_nil⟩, fun s => ?_,
    hr.auth, hr.pid, fun s hs => ((hr.present s).mp hs).1⟩
  rw [lastState, lastState, objs_onConnection]
  by_cases hs : s = u
  · rw [if_pos hs, hs, hu]
    rfl
  · rw [if_neg hs]

/-- Everybody present has been told of everybody else's state. A state is kept
    of authenticated sessions only, and their ids were issued to them. -/
structure Caught (srv : TcpServer) : Prop where
  issued : ∀ u, srv.authenticated u = true →
    ∃ r, (u, .authResult r) ∈ srv.log ∧ r.playerId = srv.playerId u
  silent : ∀ u, srv.authenticated u = false → srv.lastState u = none
  told : ∀ s t, srv.Present s → srv.Present t → s ≠ t →
    Told (srv.received s) (srv.playerId t) (srv.lastState t)

section Caught

variable {srv srv' : TcpServer}

/-- Two authenticated sessions have two ids. -/
theorem Caught.playerId_ne (h : srv.Caught) (hd : srv.Distinct) {s t : SessionId}
    (hs : srv.authenticated s = true) (ht : srv.authenticated t = true) (hne : s ≠ t) :
    srv.playerId s ≠ srv.playerId t := by
  rcases h.issued s hs with ⟨r, hr, hrp⟩
  rcases h.issued t ht with ⟨r', hr', hrp'⟩
  exact fun heq => hne (hd s t r r' hr hr' ((hrp.trans heq).trans hrp'.symm))

theorem not_state_of_isQuiet {m : ServerMessage} (h : isQuiet m = true) (p : PlayerId)
    (st : PlayerState) : m ≠ .event (.playerState p st) := by
  rintro rfl
  exact Bool.noConfusion h

/-- What a session hears in a still step. -/
theorem Still.received (h : Still srv srv') (s : SessionId) :
    ∃ ms, srv'.received s = srv.received s ++ ms ∧ ∀ m ∈ ms, isQuiet m = true := by
  rcases h.log with ⟨calls, hlog, hcalls⟩
  refine ⟨(calls.filter (fun call => call.1 = s)).map Prod.snd, ?_, fun m hm => ?_⟩
  · rw [TcpServer.received, hlog, List.filter_append, List.map_append]
    rfl
  · rcases List.mem_map.mp hm with ⟨call, hcall, rfl⟩
    exact hcalls call (List.mem_of_mem_filter hcall)

/-- A still step keeps everybody informed. -/
theorem Still.caught (h : Still srv srv') (hc : srv.Caught) : srv'.Caught where
  issued := fun u hu => by
    rcases hc.issued u ((h.auth u).symm.trans hu) with ⟨r, hr, hrp⟩
    rcases h.log with ⟨calls, hlog, _⟩
    exact ⟨r, by rw [hlog]; exact List.mem_append_left _ hr, hrp.trans (h.pid u).symm⟩
  silent := fun u hu => (h.last u).trans (hc.silent u ((h.auth u).symm.trans hu))
  told := fun s t hs ht hne => by
    rcases h.received s with ⟨ms, hms, hquiet⟩
    rw [hms, h.pid, h.last]
    exact (hc.told s t (h.present s hs) (h.present t ht) hne).append ms
      (fun st hst => not_state_of_isQuiet (hquiet _ hst) _ st rfl)

/-- What a session hears of a broadcast. -/
theorem received_broadcastExcept (srv : TcpServer) (u s : SessionId) (e : ServerEvent) :
    ∃ ms, (srv.broadcastExcept u e).received s = srv.received s ++ ms ∧
      (∀ m ∈ ms, m = .event e) ∧ (srv.Present s → s ≠ u → ms ≠ []) := by
  refine ⟨_, srv.received_emit s _, fun m hm => ?_, fun hs hne hnil => ?_⟩
  · rcases List.mem_map.mp hm with ⟨call, hcall, rfl⟩
    rcases List.mem_map.mp (List.mem_of_mem_filter hcall) with ⟨t, _, rfl⟩
    rfl
  · have hin : (s, .event e) ∈ (srv.sessions.filter
        (fun t => srv.authenticated t && t ≠ u)).map (fun t => (t, ServerMessage.event e)) :=
      List.mem_map.mpr ⟨s, List.mem_filter.mpr ⟨hs.1, by rw [hs.2, decide_eq_true hne]; rfl⟩, rfl⟩
    have hmem : ServerMessage.event e ∈ (((srv.sessions.filter
        (fun t => srv.authenticated t && t ≠ u)).map
          (fun t => (t, ServerMessage.event e))).filter (fun call => call.1 = s)).map Prod.snd :=
      List.mem_map.mpr ⟨_, List.mem_filter.mpr ⟨hin, decide_eq_true rfl⟩, rfl⟩
    rw [hnil] at hmem
    exact absurd hmem List.not_mem_nil

/-- The state a report carries. -/
def reported (payload : JsValue) : PlayerState where
  position := payload.field (js "position")
  rotation := payload.field (js "rotation")
  basicState := payload.field (js "basicState")
  timestamp := payload.field (js "timestamp")

theorem lastState_report (srv : TcpServer) (u s : SessionId) (st : PlayerState)
    (hu : srv.authenticated u = true) :
    (srv.modify u (fun o => { o with lastPlayerState := some st })).lastState s
      = if s = u then some st else srv.lastState s := by
  rw [lastState, objs_modify]
  by_cases hs : s = u
  · rcases srv.objs_of_authenticated u hu with ⟨o, ho, _⟩
    rw [if_pos hs, if_pos hs, hs, ho]
    rfl
  · rw [if_neg hs, if_neg hs]
    rfl

/-- A report is relayed to everybody else who is present. -/
theorem caught_report (srv : TcpServer) (u : SessionId) (st : PlayerState)
    (hu : srv.authenticated u = true) (hd : srv.Distinct) (hc : srv.Caught) :
    ((srv.modify u (fun o => { o with lastPlayerState := some st })).broadcastExcept u
      (.playerState (srv.playerId u) st)).Caught := by
  have hauth : ∀ s, (srv.modify u (fun o => { o with lastPlayerState := some st })).authenticated s
      = srv.authenticated s := fun s => authenticated_modify srv u s _ (fun _ => rfl)
  have hpid : ∀ s, (srv.modify u (fun o => { o with lastPlayerState := some st })).playerId s
      = srv.playerId s := fun s => playerId_modify srv u s _ (fun _ => rfl)
  refine ⟨fun s hs => ?_, fun s hs => ?_, fun s t hs ht hne => ?_⟩
  · rcases hc.issued s ((hauth s).symm.trans hs) with ⟨r, hr, hrp⟩
    exact ⟨r, List.mem_append_left _ hr, hrp.trans (hpid s).symm⟩
  · have hs' := (hauth s).symm.trans hs
    refine (srv.lastState_report u s st hu).trans ?_
    rw [if_neg (fun heq => by rw [heq, hu] at hs'; exact Bool.noConfusion hs')]
    exact hc.silent s hs'
  · have hs' : srv.Present s := ⟨hs.1, (hauth s).symm.trans hs.2⟩
    have ht' : srv.Present t := ⟨ht.1, (hauth t).symm.trans ht.2⟩
    rcases received_broadcastExcept (srv.modify u (fun o => { o with lastPlayerState := some st }))
      u s (.playerState (srv.playerId u) st) with ⟨ms, hms, heach, hne'⟩
    have hlast := srv.lastState_report u t st hu
    rw [hms]
    change Told (srv.received s ++ ms) ((srv.modify u _).playerId t) ((srv.modify u _).lastState t)
    rw [hpid, hlast]
    by_cases htu : t = u
    -- The reporter itself: its introduction is the last thing before, or an older state.
    · rw [if_pos htu, htu]
      rw [htu] at hne ht'
      exact (hc.told s u hs' ht' hne).joined.report st ms (hne' hs hne) heach
    · rw [if_neg htu]
      refine (hc.told s t hs' ht' hne).append ms (fun st' hst => ?_)
      have heq := heach _ hst
      rw [ServerMessage.event.injEq, ServerEvent.playerState.injEq] at heq
      exact hc.playerId_ne hd ht'.2 hu htu heq.1

end Caught

section Welcome

/-- An introduction ends with the last state of the player. -/
theorem told_introduction (srv : TcpServer) (u t : SessionId) (ms : List ServerMessage)
    (ht : srv.authenticated t = true) :
    Told (ms ++ (srv.introduction u t).map Prod.snd) (srv.playerId t) (srv.lastState t) := by
  rcases srv.objs_of_authenticated t ht with ⟨o, ho, _⟩
  rw [introduction, srv.playerId_eq t o ho, lastState, ho, Option.bind_some]
  cases hst : o.lastPlayerState with
  | none => exact ⟨o.displayName, List.mem_append_right _ List.mem_cons_self⟩
  | some st =>
      refine ⟨ms, o.displayName, [], [], ?_, fun _ => List.not_mem_nil⟩
      simp only [hst, List.map_cons, List.map_nil, List.append_assoc, List.cons_append,
        List.nil_append]

/-- The introduction of somebody else says nothing of a player. -/
theorem not_mem_introduction (srv : TcpServer) (u s : SessionId) (p : PlayerId)
    (hs : srv.playerId s ≠ p) (st : PlayerState) :
    .event (.playerState p st) ∉ (srv.introduction u s).map Prod.snd := by
  intro hmem
  rw [introduction] at hmem
  split at hmem
  · exact List.not_mem_nil hmem
  · rename_i o ho
    rw [List.map_cons, List.mem_cons] at hmem
    rcases hmem with heq | hmem
    · exact ServerEvent.noConfusion (ServerMessage.event.inj heq)
    · split at hmem
      · exact List.not_mem_nil hmem
      · rw [List.map_cons, List.map_nil, List.mem_singleton, ServerMessage.event.injEq,
          ServerEvent.playerState.injEq] at hmem
        exact hs ((srv.playerId_eq s o ho).trans hmem.1.symm)

/-- One introduction after another, each of somebody else or of `t`. -/
theorem told_introductions (srv : TcpServer) (u t : SessionId) (ids : List SessionId)
    (hids : ∀ s ∈ ids, s ≠ t → srv.playerId s ≠ srv.playerId t)
    (hauth : srv.authenticated t = true) (ht : t ∈ ids) (ms : List ServerMessage) :
    Told (ms ++ (ids.flatMap (srv.introduction u)).map Prod.snd) (srv.playerId t)
      (srv.lastState t) := by
  induction ids using List.reverseRecOn with
  | nil => exact absurd ht List.not_mem_nil
  | append_singleton ids s ih =>
      rw [List.flatMap_append, List.flatMap_singleton, List.map_append, ← List.append_assoc]
      by_cases hs : s = t
      · rw [hs]
        exact srv.told_introduction u t _ hauth
      · have hmem : t ∈ ids := (List.mem_append.mp ht).resolve_right
          (fun h => hs (List.mem_singleton.mp h).symm)
        refine (ih (fun s' hs' => hids s' (List.mem_append_left _ hs')) hmem).append _ ?_
        exact srv.not_mem_introduction u s _
          (hids s (List.mem_append_right _ (List.mem_singleton.mpr rfl)) hs)

theorem received_backfill (srv : TcpServer) (u s : SessionId) :
    (srv.emit (srv.backfill u)).received s
      = srv.received s ++ if s = u then (srv.backfill u).map Prod.snd else [] := by
  rw [received_emit]
  congr 1
  by_cases hs : s = u
  · rw [if_pos hs, List.filter_eq_self.mpr (fun call hcall =>
      decide_eq_true ((srv.fst_of_mem_backfill u call hcall).trans hs.symm))]
  · rw [if_neg hs, List.filter_eq_nil_iff.mpr (fun call hcall hc =>
      hs ((of_decide_eq_true hc).symm.trans (srv.fst_of_mem_backfill u call hcall))),
      List.map_nil]

variable (srv : TcpServer) (u : SessionId) (clientId : JsValue) (result : AuthResult)

theorem lastState_admitted (s : SessionId) :
    (srv.admitted u clientId result).lastState s = srv.lastState s :=
  (lastState_modify _ u s _ (fun o => lastPlayerState_transitionTo o _)).trans
    (lastState_modify srv u s _ (fun _ => rfl))

/-- The others are not sent the newcomer's result. -/
theorem received_admitted_of_ne (s : SessionId) (hs : s ≠ u) :
    (srv.admitted u clientId result).received s = srv.received s := by
  change (srv.send u (.authResult result)).received s = _
  rw [send, received_emit, List.filter_cons_of_neg (by
    simp only [Ne.symm hs, decide_false, Bool.false_eq_true, not_false_eq_true]),
    List.filter_nil, List.map_nil, List.append_nil]

/-- The ids of all authenticated sessions have been issued, the new one
    included. -/
theorem issued_admitted (o : Session) (ho : srv.objs u = some o) (hc : srv.Caught)
    (s : SessionId) (hs : (srv.admitted u clientId result).authenticated s = true) :
    ∃ r, (s, .authResult r) ∈ srv.log ++ [(u, .authResult result)] ∧
      r.playerId = (srv.admitted u clientId result).playerId s := by
  by_cases hne : s = u
  · rw [hne]
    exact ⟨result, List.mem_append_right _ (List.mem_singleton.mpr rfl),
      (srv.admitted_self u clientId result o ho).2.symm⟩
  · have hauth := srv.authenticated_admitted u clientId result s hne
    rcases hc.issued s (hauth.symm.trans hs) with ⟨r, hr, hrp⟩
    exact ⟨r, List.mem_append_left _ hr,
      hrp.trans (srv.playerId_admitted u clientId result s hne).symm⟩

/-- A newcomer is told of everybody, and everybody of the newcomer. -/
theorem caught_welcome (o : Session) (ho : srv.objs u = some o) (hok : result.ok = true)
    (hu : srv.authenticated u = false)
    (hd : (srv.welcome u clientId result).Distinct) (hc : srv.Caught) :
    (srv.welcome u clientId result).Caught := by
  have hauth := srv.authenticated_admitted u clientId result
  have hpid := srv.playerId_admitted u clientId result
  have hlast := srv.lastState_admitted u clientId result
  rcases srv.admitted_self u clientId result o ho with ⟨hself, hpself⟩
  rw [srv.welcome_eq u clientId result hok] at hd ⊢
  have hissued : ∀ s, (srv.admitted u clientId result).authenticated s = true →
      ∃ r, (s, .authResult r) ∈ (((srv.admitted u clientId result).emit
        ((srv.admitted u clientId result).backfill u)).broadcastExcept u
          (.playerJoined result.playerId result.displayName)).log ∧
        r.playerId = (srv.admitted u clientId result).playerId s := by
    intro s hs
    rcases srv.issued_admitted u clientId result o ho hc s hs with ⟨r, hr, hrp⟩
    exact ⟨r, List.mem_append_left _ (List.mem_append_left _ hr), hrp⟩
  refine ⟨hissued, fun s hs => ?_, fun s t hs ht hne => ?_⟩
  · have hsu : s ≠ u := by
      rintro rfl
      exact absurd (hs.symm.trans (hself.trans hok)) (by decide)
    exact (hlast s).trans (hc.silent s ((hauth s hsu).symm.trans hs))
  · rcases received_broadcastExcept ((srv.admitted u clientId result).emit
      ((srv.admitted u clientId result).backfill u)) u s
      (.playerJoined result.playerId result.displayName) with ⟨ms, hms, heach, hne'⟩
    have hquiet : ∀ p st, .event (.playerState p st) ∉ ms := fun p st hst =>
      ServerEvent.noConfusion (ServerMessage.event.inj (heach _ hst))
    rw [hms]
    change Told _ ((srv.admitted u clientId result).playerId t)
      ((srv.admitted u clientId result).lastState t)
    by_cases htu : t = u
    -- Nothing is known of the newcomer yet but that it joined.
    · rw [htu, hpself, hlast, hc.silent u hu]
      rcases List.exists_mem_of_ne_nil ms (hne' hs (fun h => hne (h.trans htu.symm)))
        with ⟨m, hm⟩
      refine ⟨result.displayName, List.mem_append_right _ ?_⟩
      rw [← heach m hm]
      exact hm
    · refine Told.append ?_ ms (hquiet _)
      have ht' : (srv.admitted u clientId result).authenticated t = true := ht.2
      rw [received_backfill]
      by_cases hsu : s = u
      -- The newcomer itself: the backfill goes through everybody who is there.
      · rw [if_pos hsu]
        refine told_introductions _ u t _ (fun s' hs' hs't => ?_) ht' (List.mem_filter.mpr
          ⟨ht.1, by rw [decide_eq_true htu, ht']; rfl⟩) _
        have hs'' := (Bool.and_eq_true_iff.mp (List.mem_filter.mp hs').2).2
        rcases hissued s' hs'' with ⟨r, hr, hrp⟩
        rcases hissued t ht' with ⟨r', hr', hrp'⟩
        exact fun heq => hs't (hd s' t r r' hr hr' ((hrp.trans heq).trans hrp'.symm))
      · rw [if_neg hsu, List.append_nil, hpid t htu, hlast t,
          srv.received_admitted_of_ne u clientId result s hsu]
        exact hc.told s t ⟨hs.1, (hauth s hsu).symm.trans hs.2⟩
          ⟨ht.1, (hauth t htu).symm.trans ht.2⟩ hne

end Welcome

end TcpServer

/-- The three kinds of step. -/
theorem step_kinds (host : Host) (srv : TcpServer) (e : Event) :
    TcpServer.Still srv (step host srv e) ∨
    (∃ u payload ambient o clientId result, e = .message u .auth payload ambient ∧
      srv.objs u = some o ∧ AuthResult.ok result = true ∧
      step host srv e = srv.welcome u clientId result) ∨
    (∃ u payload ambient, e = .message u .playerState payload ambient ∧
      srv.authenticated u = true ∧
      step host srv e = (srv.modify u (fun o => { o with
        lastPlayerState := some (TcpServer.reported (JsValue.orElse payload (.obj []))) })
          ).broadcastExcept u (.playerState (srv.playerId u)
            (TcpServer.reported (JsValue.orElse payload (.obj []))))) := by
  cases e with
  | connect u now =>
      rw [step]
      split
      · exact Or.inl (TcpServer.Still.refl srv)
      · rename_i hu
        exact Or.inl (srv.still_onConnection u now (Option.not_isSome_iff_eq_none.mp hu))
  | message u type payload ambient =>
      rw [step]
      cases ho : srv.objs u with
      | none => exact Or.inl (TcpServer.Still.refl srv)
      | some o =>
          -- The other messages are still, but for a report of somebody authenticated.
          by_cases htype : type = .auth
          · rw [htype]
            simp only [TcpServer.onMessage, TcpServer.onAuth]
            split
            · exact Or.inl (srv.still_disconnectSession host u _)
            · cases hres : authenticate host.fmt
                ((JsValue.orElse payload (.obj [])).field (js "clientId"))
                ((JsValue.orElse payload (.obj [])).field (js "displayName"))
                ambient.playerUuid ambient.sessionUuid with
              | none => exact Or.inl (TcpServer.Still.refl srv)
              | some result =>
                  exact Or.inr (Or.inl ⟨u, payload, ambient, o, _, result, rfl, ho,
                    ok_of_authenticate host.fmt _ _ _ _ result hres, rfl⟩)
          · by_cases hreport : type = .playerState ∧ o.authenticated = true
            · rcases hreport with ⟨rfl, hauth⟩
              refine Or.inr (Or.inr ⟨u, payload, ambient, rfl, ?_, ?_⟩)
              · rw [TcpServer.authenticated, ho]
                exact hauth
              · simp only [TcpServer.onMessage, TcpServer.onPlayerState, hauth, Bool.not_true,
                  Bool.false_eq_true, if_false, srv.playerId_eq u o ho]
                rfl
            · exact Or.inl (srv.still_onMessage host u o type _ ambient htype
                (fun h => Bool.eq_false_iff.mpr (fun hauth => hreport ⟨h, hauth⟩)))
  | protocolError u => exact Or.inl (TcpServer.Still.refl srv)
  | close u => exact Or.inl (srv.still_disconnectSession host u (.str (js "connection closed")))
  | watchdog now =>
      -- The watchdog disconnects or does nothing, session by session.
      refine Or.inl (TcpServer.still_foldl _ (fun acc u => ?_) _ srv)
      rw [TcpServer.checkHeartbeat]
      split
      · exact TcpServer.Still.refl acc
      · split
        · exact acc.still_disconnectSession host u _
        · exact TcpServer.Still.refl acc
  | shutdown =>
      exact Or.inl (TcpServer.still_foldl _ (fun acc u => acc.still_disconnectSession host u _) _
        srv)

/-- The session that sends `auth` in an event. -/
def Event.authFrom (e : Event) : Option SessionId :=
  match e with
  | .message u .auth _ _ => some u
  | _ => none

/-- Each session sends `auth` at most once. -/
def AuthsOnce (es : List Event) : Prop := (es.filterMap Event.authFrom).Nodup

/-- What is sent stays sent. -/
theorem mem_log_step (host : Host) (srv : TcpServer) (e : Event)
    (call : SessionId × ServerMessage) (h : call ∈ srv.log) : call ∈ (step host srv e).log := by
  rcases step_kinds host srv e with hstill | ⟨u, _, _, o, clientId, result, _, _, hok, heq⟩ |
    ⟨u, _, _, _, _, heq⟩
  · rcases hstill.log with ⟨calls, hlog, _⟩
    rw [hlog]
    exact List.mem_append_left _ h
  · rw [heq, srv.welcome_eq u clientId result hok]
    exact List.mem_append_left _ (List.mem_append_left _ (List.mem_append_left _ h))
  · rw [heq]
    exact List.mem_append_left _ h

/-- A step keeps everybody informed, as long as ids are issued once and are
    not shared. -/
theorem caught_step (host : Host) (srv : TcpServer) (e : Event) (hc : srv.Caught)
    (hd : (step host srv e).Distinct)
    (honce : ∀ u, e.authFrom = some u → srv.authenticated u = false) :
    (step host srv e).Caught := by
  rcases step_kinds host srv e with hstill | ⟨u, payload, ambient, o, clientId, result, rfl, ho,
    hok, heq⟩ | ⟨u, _, _, _, hauth, heq⟩
  · exact hstill.caught hc
  · rw [heq] at hd ⊢
    exact srv.caught_welcome u clientId result o ho hok (honce u rfl) hd hc
  · have hbefore : srv.Distinct := fun s t r r' hr hr' =>
      hd s t r r' (mem_log_step host srv e _ hr) (mem_log_step host srv e _ hr')
    rw [heq]
    exact srv.caught_report u _ hauth hbefore hc

theorem caught_init : TcpServer.init.Caught where
  issued := fun _ h => Bool.noConfusion h
  silent := fun _ _ => rfl
  told := fun _ _ hs => absurd hs.1 List.not_mem_nil

/-- Nobody is authenticated who has not asked for it. -/
theorem authFrom_of_authenticated (host : Host) (es : List Event) (u : SessionId)
    (h : (es.foldl (step host) TcpServer.init).authenticated u = true) :
    u ∈ es.filterMap Event.authFrom := by
  induction es using List.reverseRecOn with
  | nil => exact Bool.noConfusion h
  | append_singleton es e ih =>
      rw [List.foldl_append, List.foldl_cons, List.foldl_nil] at h
      rw [List.filterMap_append, List.mem_append]
      by_cases hu : e.authFrom = some u
      · exact Or.inr (List.mem_filterMap.mpr ⟨e, List.mem_singleton.mpr rfl, hu⟩)
      · refine Or.inl (ih ?_)
        rcases step_kinds host (es.foldl (step host) TcpServer.init) e with hstill |
          ⟨v, payload, ambient, o, clientId, result, rfl, ho, hok, heq⟩ | ⟨v, _, _, _, _, heq⟩
        · exact (hstill.auth u).symm.trans h
        -- Somebody else was issued an id.
        · rw [heq] at h
          have hjoined := TcpServer.joined_welcome _ v clientId result o ho hok
          exact (hjoined.auth u (fun heq => hu (congrArg some heq.symm))).symm.trans h
        · rw [heq] at h
          refine Eq.trans (Eq.symm ?_) h
          exact TcpServer.authenticated_modify _ v u _ (fun _ => rfl)

/-- Everybody is informed at the end of a run. -/
theorem caught_run (host : Host) (es : List Event) (honce : AuthsOnce es)
    (hd : (es.foldl (step host) TcpServer.init).Distinct) :
    (es.foldl (step host) TcpServer.init).Caught := by
  refine Run.foldl_inv_of_eachStep (step host) TcpServer.Caught
    (fun srv e => (step host srv e).Distinct ∧
      ∀ u, e.authFrom = some u → srv.authenticated u = false)
    (fun srv e hc h => caught_step host srv e hc h.1 h.2) es TcpServer.init caught_init ?_
  rintro pre e ⟨post, rfl⟩
  constructor
  -- What has been issued by now has been issued at the end.
  · have hlog : ∀ call ∈ (step host (pre.foldl (step host) TcpServer.init) e).log,
        call ∈ ((pre ++ [e] ++ post).foldl (step host) TcpServer.init).log := by
      intro call hcall
      rw [List.foldl_append, List.foldl_append]
      exact Run.foldl_inv (step host) (fun srv => call ∈ srv.log)
        (fun srv e h => mem_log_step host srv e call h) post _ hcall
    exact fun s t r r' hr hr' => hd s t r r' (hlog _ hr) (hlog _ hr')
  · intro u hu
    refine Bool.eq_false_iff.mpr (fun hauth => ?_)
    have hbefore := authFrom_of_authenticated host pre u hauth
    have hnodup : (pre.filterMap Event.authFrom ++ [u] ++ post.filterMap Event.authFrom).Nodup := by
      rw [AuthsOnce, List.filterMap_append, List.filterMap_append, List.filterMap_cons_some hu,
        List.filterMap_nil] at honce
      exact honce
    have hdisjoint := (List.nodup_append.mp (List.nodup_append.mp hnodup).1).2.2
    exact hdisjoint u hbefore u (List.mem_singleton.mpr rfl) rfl

/-- The state a player reported last in a run, which it did when it had
    authenticated. -/
def LastReport (host : Host) (es : List Event) (t : SessionId) (st : PlayerState) : Prop :=
  ∃ pre payload ambient post, es = pre ++ .message t .playerState payload ambient :: post ∧
    (pre.foldl (step host) TcpServer.init).authenticated t = true ∧
    (∀ payload' ambient', .message t .playerState payload' ambient' ∉ post) ∧
    st = TcpServer.reported (JsValue.orElse payload (.obj []))

/-- Only a player's own report changes what is kept of it. -/
theorem lastState_step (host : Host) (srv : TcpServer) (e : Event) (t : SessionId)
    (h : ∀ payload ambient, e ≠ .message t .playerState payload ambient) :
    (step host srv e).lastState t = srv.lastState t := by
  rcases step_kinds host srv e with hstill | ⟨u, _, _, o, clientId, result, _, _, hok, heq⟩ |
    ⟨u, payload, ambient, rfl, hauth, heq⟩
  · exact hstill.last t
  · rw [heq, srv.welcome_eq u clientId result hok]
    exact srv.lastState_admitted u clientId result t
  · rw [heq]
    refine (srv.lastState_report u t _ hauth).trans (if_neg (fun htu => ?_))
    exact h payload ambient (by rw [htu])

/-- The server keeps what was reported last. -/
theorem lastState_of_lastReport (host : Host) (es : List Event) (t : SessionId)
    (st : PlayerState) (h : LastReport host es t st) :
    (es.foldl (step host) TcpServer.init).lastState t = some st := by
  rcases h with ⟨pre, payload, ambient, post, rfl, hauth, hpost, rfl⟩
  rw [List.foldl_append, List.foldl_cons]
  have hreport : (step host (pre.foldl (step host) TcpServer.init)
      (.message t .playerState payload ambient)).lastState t
        = some (TcpServer.reported (JsValue.orElse payload (.obj []))) := by
    rcases TcpServer.objs_of_authenticated _ t hauth with ⟨o, ho, ha⟩
    simp only [step, ho, TcpServer.onMessage, TcpServer.onPlayerState, ha, Bool.not_true,
      Bool.false_eq_true, if_false]
    exact (TcpServer.lastState_report _ t t _ hauth).trans (if_pos rfl)
  generalize step host (pre.foldl (step host) TcpServer.init)
    (.message t .playerState payload ambient) = srv at hreport
  -- Nothing after the report is a report.
  induction post generalizing srv with
  | nil => exact hreport
  | cons e post ih =>
      refine ih (fun p a hmem => hpost p a (List.mem_cons_of_mem e hmem)) _ ?_
      refine (lastState_step host srv e t (fun p a heq => ?_)).trans hreport
      exact hpost p a (by rw [heq]; exact List.mem_cons_self)

/-- At the end of a run in which sessions authenticate once and ids are not
    shared, the last state a client was sent of another player is the one that
    player reported last, and the player was introduced before it. -/
theorem caught_up (host : Host) (es : List Event) (honce : AuthsOnce es)
    (hd : (es.foldl (step host) TcpServer.init).Distinct) (s t : SessionId)
    (hs : (es.foldl (step host) TcpServer.init).Present s)
    (ht : (es.foldl (step host) TcpServer.init).Present t) (hne : s ≠ t) (st : PlayerState)
    (hst : LastReport host es t st) :
    ∃ before name between after,
      (es.foldl (step host) TcpServer.init).received s
        = before ++ .event (.playerJoined
            ((es.foldl (step host) TcpServer.init).playerId t) name) :: between
          ++ .event (.playerState
            ((es.foldl (step host) TcpServer.init).playerId t) st) :: after ∧
      ∀ st', .event (.playerState
        ((es.foldl (step host) TcpServer.init).playerId t) st') ∉ after := by
  have htold := (caught_run host es honce hd).told s t hs ht hne
  rw [lastState_of_lastReport host es t st hst] at htold
  exact htold

section Latecomer

/-- A client reports where it is, and another one arrives. -/
def latecomerRun : List Event :=
  arrive (js "s1") (js "aaaaaaaa")
    ++ .message (js "s1") .playerState (some (.obj [(js "position", .str (js "here"))]))
      ⟨0, [], [], []⟩ :: arrive (js "s2") (js "bbbbbbbb")

/-- The server after that. -/
def afterLatecomer : TcpServer :=
  latecomerRun.foldl (step (Host.shipped (fun _ => []))) TcpServer.init

theorem distinct_afterLatecomer : afterLatecomer.Distinct := by
  have hissued : ∀ s r, (s, .authResult r) ∈ afterLatecomer.log →
      (s = js "s1" ∧ r.playerId = .str (js "aaaaaaaa")) ∨
        (s = js "s2" ∧ r.playerId = .str (js "bbbbbbbb")) := by
    intro s r h
    have hmem : (s, r) ∈ afterLatecomer.log.filterMap (fun call =>
        match call.2 with
        | .authResult r => some (call.1, r)
        | _ => none) :=
      List.mem_filterMap.mpr ⟨_, h, rfl⟩
    rcases List.mem_cons.mp hmem with heq | hmem
    · rw [(Prod.mk.inj heq).1, (Prod.mk.inj heq).2]
      exact Or.inl ⟨rfl, rfl⟩
    · have heq := List.mem_singleton.mp hmem
      rw [(Prod.mk.inj heq).1, (Prod.mk.inj heq).2]
      exact Or.inr ⟨rfl, rfl⟩
  intro s t r r' hs ht heq
  rcases hissued s r hs with ⟨rfl, hr⟩ | ⟨rfl, hr⟩ <;>
    rcases hissued t r' ht with ⟨rfl, hr'⟩ | ⟨rfl, hr'⟩
  · rfl
  · exact absurd (Json.str.inj (hr.symm.trans (heq.trans hr'))) (by decide)
  · exact absurd (Json.str.inj (hr.symm.trans (heq.trans hr'))) (by decide)
  · rfl

/-- The second client is told where the first one is. -/
theorem caught_up_latecomer : ∃ before name between after,
    afterLatecomer.received (js "s2")
      = before ++ .event (.playerJoined (.str (js "aaaaaaaa")) name) :: between
        ++ .event (.playerState (.str (js "aaaaaaaa"))
          ⟨some (.str (js "here")), none, none, none⟩) :: after ∧
    ∀ st', .event (.playerState (.str (js "aaaaaaaa")) st') ∉ after := by
  refine caught_up (Host.shipped (fun _ => [])) latecomerRun ?_ distinct_afterLatecomer
    (js "s2") (js "s1") (by decide) (by decide) (by decide) _ ?_
  · rw [AuthsOnce]
    decide
  · refine ⟨arrive (js "s1") (js "aaaaaaaa"), _, _, arrive (js "s2") (js "bbbbbbbb"), rfl,
      by decide, fun payload ambient hmem => ?_, rfl⟩
    simp only [arrive, List.mem_cons, Event.message.injEq, reduceCtorEq, false_and, and_false,
      List.not_mem_nil, or_self] at hmem

end Latecomer

end Server

end MzzPlork
