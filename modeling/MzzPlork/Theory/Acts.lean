import Mathlib.Logic.Relation
import MzzPlork.Theory.CatchUp

/-!
# What a Step Is Made Of

Every step of the server is a sequence of acts of six kinds, or it is one of
the three steps by which a session makes itself heard by others: it is
admitted, its state is relayed, or it is announced to be ready.

The handlers share a small stock of acts: a field of a session is set that
nobody else looks at, a session is answered, one leaves the map and the rest
are told. An invariant of the server is an invariant of these acts and of the
three steps that are a whole of their own, so `inv_step` is the way in which
one is proved. The acts say what was checked before, as for the answers that
only an authenticated session gets.

## Main definitions

* `Session.Keeps`: An update nobody else notices.
* `ServerMessage.isGreeting`, `ServerMessage.isService`: The kinds of answers.
* `depart`: A session leaves the map and the rest are told.
* `Act`, `Acts`: One act, and a sequence of them.
* `Said`, `Frame`: What acts send and what they leave alone.
* `Admits`, `Reports`, `Announces`: The steps that are more than acts.
* `Event.speaker`: The session that makes itself heard.
* `Inside`: It is in the map.

## Theorems

* `acts_frame`: What acts leave alone.
* `acts_disconnectSession`, `acts_onMessage`: What the handlers do.
* `step_acts`: What a step is.
* `inv_step`: An invariant of the acts and of the other three steps.
-/

namespace MzzPlork

namespace Server

/-- An update that leaves alone what others are told of a session. -/
structure Session.Keeps (f : Session → Session) : Prop where
  authenticated : ∀ o, (f o).authenticated = o.authenticated
  playerId : ∀ o, (f o).playerId = o.playerId
  displayName : ∀ o, (f o).displayName = o.displayName
  lastPlayerState : ∀ o, (f o).lastPlayerState = o.lastPlayerState

theorem Session.keeps_transitionTo (target : ConnectionState) :
    Session.Keeps (fun o => o.transitionTo target) where
  authenticated := fun o => o.authenticated_transitionTo target
  playerId := fun o => o.playerId_transitionTo target
  displayName := fun o => by
    unfold Session.transitionTo
    split <;> rfl
  lastPlayerState := fun o => TcpServer.lastPlayerState_transitionTo o target

/-- The answers that anybody gets. -/
def ServerMessage.isGreeting (m : ServerMessage) : Bool :=
  match m with
  | .helloAck _ _ _ | .heartbeatAck _ | .kick _ => true
  | _ => false

/-- The answers that only an authenticated session gets. -/
def ServerMessage.isService (m : ServerMessage) : Bool :=
  match m with
  | .resourceManifest _ _ | .resourcesReadyAck => true
  | _ => false

/-- The session that an event makes heard by others, if it comes through. -/
def Event.speaker (e : Event) : Option SessionId :=
  match e with
  | .message u .auth _ _ | .message u .playerState _ _ | .message u .resourcesReady _ _ => some u
  | _ => none

/-- Whoever makes itself heard is in the map. -/
def Inside (srv : TcpServer) (e : Event) : Prop := ∀ u, e.speaker = some u → u ∈ srv.sessions

instance (srv : TcpServer) (e : Event) : Decidable (Inside srv e) :=
  inferInstanceAs (Decidable (∀ u ∈ e.speaker, u ∈ srv.sessions))

namespace TcpServer

/-- A session's `displayName`. -/
def displayName (srv : TcpServer) (u : SessionId) : JsValue :=
  match srv.objs u with
  | some o => o.displayName
  | none => .null

/-- A session leaves the map, and the rest are told if they knew of it. -/
def depart (srv : TcpServer) (u : SessionId) : TcpServer :=
  if (srv.delete u).authenticated u then
    (srv.delete u).broadcastExcept u (.playerLeft ((srv.delete u).playerId u))
  else srv.delete u

/-- What the handlers are made of. -/
inductive Act : TcpServer → TcpServer → Prop where
  | touch (srv : TcpServer) (u : SessionId) (f : Session → Session) (hf : Session.Keeps f) :
      Act srv (srv.modify u f)
  | greet (srv : TcpServer) (u : SessionId) (m : ServerMessage) (hm : m.isGreeting = true) :
      Act srv (srv.send u m)
  | serve (srv : TcpServer) (u : SessionId) (m : ServerMessage) (hm : m.isService = true)
      (hu : srv.authenticated u = true) : Act srv (srv.send u m)
  | depart (srv : TcpServer) (u : SessionId) (hu : u ∈ srv.sessions) : Act srv (srv.depart u)
  | record (srv : TcpServer) (u : SessionId) :
      Act srv { srv with disconnected := srv.disconnected ++ [u] }
  | enter (srv : TcpServer) (u : SessionId) (now : Int) (hu : srv.objs u = none) :
      Act srv (srv.onConnection u now)

/-- A sequence of acts. -/
abbrev Acts : TcpServer → TcpServer → Prop := Relation.ReflTransGen Act

/-- What acts send: greetings, services to authenticated sessions, and that
    somebody they know has left. -/
inductive Said (srv : TcpServer) : SessionId × ServerMessage → Prop where
  | greeting (s : SessionId) (m : ServerMessage) (hm : m.isGreeting = true) : Said srv (s, m)
  | service (s : SessionId) (m : ServerMessage) (hm : m.isService = true)
      (hs : srv.authenticated s = true) : Said srv (s, m)
  | left (s u : SessionId) (hs : srv.Present s) (hu : srv.Present u) (hne : s ≠ u) :
      Said srv (s, .event (.playerLeft (srv.playerId u)))

/-- What acts leave alone. -/
structure Frame (srv srv' : TcpServer) : Prop where
  auth : ∀ s, srv'.authenticated s = srv.authenticated s
  pid : ∀ s, srv'.playerId s = srv.playerId s
  name : ∀ s, srv'.displayName s = srv.displayName s
  last : ∀ s, srv'.lastState s = srv.lastState s
  present : ∀ s, srv'.Present s → srv.Present s
  log : ∃ calls, srv'.log = srv.log ++ calls ∧ ∀ call ∈ calls, Said srv call

section Frame

variable {srv srv' srv'' : TcpServer}

theorem Frame.refl (srv : TcpServer) : Frame srv srv :=
  ⟨fun _ => rfl, fun _ => rfl, fun _ => rfl, fun _ => rfl, fun _ h => h,
    ⟨[], (List.append_nil _).symm, fun _ h => absurd h List.not_mem_nil⟩⟩

/-- What is said later could have been said before. -/
theorem Frame.said (h : Frame srv srv') {call : SessionId × ServerMessage} (hc : Said srv' call) :
    Said srv call := by
  cases hc with
  | greeting s m hm => exact Said.greeting s m hm
  | service s m hm hs => exact Said.service s m hm ((h.auth s).symm.trans hs)
  | left s u hs hu hne =>
      rw [h.pid]
      exact Said.left s u (h.present s hs) (h.present u hu) hne

theorem Frame.trans (h : Frame srv srv') (h' : Frame srv' srv'') : Frame srv srv'' where
  auth := fun s => (h'.auth s).trans (h.auth s)
  pid := fun s => (h'.pid s).trans (h.pid s)
  name := fun s => (h'.name s).trans (h.name s)
  last := fun s => (h'.last s).trans (h.last s)
  present := fun s hs => h.present s (h'.present s hs)
  log := by
    rcases h.log with ⟨calls, hlog, hcalls⟩
    rcases h'.log with ⟨calls', hlog', hcalls'⟩
    refine ⟨calls ++ calls', ?_, fun call hcall => ?_⟩
    · rw [hlog', hlog, List.append_assoc]
    · rcases List.mem_append.mp hcall with hcall | hcall
      · exact hcalls call hcall
      · exact h.said (hcalls' call hcall)

theorem displayName_modify (srv : TcpServer) (u s : SessionId) (f : Session → Session)
    (hf : ∀ o, (f o).displayName = o.displayName) :
    (srv.modify u f).displayName s = srv.displayName s := by
  rw [displayName, displayName, objs_modify]
  by_cases hs : s = u
  · rw [if_pos hs]
    cases srv.objs s with
    | none => rfl
    | some o => exact hf o
  · rw [if_neg hs]

theorem frame_emit (srv : TcpServer) (calls : List (SessionId × ServerMessage))
    (h : ∀ call ∈ calls, Said srv call) : Frame srv (srv.emit calls) :=
  ⟨fun _ => rfl, fun _ => rfl, fun _ => rfl, fun _ => rfl, fun _ h => h, ⟨calls, rfl, h⟩⟩

/-- The session is in the map still when the rest are counted, and out of it
    when they are told. -/
theorem frame_depart (srv : TcpServer) (u : SessionId) (hu : u ∈ srv.sessions) :
    Frame srv (srv.depart u) := by
  have hdel : Frame srv (srv.delete u) :=
    ⟨fun _ => rfl, fun _ => rfl, fun _ => rfl, fun _ => rfl,
      fun _ h => ⟨List.mem_of_mem_filter h.1, h.2⟩,
      ⟨[], (List.append_nil _).symm, fun _ h => absurd h List.not_mem_nil⟩⟩
  unfold depart
  split
  · rename_i hauth
    refine ⟨hdel.auth, hdel.pid, hdel.name, hdel.last, hdel.present, _, rfl, fun call hcall => ?_⟩
    rcases List.mem_map.mp hcall with ⟨s, hs, rfl⟩
    rcases List.mem_filter.mp hs with ⟨hmem, hcond⟩
    rw [Bool.and_eq_true, decide_eq_true_eq] at hcond
    exact Said.left s u ⟨List.mem_of_mem_filter hmem, hcond.1⟩ ⟨hu, hauth⟩ hcond.2
  · exact hdel

/-- What one act leaves alone. -/
theorem act_frame (h : Act srv srv') : Frame srv srv' := by
  cases h with
  | touch u f hf =>
      exact ⟨fun s => authenticated_modify srv u s f hf.authenticated,
        fun s => playerId_modify srv u s f hf.playerId,
        fun s => displayName_modify srv u s f hf.displayName,
        fun s => srv.lastState_modify u s f hf.lastPlayerState,
        fun s hs => ⟨hs.1, (authenticated_modify srv u s f hf.authenticated).symm.trans hs.2⟩,
        ⟨[], (List.append_nil _).symm, fun _ h => absurd h List.not_mem_nil⟩⟩
  | greet u m hm =>
      refine srv.frame_emit _ (fun call hcall => ?_)
      rw [List.mem_singleton.mp hcall]
      exact Said.greeting u m hm
  | serve u m hm hu =>
      refine srv.frame_emit _ (fun call hcall => ?_)
      rw [List.mem_singleton.mp hcall]
      exact Said.service u m hm hu
  | depart u hu => exact srv.frame_depart u hu
  | record u => exact ⟨fun _ => rfl, fun _ => rfl, fun _ => rfl, fun _ => rfl, fun _ h => h,
      ⟨[], (List.append_nil _).symm, fun _ h => absurd h List.not_mem_nil⟩⟩
  | enter u now hu =>
      have hr := srv.removed_onConnection u now hu
      have hstill := srv.still_onConnection u now hu
      refine ⟨hr.auth, hr.pid, fun s => ?_, hstill.last, fun s hs => ((hr.present s).mp hs).1,
        ⟨[], (List.append_nil _).symm, fun _ h => absurd h List.not_mem_nil⟩⟩
      rw [displayName, displayName, objs_onConnection]
      by_cases hs : s = u
      · rw [if_pos hs, hs, hu]
        rfl
      · rw [if_neg hs]

theorem acts_frame (h : Acts srv srv') : Frame srv srv' := by
  induction h with
  | refl => exact Frame.refl srv
  | tail _ hlast ih => exact ih.trans (act_frame hlast)

end Frame

section Acts

variable (srv : TcpServer) (host : Host) (u : SessionId)

theorem acts_touch (f : Session → Session) (hf : Session.Keeps f) : Acts srv (srv.modify u f) :=
  Relation.ReflTransGen.single (Act.touch srv u f hf)

theorem acts_transition (target : ConnectionState) :
    Acts srv (srv.modify u (fun o => o.transitionTo target)) :=
  srv.acts_touch u _ (Session.keeps_transitionTo target)

theorem acts_greet (m : ServerMessage) (hm : m.isGreeting = true) : Acts srv (srv.send u m) :=
  Relation.ReflTransGen.single (Act.greet srv u m hm)

/-- A session in the map is kicked, leaves, and is marked and recorded. -/
theorem acts_removeSession (reason : JsValue) (hu : u ∈ srv.sessions) :
    Acts srv (srv.removeSession u reason) := by
  have hkick := srv.acts_greet u (.kick reason) rfl
  have hleave := hkick.tail (Act.depart (srv.send u (.kick reason)) u hu)
  have hmark := hleave.trans (acts_transition _ u .disconnected)
  exact hmark.tail (Act.record _ u)

theorem acts_disconnectSession (reason : JsValue) :
    Acts srv (srv.disconnectSession host u reason) := by
  unfold disconnectSession
  split
  · exact Relation.ReflTransGen.refl
  · rename_i hu
    have hstate := srv.acts_transition u .disconnecting
    cases JsValue.toText host.fmt reason with
    | none => exact hstate
    | some text => exact hstate.trans (acts_removeSession _ u reason (not_not.mp hu))

theorem acts_foldl (f : TcpServer → SessionId → TcpServer) (hf : ∀ srv u, Acts srv (f srv u))
    (us : List SessionId) : Acts srv (us.foldl f srv) := by
  induction us generalizing srv with
  | nil => exact Relation.ReflTransGen.refl
  | cons u us ih => exact (hf srv u).trans (ih (f srv u))

variable (o : Session) (payload : JsValue) (ambient : Ambient)

theorem acts_onHello : Acts srv (srv.onHello host u payload) := by
  have hset := srv.acts_touch u (fun o => { o with
    helloReceived := true, clientProtocolVersion := payload.field (js "protocolVersion") })
    ⟨fun _ => rfl, fun _ => rfl, fun _ => rfl, fun _ => rfl⟩
  simp only [onHello]
  split
  · exact (hset.trans (acts_greet _ u _ rfl)).trans (acts_transition _ u _)
  · exact (hset.trans (acts_greet _ u _ rfl)).trans (acts_disconnectSession _ host u _)
  · exact hset

theorem acts_onHeartbeat : Acts srv (srv.onHeartbeat u ambient) :=
  (srv.acts_touch u (fun o => { o with lastHeartbeatAt := ambient.now })
    ⟨fun _ => rfl, fun _ => rfl, fun _ => rfl, fun _ => rfl⟩).trans (acts_greet _ u _ rfl)

/-- Counts without a text end the handler early. -/
theorem acts_onResourcesReady (hready : o.authenticated = true →
    (JsValue.textOf host.fmt (payload.field (js "loadedCount"))).isSome = true →
    (JsValue.textOf host.fmt (payload.field (js "failedCount"))).isSome = false) :
    Acts srv (srv.onResourcesReady host u o payload) := by
  simp only [onResourcesReady]
  split
  · exact srv.acts_disconnectSession host u _
  · rename_i hauth
    have hset := srv.acts_touch u (fun o => { o with resourcesReady := true })
      ⟨fun _ => rfl, fun _ => rfl, fun _ => rfl, fun _ => rfl⟩
    split
    · rename_i hloaded hfailed
      have hnone := hready (by rwa [Bool.not_eq_true', Bool.not_eq_false] at hauth)
        (by rw [hloaded]; rfl)
      rw [hfailed] at hnone
      exact Bool.noConfusion hnone
    · exact hset

variable (ho : srv.objs u = some o)

include ho

theorem authenticated_eq : srv.authenticated u = o.authenticated := by
  rw [authenticated, ho]

theorem acts_onResourceManifestRequest :
    Acts srv (srv.onResourceManifestRequest host u o ambient) := by
  unfold onResourceManifestRequest
  split
  · exact srv.acts_disconnectSession host u _
  · rename_i hauth
    refine Relation.ReflTransGen.single (Act.serve srv u _ rfl ?_)
    rwa [srv.authenticated_eq u o ho, ← Bool.not_eq_false, ← Bool.not_eq_true']

/-- Every other message is a sequence of acts. -/
theorem acts_onMessage (type : MessageType)
    (hauth : type = .auth → o.helloReceived = true → authenticate host.fmt
      (payload.field (js "clientId")) (payload.field (js "displayName")) ambient.playerUuid
      ambient.sessionUuid = none)
    (hreport : type = .playerState → o.authenticated = false)
    (hready : type = .resourcesReady → o.authenticated = true →
      (JsValue.textOf host.fmt (payload.field (js "loadedCount"))).isSome = true →
      (JsValue.textOf host.fmt (payload.field (js "failedCount"))).isSome = false) :
    Acts srv (srv.onMessage host u o type payload ambient) := by
  cases type with
  | hello => exact srv.acts_onHello host u payload
  | auth =>
      simp only [onMessage, onAuth]
      split
      · exact srv.acts_disconnectSession host u _
      · rename_i hhello
        have hnone := hauth rfl (by rwa [Bool.not_eq_true', Bool.not_eq_false] at hhello)
        simp only [hnone]
        exact Relation.ReflTransGen.refl
  | heartbeat => exact srv.acts_onHeartbeat u ambient
  | resourceManifestRequest => exact srv.acts_onResourceManifestRequest host u o ambient ho
  | playerState =>
      simp only [onMessage, onPlayerState, hreport rfl, Bool.not_false, if_true]
      exact srv.acts_disconnectSession host u _
  | resourcesReady => exact srv.acts_onResourcesReady host u o payload (hready rfl)
  | disconnect => exact srv.acts_disconnectSession host u _
  | unknown type => exact Relation.ReflTransGen.refl

end Acts

/-- A step that issues an id: the message is an `auth` after a `hello`. -/
def Admits (host : Host) (srv : TcpServer) (e : Event) : Prop :=
  ∃ u payload ambient o result, e = .message u .auth payload ambient ∧
    srv.objs u = some o ∧ o.helloReceived = true ∧
    authenticate host.fmt ((JsValue.orElse payload (.obj [])).field (js "clientId"))
      ((JsValue.orElse payload (.obj [])).field (js "displayName")) ambient.playerUuid
      ambient.sessionUuid = some result ∧
    step host srv e = srv.welcome u
      (JsValue.orElse ((JsValue.orElse payload (.obj [])).field (js "clientId")) .null) result

/-- A step that relays a state. -/
def Reports (host : Host) (srv : TcpServer) (e : Event) : Prop :=
  ∃ u payload ambient, e = .message u .playerState payload ambient ∧
    srv.authenticated u = true ∧
    step host srv e = (srv.modify u (fun o => { o with
      lastPlayerState := some (reported (JsValue.orElse payload (.obj []))) })).broadcastExcept u
        (.playerState (srv.playerId u) (reported (JsValue.orElse payload (.obj []))))

/-- A step that announces that a session is ready, to everybody. -/
def Announces (host : Host) (srv : TcpServer) (e : Event) : Prop :=
  ∃ u payload ambient, e = .message u .resourcesReady payload ambient ∧
    srv.authenticated u = true ∧
    step host srv e = ((srv.modify u (fun o => { o with resourcesReady := true })).send u
      .resourcesReadyAck).broadcast (.playerReady (srv.playerId u) (srv.displayName u))

end TcpServer

/-- What a message of a known session is. -/
theorem message_acts (host : Host) (srv : TcpServer) (u : SessionId) (o : Session)
    (type : MessageType) (payload : Option JsValue) (ambient : Ambient)
    (ho : srv.objs u = some o) :
    TcpServer.Acts srv (step host srv (.message u type payload ambient)) ∨
      TcpServer.Admits host srv (.message u type payload ambient) ∨
      TcpServer.Reports host srv (.message u type payload ambient) ∨
      TcpServer.Announces host srv (.message u type payload ambient) := by
  have hflag := srv.authenticated_eq u o ho
  by_cases hwelcome : type = .auth ∧ o.helloReceived = true ∧ (authenticate host.fmt
    ((JsValue.orElse payload (.obj [])).field (js "clientId"))
    ((JsValue.orElse payload (.obj [])).field (js "displayName"))
    ambient.playerUuid ambient.sessionUuid).isSome = true
  · rcases hwelcome with ⟨rfl, hhello, hsome⟩
    rcases Option.isSome_iff_exists.mp hsome with ⟨result, hres⟩
    refine Or.inr (Or.inl ⟨u, payload, ambient, o, result, rfl, ho, hhello, hres, ?_⟩)
    simp only [step, ho, TcpServer.onMessage, TcpServer.onAuth, hhello, Bool.not_true,
      Bool.false_eq_true, if_false, hres]
  by_cases hreport : type = .playerState ∧ o.authenticated = true
  · rcases hreport with ⟨rfl, hauth⟩
    refine Or.inr (Or.inr (Or.inl ⟨u, payload, ambient, rfl, hflag.trans hauth, ?_⟩))
    simp only [step, ho, TcpServer.onMessage, TcpServer.onPlayerState, hauth, Bool.not_true,
      Bool.false_eq_true, if_false, srv.playerId_eq u o ho]
    rfl
  by_cases hready : type = .resourcesReady ∧ o.authenticated = true ∧
    (JsValue.textOf host.fmt ((JsValue.orElse payload (.obj [])).field
      (js "loadedCount"))).isSome = true ∧
    (JsValue.textOf host.fmt ((JsValue.orElse payload (.obj [])).field
      (js "failedCount"))).isSome = true
  · rcases hready with ⟨rfl, hauth, hloaded, hfailed⟩
    rcases Option.isSome_iff_exists.mp hloaded with ⟨loaded, hl⟩
    rcases Option.isSome_iff_exists.mp hfailed with ⟨failed, hf⟩
    refine Or.inr (Or.inr (Or.inr ⟨u, payload, ambient, rfl, hflag.trans hauth, ?_⟩))
    simp only [step, ho, TcpServer.onMessage, TcpServer.onResourcesReady, hauth, Bool.not_true,
      Bool.false_eq_true, if_false, hl, hf, srv.playerId_eq u o ho, TcpServer.displayName]
  -- Nothing that anybody else hears of.
  · simp only [step, ho]
    refine Or.inl (srv.acts_onMessage host u o _ ambient ho type (fun h hhello => ?_)
      (fun h => Bool.eq_false_iff.mpr (fun hauth => hreport ⟨h, hauth⟩))
      (fun h hauth hl => Bool.eq_false_iff.mpr (fun hf => hready ⟨h, hauth, hl, hf⟩)))
    exact Option.not_isSome_iff_eq_none.mp (fun hsome => hwelcome ⟨h, hhello, hsome⟩)

/-- A step is a sequence of acts, or somebody makes itself heard. -/
theorem step_acts (host : Host) (srv : TcpServer) (e : Event) :
    TcpServer.Acts srv (step host srv e) ∨ TcpServer.Admits host srv e ∨
      TcpServer.Reports host srv e ∨ TcpServer.Announces host srv e := by
  cases e with
  | connect u now =>
      rw [step]
      split
      · exact Or.inl Relation.ReflTransGen.refl
      · rename_i hu
        exact Or.inl (Relation.ReflTransGen.single (TcpServer.Act.enter srv u now
          (Option.not_isSome_iff_eq_none.mp hu)))
  | message u type payload ambient =>
      cases ho : srv.objs u with
      | none =>
          simp only [step, ho]
          exact Or.inl Relation.ReflTransGen.refl
      | some o => exact message_acts host srv u o type payload ambient ho
  | protocolError u => exact Or.inl Relation.ReflTransGen.refl
  | close u => exact Or.inl (srv.acts_disconnectSession host u (.str (js "connection closed")))
  | watchdog now =>
      refine Or.inl (TcpServer.acts_foldl srv _ (fun acc u => ?_) srv.sessions)
      unfold TcpServer.checkHeartbeat
      split
      · exact Relation.ReflTransGen.refl
      · split
        · exact acc.acts_disconnectSession host u _
        · exact Relation.ReflTransGen.refl
  | shutdown =>
      exact Or.inl (TcpServer.acts_foldl srv _
        (fun acc u => acc.acts_disconnectSession host u _) srv.sessions)

/-- An invariant of the acts survives a sequence of them. -/
theorem inv_acts (I : TcpServer → Prop) (hact : ∀ a b, TcpServer.Act a b → I a → I b)
    {srv srv' : TcpServer} (h : TcpServer.Acts srv srv') (hI : I srv) : I srv' := by
  induction h with
  | refl => exact hI
  | tail _ hlast ih => exact hact _ _ hlast ih

/-- An invariant of the acts and of the other three steps is one of every step. -/
theorem inv_step (host : Host) (I : TcpServer → Prop)
    (hact : ∀ a b, TcpServer.Act a b → I a → I b) (srv : TcpServer) (e : Event)
    (hwelcome : TcpServer.Admits host srv e → I srv → I (step host srv e))
    (hreport : TcpServer.Reports host srv e → I srv → I (step host srv e))
    (hready : TcpServer.Announces host srv e → I srv → I (step host srv e)) (hI : I srv) :
    I (step host srv e) := by
  rcases step_acts host srv e with hacts | hwelcomes | hreports | hannounces
  · exact inv_acts I hact hacts hI
  · exact hwelcome hwelcomes hI
  · exact hreport hreports hI
  · exact hready hannounces hI

end Server

end MzzPlork
