import MzzPlork.Theory.Silence

/-!
# One Lifecycle Kept Twice

The flags of a session and its formal state, next to each other.

`helloReceived` and `authenticated` decide what a client may do, and `state`
is the same lifecycle with a checked table of transitions. They agree
(`Coherent`) as long as every handler runs to its end. Two handlers can be cut
short with the work half done: `hello` sets the flag and only then looks at
the version, and a disconnect changes the state and only then writes the log
line that quotes the reason. A payload value without a text stops them there.

`always_bookkept_iff` says that these two are the only ways in which a session
of the map gets out of step with itself.

## Main definitions

* `Coherent`: The flags of a session say what its state says.
* `Bookkept`: The sessions of the map are coherent and leave once.
* `Derails`: The two events that break it.

## Theorems

* `nodup_step`: No session is reported gone twice.
* `left_step`: Whoever is reported gone has left.
* `tracked_onMessage_iff`: When a message keeps the sessions coherent.
* `tracked_step_iff`: When an event does.
* `always_bookkept_iff`: When a run does.
-/

namespace MzzPlork

namespace Server

/-- The flags of a session say what its state says. -/
structure Session.Coherent (o : Session) : Prop where
  alive : o.state = .connecting ∨ o.state = .authenticating ∨ o.state = .authenticated
  hello : o.helloReceived = true ↔ o.state ≠ .connecting
  auth : o.authenticated = true ↔ o.state = .authenticated
  player : o.playerId ≠ .null ↔ o.authenticated = true

namespace Session

theorem coherent_new (now : Int) : (Session.new now).Coherent where
  alive := Or.inl rfl
  hello := by simp only [new, Bool.false_eq_true, ne_eq, not_true_eq_false]
  auth := by simp only [new, Bool.false_eq_true, reduceCtorEq]
  player := by simp only [new, Bool.false_eq_true, ne_eq, not_true_eq_false]

/-- A coherent session can be disconnected. -/
theorem Coherent.leaves {o : Session} (h : o.Coherent) :
    isValidTransition o.state .disconnecting = true := by
  rcases h.alive with hs | hs | hs <;> rw [hs] <;> rfl

/-- `disconnected` is terminal. -/
theorem state_transitionTo_disconnected (o : Session) (target : ConnectionState)
    (h : o.state = .disconnected) : (o.transitionTo target).state = .disconnected := by
  rw [transitionTo, if_neg (by rw [h]; exact Bool.noConfusion)]
  exact h

/-- Both transitions of a disconnect. -/
theorem state_left (o : Session) (h : isValidTransition o.state .disconnecting = true) :
    ((o.transitionTo .disconnecting).transitionTo .disconnected).state = .disconnected := by
  simp only [transitionTo, h, if_true]
  rfl

/-- On its way out a session is not coherent any more. -/
theorem not_coherent_disconnecting {o : Session} (h : o.Coherent) :
    ¬ (o.transitionTo .disconnecting).Coherent := by
  intro hc
  have halive := hc.alive
  rw [transitionTo, if_pos h.leaves] at halive
  simp only [reduceCtorEq, or_self] at halive

/-- A compatible `hello`. Repeated, it changes nothing. -/
theorem Coherent.greeted {o : Session} (h : o.Coherent) (version : Option JsValue) :
    ({ o with helloReceived := true, clientProtocolVersion := version }.transitionTo
      .authenticating).Coherent := by
  rcases h.alive with hs | hs | hs
  · have hauth : o.authenticated = false :=
      Bool.eq_false_iff.mpr (fun ha => absurd (hs.symm.trans (h.auth.mp ha))
        (by simp only [reduceCtorEq, not_false_eq_true]))
    rw [transitionTo, if_pos (by simp only [hs]; rfl)]
    refine ⟨Or.inr (Or.inl rfl), ?_, ?_, h.player⟩
    · simp only [ne_eq, reduceCtorEq, not_false_eq_true]
    · simp only [hauth, Bool.false_eq_true, reduceCtorEq]
  · rw [transitionTo, if_neg (by simp only [hs]; exact Bool.noConfusion)]
    refine ⟨h.alive, ?_, h.auth, h.player⟩
    simp only [hs, ne_eq, reduceCtorEq, not_false_eq_true]
  · rw [transitionTo, if_neg (by simp only [hs]; exact Bool.noConfusion)]
    refine ⟨h.alive, ?_, h.auth, h.player⟩
    simp only [hs, ne_eq, reduceCtorEq, not_false_eq_true]

/-- A `hello` that is cut short after the flag has been set. -/
theorem Coherent.cutShort_iff {o : Session} (h : o.Coherent) (version : Option JsValue) :
    ({ o with helloReceived := true, clientProtocolVersion := version } : Session).Coherent ↔
      o.state ≠ .connecting := by
  constructor
  · exact fun hc => hc.hello.mp rfl
  · exact fun hs => ⟨h.alive, iff_of_true rfl hs, h.auth, h.player⟩

/-- An id is issued to a session that has said hello. -/
theorem Coherent.admitted {o : Session} (h : o.Coherent) (hhello : o.helloReceived = true)
    (clientId : JsValue) (result : AuthResult) (hok : result.ok = true)
    (hplayer : result.playerId ≠ .null) :
    ({ o with
      authenticated := result.ok, clientId := clientId, playerId := result.playerId,
      displayName := result.displayName }.transitionTo .authenticated).Coherent := by
  have hstate := h.hello.mp hhello
  rcases h.alive with hs | hs | hs
  · exact absurd hs hstate
  · rw [transitionTo, if_pos (by simp only [hs]; rfl)]
    refine ⟨Or.inr (Or.inr rfl), iff_of_true hhello ?_, iff_of_true hok rfl,
      iff_of_true hplayer hok⟩
    simp only [ne_eq, reduceCtorEq, not_false_eq_true]
  · rw [transitionTo, if_neg (by simp only [hs]; exact Bool.noConfusion)]
    exact ⟨h.alive, iff_of_true hhello hstate, iff_of_true hok hs, iff_of_true hplayer hok⟩

end Session

/-- An issued player id is a client id that converts to true or a random one. -/
theorem playerId_ne_null (fmt : NumberFormat) (clientId displayName : Option JsValue)
    (playerUuid sessionUuid : JsString) (result : AuthResult)
    (h : authenticate fmt clientId displayName playerUuid sessionUuid = some result) :
    result.playerId ≠ .null := by
  rw [authenticate] at h
  rcases Option.bind_eq_some_iff.mp h with ⟨playerId, hid, h⟩
  rcases Option.bind_eq_some_iff.mp h with ⟨name, _, h⟩
  rw [← Option.some.inj h]
  intro hnull
  rw [show playerId = .null from hnull] at hid
  cases clientId with
  | none => exact absurd (Option.some.inj hid) (by simp only [reduceCtorEq, not_false_eq_true])
  | some id =>
      simp only [choosePlayerId] at hid
      split at hid
      · rename_i htruthy
        rcases Option.map_eq_some_iff.mp hid with ⟨text, _, hchoice⟩
        split at hchoice
        · rw [hchoice] at htruthy
          exact Bool.noConfusion htruthy
        · exact absurd hchoice (by simp only [reduceCtorEq, not_false_eq_true])
      · exact absurd (Option.some.inj hid) (by simp only [reduceCtorEq, not_false_eq_true])

namespace TcpServer

/-- The sessions of the map are coherent. -/
def Tracked (srv : TcpServer) : Prop :=
  ∀ s ∈ srv.sessions, ∀ o, srv.objs s = some o → o.Coherent

/-- The sessions of the map are coherent, `u` aside. -/
def TrackedOff (srv : TcpServer) (u : SessionId) : Prop :=
  ∀ s ∈ srv.sessions, s ≠ u → ∀ o, srv.objs s = some o → o.Coherent

/-- Who was reported gone went through the whole of its lifecycle. -/
def Left (srv : TcpServer) : Prop :=
  ∀ s ∈ srv.disconnected, ∀ o, srv.objs s = some o → o.state = .disconnected

/-- Every session of the map is coherent and can be disconnected. Nobody is
    reported gone twice, and the transitions of whoever was reported have all
    been accepted: there is no way to `disconnected` but by `disconnecting`. -/
structure Bookkept (srv : TcpServer) : Prop where
  coherent : ∀ s ∈ srv.sessions, ∀ o, srv.objs s = some o → o.Coherent
  leaves : ∀ s ∈ srv.sessions, ∀ o, srv.objs s = some o →
    isValidTransition o.state .disconnecting = true
  left : ∀ s ∈ srv.disconnected, ∀ o, srv.objs s = some o → o.state = .disconnected
  once : srv.disconnected.Nodup

theorem bookkept_iff (srv : TcpServer) (hleft : srv.Left) (h : srv.disconnected.Nodup) :
    srv.Bookkept ↔ srv.Tracked :=
  ⟨fun hb => hb.coherent, fun ht => ⟨ht, fun s hs o ho => (ht s hs o ho).leaves, hleft, h⟩⟩

section Once

/-- Removing a session reports it, if it was there. -/
theorem disconnected_disconnectSession (srv : TcpServer) (host : Host) (u : SessionId)
    (reason : JsValue) : (srv.disconnectSession host u reason).disconnected = srv.disconnected ∨
      u ∈ srv.sessions ∧
        (srv.disconnectSession host u reason).disconnected = srv.disconnected ++ [u] := by
  rw [disconnectSession]
  split
  · exact Or.inl rfl
  · rename_i hu
    cases JsValue.toText host.fmt reason with
    | none => exact Or.inl rfl
    | some text =>
        refine Or.inr ⟨not_not.mp hu, ?_⟩
        simp only [removeSession]
        split <;> rfl

/-- Whoever was reported before is out of the map. -/
theorem nodup_report (srv : TcpServer) (u : SessionId) (hu : u ∈ srv.sessions)
    (hd : srv.Departed) (h : srv.disconnected.Nodup) : (srv.disconnected ++ [u]).Nodup := by
  rw [List.nodup_append]
  refine ⟨h, List.pairwise_singleton _ u, fun s hs t ht hst => ?_⟩
  rw [List.mem_singleton.mp ht] at hst
  exact (hd.gone s hs).1 (hst ▸ hu)

theorem nodup_disconnectSession (srv : TcpServer) (host : Host) (u : SessionId)
    (reason : JsValue) (hd : srv.Departed) (h : srv.disconnected.Nodup) :
    (srv.disconnectSession host u reason).disconnected.Nodup := by
  rcases srv.disconnected_disconnectSession host u reason with heq | ⟨hu, heq⟩
  · rw [heq]
    exact h
  · rw [heq]
    exact srv.nodup_report u hu hd h

theorem nodup_foldl (f : TcpServer → SessionId → TcpServer)
    (hshrinks : ∀ srv u, Shrinks srv (f srv u))
    (hf : ∀ srv u, srv.Departed → srv.disconnected.Nodup → (f srv u).disconnected.Nodup)
    (us : List SessionId) (srv : TcpServer) (hd : srv.Departed) (h : srv.disconnected.Nodup) :
    (us.foldl f srv).disconnected.Nodup := by
  induction us generalizing srv with
  | nil => exact h
  | cons u us ih => exact ih (f srv u) ((hshrinks srv u).departed hd) (hf srv u hd h)

/-- What a message reports, at most its own session. -/
theorem disconnected_onMessage (srv : TcpServer) (host : Host) (u : SessionId) (o : Session)
    (type : MessageType) (payload : JsValue) (ambient : Ambient) :
    (srv.onMessage host u o type payload ambient).disconnected = srv.disconnected ∨
      u ∈ srv.sessions ∧
        (srv.onMessage host u o type payload ambient).disconnected = srv.disconnected ++ [u] := by
  -- Only the branches that disconnect report anything.
  cases type with
  | hello =>
      simp only [onMessage, onHello]
      split
      · exact Or.inl rfl
      · exact disconnected_disconnectSession _ host u _
      · exact Or.inl rfl
  | auth =>
      simp only [onMessage, onAuth]
      split
      · exact srv.disconnected_disconnectSession host u _
      · split
        · exact Or.inl rfl
        · rw [welcome]
          split <;> exact Or.inl rfl
  | heartbeat => exact Or.inl rfl
  | resourceManifestRequest =>
      simp only [onMessage, onResourceManifestRequest]
      split
      · exact srv.disconnected_disconnectSession host u _
      · exact Or.inl rfl
  | playerState =>
      simp only [onMessage, onPlayerState]
      split
      · exact srv.disconnected_disconnectSession host u _
      · exact Or.inl rfl
  | resourcesReady =>
      simp only [onMessage, onResourcesReady]
      split
      · exact srv.disconnected_disconnectSession host u _
      · split <;> exact Or.inl rfl
  | disconnect => exact srv.disconnected_disconnectSession host u _
  | unknown type => exact Or.inl rfl

end Once

section Left

theorem left_modify (srv : TcpServer) (u : SessionId) (f : Session → Session)
    (hf : ∀ o, o.state = .disconnected → (f o).state = .disconnected) (h : srv.Left) :
    (srv.modify u f).Left := by
  intro s hs o ho
  rw [objs_modify] at ho
  by_cases hne : s = u
  · rw [if_pos hne] at ho
    rcases Option.map_eq_some_iff.mp ho with ⟨o', ho', rfl⟩
    exact hf o' (h s hs o' ho')
  · rw [if_neg hne] at ho
    exact h s hs o ho

/-- A session that can be disconnected has left when it is reported. -/
theorem left_disconnectSession (srv : TcpServer) (host : Host) (u : SessionId)
    (reason : JsValue) (h : srv.Left) (hu : u ∈ srv.sessions → ∀ o, srv.objs u = some o →
      isValidTransition o.state .disconnecting = true) :
    (srv.disconnectSession host u reason).Left := by
  rw [disconnectSession]
  split
  · exact h
  · rename_i hin
    have hstate := srv.left_modify u (fun o => o.transitionTo .disconnecting)
      (fun o => o.state_transitionTo_disconnected _) h
    cases JsValue.toText host.fmt reason with
    | none => exact hstate
    | some text =>
        -- What was sent in between makes no difference.
        have hlast : Left { ((srv.modify u (fun o => o.transitionTo .disconnecting)).modify u
            (fun o => o.transitionTo .disconnected)) with
              disconnected := srv.disconnected ++ [u] } := by
          intro s hs o ho
          rcases List.mem_append.mp hs with hs | hs
          · exact left_modify _ u _ (fun o => o.state_transitionTo_disconnected _) hstate s hs o ho
          · rw [List.mem_singleton.mp hs] at ho
            change ((srv.modify u _).modify u _).objs u = some o at ho
            rw [objs_modify, if_pos rfl, objs_modify, if_pos rfl, Option.map_map] at ho
            rcases Option.map_eq_some_iff.mp ho with ⟨o', ho', rfl⟩
            exact o'.state_left (hu (not_not.mp hin) o' ho')
        simp only [removeSession]
        split <;> exact hlast

theorem left_foldl (f : TcpServer → SessionId → TcpServer)
    (hf : ∀ srv u, srv.Tracked → srv.Left → (f srv u).Tracked ∧ (f srv u).Left)
    (us : List SessionId) (srv : TcpServer) (ht : srv.Tracked) (h : srv.Left) :
    (us.foldl f srv).Left := by
  induction us generalizing srv with
  | nil => exact h
  | cons u us ih => exact ih (f srv u) (hf srv u ht h).1 (hf srv u ht h).2

theorem left_onMessage (srv : TcpServer) (host : Host) (u : SessionId) (o : Session)
    (type : MessageType) (payload : JsValue) (ambient : Ambient) (ht : srv.Tracked)
    (h : srv.Left) : (srv.onMessage host u o type payload ambient).Left := by
  have hu : u ∈ srv.sessions → ∀ o, srv.objs u = some o →
      isValidTransition o.state .disconnecting = true := fun hu o ho => (ht u hu o ho).leaves
  cases type with
  | hello =>
      have hset := srv.left_modify u (fun o => { o with
        helloReceived := true, clientProtocolVersion := payload.field (js "protocolVersion") })
        (fun o ho => ho) h
      simp only [onMessage, onHello]
      split
      · exact left_modify _ u _ (fun o => o.state_transitionTo_disconnected _) hset
      · refine left_disconnectSession _ host u _ hset (fun hin o ho => ?_)
        -- The flag has been set, the state is what it was.
        change (srv.modify u _).objs u = some o at ho
        rw [objs_modify, if_pos rfl] at ho
        rcases Option.map_eq_some_iff.mp ho with ⟨o', ho', rfl⟩
        exact hu hin o' ho'
      · exact hset
  | auth =>
      simp only [onMessage, onAuth]
      split
      · exact srv.left_disconnectSession host u _ h hu
      · split
        · exact h
        · rename_i result _
          have hset := srv.left_modify u (fun o => { o with
            authenticated := result.ok,
            clientId := JsValue.orElse (payload.field (js "clientId")) .null,
            playerId := result.playerId, displayName := result.displayName })
            (fun o ho => ho) h
          rw [welcome]
          split
          · exact left_modify _ u _ (fun o => o.state_transitionTo_disconnected _) hset
          · exact hset
  | heartbeat => exact srv.left_modify u _ (fun o ho => ho) h
  | resourceManifestRequest =>
      simp only [onMessage, onResourceManifestRequest]
      split
      · exact srv.left_disconnectSession host u _ h hu
      · exact h
  | playerState =>
      simp only [onMessage, onPlayerState]
      split
      · exact srv.left_disconnectSession host u _ h hu
      · exact srv.left_modify u (fun o => { o with lastPlayerState := some _ }) (fun o ho => ho) h
  | resourcesReady =>
      have hset := srv.left_modify u (fun o => { o with resourcesReady := true })
        (fun o ho => ho) h
      simp only [onMessage, onResourcesReady]
      split
      · exact srv.left_disconnectSession host u _ h hu
      · split <;> exact hset
  | disconnect => exact srv.left_disconnectSession host u _ h hu
  | unknown type => exact h

end Left

section Messages

variable (srv : TcpServer) (host : Host) (u : SessionId)

theorem trackedOff_modify (f : Session → Session) (h : srv.TrackedOff u) :
    (srv.modify u f).TrackedOff u := by
  intro s hs hne o ho
  rw [objs_modify_of_ne srv u s f hne] at ho
  exact h s hs hne o ho

/-- Assigning fields of one session. -/
theorem tracked_modify_iff (f : Session → Session) (o : Session) (ho : srv.objs u = some o)
    (h : srv.TrackedOff u) : (srv.modify u f).Tracked ↔ (u ∈ srv.sessions → (f o).Coherent) := by
  have hself : (srv.modify u f).objs u = some (f o) := by
    rw [objs_modify, if_pos rfl, ho, Option.map_some]
  constructor
  · exact fun ht hu => ht u hu (f o) hself
  · intro hf s hs o' ho'
    by_cases hne : s = u
    · rw [hne, hself] at ho'
      rw [← Option.some.inj ho']
      exact hf (hne ▸ hs)
    · exact srv.trackedOff_modify u f h s hs hne o' ho'

/-- Nothing is left of a session that is removed. -/
theorem tracked_disconnectSession (reason : JsValue)
    (htext : (JsValue.toText host.fmt reason).isSome = true) (h : srv.TrackedOff u) :
    (srv.disconnectSession host u reason).Tracked := by
  rw [disconnectSession]
  split
  · exact fun s hs o ho => h s hs (fun heq => absurd (heq ▸ hs) ‹_›) o ho
  · rcases Option.isSome_iff_exists.mp htext with ⟨text, htext⟩
    have hstate := srv.trackedOff_modify u (fun o => o.transitionTo .disconnecting) h
    have hlast : ∀ srv' : TcpServer, srv'.TrackedOff u →
        ((srv'.delete u).modify u (fun o => o.transitionTo .disconnected)).Tracked := by
      intro srv' h' s hs o ho
      have hne : s ≠ u := of_decide_eq_true (List.mem_filter.mp hs).2
      rw [objs_modify_of_ne _ u s _ hne] at ho
      exact h' s (List.mem_of_mem_filter hs) hne o ho
    simp only [htext, removeSession]
    -- Telling the others changes no session.
    split
    · exact hlast _ hstate
    · exact hlast _ hstate

variable (o : Session) (ho : srv.objs u = some o) (h : srv.Tracked)

include ho h

/-- A disconnect without a text leaves the session in the map, half gone. -/
theorem tracked_onDisconnect_iff (reason : JsValue) :
    (srv.disconnectSession host u reason).Tracked ↔
      ¬ (u ∈ srv.sessions ∧ JsValue.toText host.fmt reason = none) := by
  have hoff : srv.TrackedOff u := fun s hs _ o ho => h s hs o ho
  cases htext : JsValue.toText host.fmt reason with
  | some text =>
      refine iff_of_true ?_ (fun hc => Option.some_ne_none text hc.2)
      exact srv.tracked_disconnectSession host u reason (by rw [htext]; rfl) hoff
  | none =>
      rw [disconnectSession]
      by_cases hu : u ∈ srv.sessions
      · rw [if_neg (not_not_intro hu)]
        simp only [htext]
        rw [srv.tracked_modify_iff u _ o ho hoff]
        refine iff_of_false (fun hc => ?_) (not_not_intro ⟨hu, trivial⟩)
        exact Session.not_coherent_disconnecting (h u hu o ho) (hc hu)
      · rw [if_pos hu]
        exact iff_of_true h (fun hc => hu hc.1)

/-- A `hello` whose version has no text is cut short. -/
theorem tracked_onHello_iff (payload : JsValue) : (srv.onHello host u payload).Tracked ↔
    ¬ (u ∈ srv.sessions ∧ o.state = .connecting ∧
      JsValue.textOf host.fmt (payload.field (js "protocolVersion")) = none) := by
  have hoff : srv.TrackedOff u := fun s hs _ o ho => h s hs o ho
  have hset := srv.trackedOff_modify u (fun o => { o with
    helloReceived := true, clientProtocolVersion := payload.field (js "protocolVersion") }) hoff
  simp only [onHello, isProtocolCompatible]
  cases htext : JsValue.textOf host.fmt (payload.field (js "protocolVersion")) with
  | none =>
      refine (srv.tracked_modify_iff u _ o ho hoff).trans ?_
      constructor
      · rintro hc ⟨hu, hs, _⟩
        exact ((h u hu o ho).cutShort_iff _).mp (hc hu) hs
      · exact fun hc hu => ((h u hu o ho).cutShort_iff _).mpr (fun hs => hc ⟨hu, hs, rfl⟩)
  | some text =>
      refine iff_of_true ?_ (fun hc => Option.some_ne_none text hc.2.2)
      rw [Option.map_some]
      cases decide (protocolMajor text = protocolMajor protocolVersion) with
      | true =>
          -- The acknowledgement in between makes no difference.
          refine (tracked_modify_iff _ u _ { o with
            helloReceived := true, clientProtocolVersion := payload.field (js "protocolVersion") }
            ?_ hset).mpr (fun hu => (h u hu o ho).greeted _)
          rw [objs_modify, if_pos rfl, ho, Option.map_some]
      | false => exact tracked_disconnectSession _ host u _ rfl hset

theorem tracked_onAuth (payload : JsValue) (ambient : Ambient) :
    (srv.onAuth host u o payload ambient).Tracked := by
  have hoff : srv.TrackedOff u := fun s hs _ o ho => h s hs o ho
  simp only [onAuth]
  by_cases hhello : o.helloReceived = true
  swap
  · rw [if_pos (by rw [Bool.eq_false_iff.mpr hhello]; rfl)]
    exact srv.tracked_disconnectSession host u _ rfl hoff
  · rw [if_neg (by rw [hhello]; exact Bool.noConfusion)]
    cases hres : authenticate host.fmt (payload.field (js "clientId"))
      (payload.field (js "displayName")) ambient.playerUuid ambient.sessionUuid with
    | none => exact h
    | some result =>
        have hok := ok_of_authenticate host.fmt _ _ _ _ result hres
        simp only [srv.welcome_eq u _ result hok]
        -- The messages sent make no difference; the object is assigned twice.
        refine (tracked_modify_iff _ u _ { o with
          authenticated := result.ok,
          clientId := JsValue.orElse (payload.field (js "clientId")) .null,
          playerId := result.playerId, displayName := result.displayName }
          ?_ (srv.trackedOff_modify u _ hoff)).mpr (fun hu => ?_)
        · rw [objs_modify, if_pos rfl, ho, Option.map_some]
        · exact (h u hu o ho).admitted hhello _ result hok
            (playerId_ne_null host.fmt _ _ _ _ result hres)

/-- Fields the lifecycle does not depend on. -/
theorem tracked_modify_other (f : Session → Session)
    (hf : ∀ o, o.Coherent → (f o).Coherent) : (srv.modify u f).Tracked :=
  (srv.tracked_modify_iff u f o ho (fun s hs _ o ho => h s hs o ho)).mpr
    (fun hu => hf o (h u hu o ho))

end Messages

end TcpServer

/-- A message cuts its handler short at a point where the session is
    incoherent: a first `hello` whose version has no text, or a `disconnect`
    whose reason has none. -/
def MessageDerails (host : Host) (srv : TcpServer) (u : SessionId) (o : Session)
    (type : MessageType) (payload : JsValue) : Prop :=
  match type with
  | .hello => u ∈ srv.sessions ∧ o.state = .connecting ∧
      JsValue.textOf host.fmt (payload.field (js "protocolVersion")) = none
  | .disconnect => u ∈ srv.sessions ∧
      JsValue.toText host.fmt (JsValue.orElse (payload.field (js "reason"))
        (.str (js "client requested disconnect"))) = none
  | _ => False

/-- The events that break the bookkeeping. -/
def Derails (host : Host) (srv : TcpServer) (e : Event) : Prop :=
  match e with
  | .message u type payload _ => ∃ o, srv.objs u = some o ∧
      MessageDerails host srv u o type (JsValue.orElse payload (.obj []))
  | _ => False

namespace TcpServer

section Messages

variable (srv : TcpServer) (host : Host) (u : SessionId) (o : Session) (payload : JsValue)
  (ambient : Ambient) (ho : srv.objs u = some o) (h : srv.Tracked)

include ho h

/-- A message keeps the sessions coherent unless it derails. -/
theorem tracked_onMessage_iff (type : MessageType) :
    (srv.onMessage host u o type payload ambient).Tracked ↔
      ¬ MessageDerails host srv u o type payload := by
  have hoff : srv.TrackedOff u := fun s hs _ o ho => h s hs o ho
  -- Fields outside the lifecycle.
  have hother : ∀ f : Session → Session, (∀ o, o.Coherent → (f o).Coherent) →
      (srv.modify u f).Tracked := fun f hf => srv.tracked_modify_other u o ho h f hf
  cases type with
  | hello => exact srv.tracked_onHello_iff host u o ho h payload
  | auth => exact iff_of_true (srv.tracked_onAuth host u o ho h payload ambient) not_false
  | heartbeat =>
      refine iff_of_true ?_ not_false
      exact hother (fun o => { o with lastHeartbeatAt := ambient.now })
        (fun o hc => ⟨hc.alive, hc.hello, hc.auth, hc.player⟩)
  | resourceManifestRequest =>
      refine iff_of_true ?_ not_false
      simp only [onMessage, onResourceManifestRequest]
      split
      · exact srv.tracked_disconnectSession host u _ rfl hoff
      · exact h
  | playerState =>
      refine iff_of_true ?_ not_false
      simp only [onMessage, onPlayerState]
      split
      · exact srv.tracked_disconnectSession host u _ rfl hoff
      · exact hother (fun o => { o with lastPlayerState := some _ })
          (fun o hc => ⟨hc.alive, hc.hello, hc.auth, hc.player⟩)
  | resourcesReady =>
      have hset := hother (fun o => { o with resourcesReady := true })
        (fun o hc => ⟨hc.alive, hc.hello, hc.auth, hc.player⟩)
      refine iff_of_true ?_ not_false
      simp only [onMessage, onResourcesReady]
      split
      · exact srv.tracked_disconnectSession host u _ rfl hoff
      · split <;> exact hset
  | disconnect => exact srv.tracked_onDisconnect_iff host u o ho h _
  | unknown type => exact iff_of_true h not_false

end Messages

theorem tracked_onConnection (srv : TcpServer) (u : SessionId) (now : Int) (h : srv.Tracked) :
    (srv.onConnection u now).Tracked := by
  intro s hs o ho
  rw [objs_onConnection] at ho
  by_cases hne : s = u
  · rw [if_pos hne] at ho
    rw [← Option.some.inj ho]
    exact Session.coherent_new now
  · rw [if_neg hne] at ho
    rcases List.mem_append.mp hs with hs | hs
    · exact h s hs o ho
    · exact absurd (List.mem_singleton.mp hs) hne

theorem tracked_foldl (f : TcpServer → SessionId → TcpServer)
    (hf : ∀ srv u, srv.Tracked → (f srv u).Tracked) (us : List SessionId) (srv : TcpServer)
    (h : srv.Tracked) : (us.foldl f srv).Tracked := by
  induction us generalizing srv with
  | nil => exact h
  | cons u us ih => exact ih (f srv u) (hf srv u h)

theorem shrinks_checkHeartbeat (host : Host) (now : Int) (srv : TcpServer) (u : SessionId) :
    Shrinks srv (checkHeartbeat host now srv u) := by
  rw [checkHeartbeat]
  split
  · exact Shrinks.refl srv
  · split
    · exact srv.shrinks_disconnectSession host u _
    · exact Shrinks.refl srv

end TcpServer

/-- No session is reported gone twice. -/
theorem nodup_step (host : Host) (srv : TcpServer) (e : Event) (hd : srv.Departed)
    (h : srv.disconnected.Nodup) : (step host srv e).disconnected.Nodup := by
  -- Only a session that is present is reported, and it is not present afterwards.
  cases e with
  | connect u now =>
      rw [step]
      split <;> exact h
  | message u type payload ambient =>
      rw [step]
      split
      · exact h
      · rename_i o ho
        rcases srv.disconnected_onMessage host u o type (JsValue.orElse payload (.obj [])) ambient
          with heq | ⟨hu, heq⟩
        · rw [heq]
          exact h
        · rw [heq]
          exact TcpServer.nodup_report srv u hu hd h
  | protocolError u => exact h
  | close u => exact srv.nodup_disconnectSession host u (.str (js "connection closed")) hd h
  | watchdog now =>
      refine TcpServer.nodup_foldl _ (TcpServer.shrinks_checkHeartbeat host now) ?_ _ srv hd h
      intro acc u hacc hnodup
      rw [TcpServer.checkHeartbeat]
      split
      · exact hnodup
      · split
        · exact acc.nodup_disconnectSession host u _ hacc hnodup
        · exact hnodup
  | shutdown =>
      refine TcpServer.nodup_foldl _ (fun acc u => acc.shrinks_disconnectSession host u _) ?_ _
        srv hd h
      exact fun acc u hacc hnodup => acc.nodup_disconnectSession host u _ hacc hnodup

/-- An event keeps the sessions coherent unless it derails. -/
theorem tracked_step_iff (host : Host) (srv : TcpServer) (e : Event) (h : srv.Tracked) :
    (step host srv e).Tracked ↔ ¬ Derails host srv e := by
  -- The server's own reasons have a text.
  have hstr : ∀ (acc : TcpServer) (u : SessionId) (reason : JsString), acc.Tracked →
      (acc.disconnectSession host u (.str reason)).Tracked := fun acc u reason hacc =>
    acc.tracked_disconnectSession host u _ rfl (fun s hs _ o ho => hacc s hs o ho)
  cases e with
  | connect u now =>
      refine iff_of_true ?_ not_false
      rw [step]
      split
      · exact h
      · exact srv.tracked_onConnection u now h
  | message u type payload ambient =>
      rw [step, Derails]
      cases ho : srv.objs u with
      | none =>
          refine iff_of_true h ?_
          rintro ⟨o, hnone, _⟩
          exact absurd hnone (by simp only [reduceCtorEq, not_false_eq_true])
      | some o =>
          simp only [srv.tracked_onMessage_iff host u o _ ambient ho h type, Option.some.injEq,
            exists_eq_left']
  | protocolError u => exact iff_of_true h not_false
  | close u => exact iff_of_true (hstr srv u _ h) not_false
  | watchdog now =>
      refine iff_of_true (TcpServer.tracked_foldl _ (fun acc u hacc => ?_) _ srv h) not_false
      rw [TcpServer.checkHeartbeat]
      split
      · exact hacc
      · split
        · exact hstr acc u _ hacc
        · exact hacc
  | shutdown =>
      exact iff_of_true (TcpServer.tracked_foldl _ (fun acc u hacc => hstr acc u _ hacc) _ srv h)
        not_false

/-- Whoever is reported gone has left. -/
theorem left_step (host : Host) (srv : TcpServer) (e : Event) (hd : srv.Departed)
    (ht : srv.Tracked) (h : srv.Left) : (step host srv e).Left := by
  have hstr : ∀ (acc : TcpServer) (u : SessionId) (reason : JsString), acc.Tracked → acc.Left →
      (acc.disconnectSession host u (.str reason)).Tracked ∧
        (acc.disconnectSession host u (.str reason)).Left := fun acc u reason hacc hleft =>
    ⟨acc.tracked_disconnectSession host u _ rfl (fun s hs _ o ho => hacc s hs o ho),
      acc.left_disconnectSession host u _ hleft (fun hu o ho => (hacc u hu o ho).leaves)⟩
  cases e with
  | connect u now =>
      rw [step]
      split
      · exact h
      · rename_i hu
        intro s hs o ho
        -- The id is new, so it is not that of a session that left.
        have hne : s ≠ u := fun heq => hu (heq ▸ (hd.gone s hs).2)
        rw [TcpServer.objs_onConnection, if_neg hne] at ho
        exact h s hs o ho
  | message u type payload ambient =>
      rw [step]
      split
      · exact h
      · exact srv.left_onMessage host u _ type _ ambient ht h
  | protocolError u => exact h
  | close u => exact (hstr srv u _ ht h).2
  | watchdog now =>
      refine TcpServer.left_foldl _ (fun acc u hacc hleft => ?_) _ srv ht h
      rw [TcpServer.checkHeartbeat]
      split
      · exact ⟨hacc, hleft⟩
      · split
        · exact hstr acc u _ hacc hleft
        · exact ⟨hacc, hleft⟩
  | shutdown =>
      exact TcpServer.left_foldl _ (fun acc u hacc hleft => hstr acc u _ hacc hleft) _ srv ht h

/-- The bookkeeping holds in every state of a run exactly when no event of the
    run derails. -/
theorem always_bookkept_iff (host : Host) (es : List Event) :
    Run.Always (step host) TcpServer.Bookkept TcpServer.init es ↔
      Run.EachStep (step host) (fun srv e => ¬ Derails host srv e) TcpServer.init es := by
  refine Run.always_iff_eachStep (step host)
    (fun srv => srv.Departed ∧ srv.disconnected.Nodup)
    (fun srv e h => ⟨departed_step host srv e h.1, nodup_step host srv e h.1 h.2⟩)
    TcpServer.Bookkept _ (fun srv e h hb => ?_) es TcpServer.init
    ⟨departed_init, List.nodup_nil⟩ ?_
  · rw [TcpServer.bookkept_iff _ (left_step host srv e h.1 hb.coherent hb.left)
      (nodup_step host srv e h.1 h.2)]
    exact tracked_step_iff host srv e hb.coherent
  · exact (TcpServer.bookkept_iff _ (fun s hs => absurd hs List.not_mem_nil) List.nodup_nil).mpr
      (fun s hs => absurd hs List.not_mem_nil)

section HalfGone

/-- A value without a text. -/
def untextable : JsValue := .obj [(js "toString", .bool true)]

/-- A client greets with a version that cannot be written out, and
    authenticates. -/
def brokenGreeting : List Event :=
  let ambient : Ambient := ⟨0, [], [], []⟩
  [.connect (js "s1") 0,
    .message (js "s1") .hello (some (.obj [(js "protocolVersion", untextable)])) ambient,
    .message (js "s1") .auth none ambient]

/-- The session is authenticated and in the state of one that never said
    hello. -/
theorem not_bookkept_brokenGreeting : ¬ (brokenGreeting.foldl
    (step (Host.shipped (fun _ => []))) TcpServer.init).Bookkept := by
  intro h
  have hcoherent := h.coherent (js "s1") (by decide) _ rfl
  exact absurd (hcoherent.auth.mp rfl) (by decide)

end HalfGone

end Server

end MzzPlork
