import Mathlib.Order.BooleanAlgebra.Set
import MzzPlork.Core.TcpServer

/-!
# Who Sees Whom

What the server's presence events tell a client, step by step.

A client that folds the `player_joined` and `player_left` events it has been
sent ends up with a set of player ids. The server, on its side, has the
authenticated sessions of its map. Every step of the server changes these two
in one of two ways: some sessions go (`Removed`), or one session is issued a
player id (`Joined`). Most steps are the first with nobody going.

`Removed` composes, so the watchdog and the shutdown, which remove any number
of sessions in one turn, need nothing beyond the removal of one. `effect`
names the change an event causes from the state before it, and `step_effect`
says that the step is that change.

## Main definitions

* `seen`, `presence`: What a client makes of the messages it was sent.
* `Present`: In the map and authenticated.
* `others`: The player ids a client should know of.
* `Removed`, `Joined`: The two kinds of step.
* `effect`: The change an event causes.

## Theorems

* `Removed.trans`: Removals compose.
* `removed_disconnectSession`: A disconnect is the removal of one session.
* `joined_welcome`: A successful `auth` is one id issued.
* `step_effect`: Every step is its effect.
-/

namespace MzzPlork

namespace Server

/-- A player id on the wire. The server hands out strings, but takes over any
    client id that reads like one. -/
abbrev PlayerId := JsValue

/-- One message, folded into the set of players a client knows of. Nothing is
    known before the first `auth_result`. -/
def seen (known : Option (Set PlayerId)) (m : ServerMessage) : Option (Set PlayerId) :=
  match m with
  | .authResult _ => some (known.getD ∅)
  | .event (.playerJoined p _) => known.map (insert p)
  | .event (.playerLeft p) => known.map (· \ {p})
  | _ => known

namespace TcpServer

/-- The messages passed to a session's `send`, in order. -/
def received (srv : TcpServer) (s : SessionId) : List ServerMessage :=
  (srv.log.filter (fun call => call.1 = s)).map Prod.snd

/-- The players a session has been told of since it authenticated. -/
def presence (srv : TcpServer) (s : SessionId) : Option (Set PlayerId) :=
  (srv.received s).foldl seen none

/-- In the map and authenticated. -/
def Present (srv : TcpServer) (s : SessionId) : Prop :=
  s ∈ srv.sessions ∧ srv.authenticated s = true

theorem present_iff (srv : TcpServer) (s : SessionId) :
    (srv.sessions.any (fun t => decide (t = s)) && srv.authenticated s) = true ↔ srv.Present s := by
  rw [Present, Bool.and_eq_true, List.any_eq_true]
  simp only [decide_eq_true_eq, exists_eq_right]

instance (srv : TcpServer) (s : SessionId) : Decidable (srv.Present s) :=
  decidable_of_iff _ (present_iff srv s)

/-- The player ids of the other authenticated sessions in the map. -/
def others (srv : TcpServer) (s : SessionId) : Set PlayerId :=
  {p | ∃ t, srv.Present t ∧ t ≠ s ∧ srv.playerId t = p}

/-- The player ids of the authenticated sessions of a list that are in the map. -/
def idsOf (srv : TcpServer) (ks : List SessionId) : Set PlayerId :=
  {p | ∃ k ∈ ks, srv.Present k ∧ srv.playerId k = p}

section Reading

variable (srv : TcpServer) (u s : SessionId)

@[simp] theorem authenticated_emit (calls : List (SessionId × ServerMessage)) :
    (srv.emit calls).authenticated s = srv.authenticated s := rfl

@[simp] theorem playerId_emit (calls : List (SessionId × ServerMessage)) :
    (srv.emit calls).playerId s = srv.playerId s := rfl

@[simp] theorem received_emit (calls : List (SessionId × ServerMessage)) :
    (srv.emit calls).received s
      = srv.received s ++ (calls.filter (fun call => call.1 = s)).map Prod.snd := by
  rw [received, emit, List.filter_append, List.map_append]
  rfl

theorem presence_emit (calls : List (SessionId × ServerMessage)) :
    (srv.emit calls).presence s
      = ((calls.filter (fun call => call.1 = s)).map Prod.snd).foldl seen (srv.presence s) := by
  rw [presence, received_emit, List.foldl_append]
  rfl

theorem objs_modify (f : Session → Session) :
    (srv.modify u f).objs s = if s = u then (srv.objs s).map f else srv.objs s := by
  refine (Function.update_apply srv.objs u _ s).trans ?_
  by_cases hs : s = u
  · rw [if_pos hs, if_pos hs, hs]
  · rw [if_neg hs, if_neg hs]

/-- Assigning other fields leaves the flag alone. -/
theorem authenticated_modify (f : Session → Session)
    (hf : ∀ o, (f o).authenticated = o.authenticated) :
    (srv.modify u f).authenticated s = srv.authenticated s := by
  rw [authenticated, authenticated, objs_modify]
  by_cases hs : s = u
  · rw [if_pos hs]
    cases srv.objs s with
    | none => rfl
    | some o => exact hf o
  · rw [if_neg hs]

/-- Assigning other fields leaves the player id alone. -/
theorem playerId_modify (f : Session → Session) (hf : ∀ o, (f o).playerId = o.playerId) :
    (srv.modify u f).playerId s = srv.playerId s := by
  rw [playerId, playerId, objs_modify]
  by_cases hs : s = u
  · rw [if_pos hs]
    cases srv.objs s with
    | none => rfl
    | some o => exact hf o
  · rw [if_neg hs]

end Reading

/-- Sessions went, and everyone left was told. -/
structure Removed (srv srv' : TcpServer) (ks : List SessionId) : Prop where
  auth : ∀ s, srv'.authenticated s = srv.authenticated s
  pid : ∀ s, srv'.playerId s = srv.playerId s
  present : ∀ s, srv'.Present s ↔ srv.Present s ∧ s ∉ ks
  told : ∀ s, srv'.Present s → srv'.presence s = (srv.presence s).map (· \ srv.idsOf ks)
  unheard : ∀ s, srv.authenticated s = false → srv.presence s = none → srv'.presence s = none

theorem idsOf_nil (srv : TcpServer) : srv.idsOf [] = ∅ := by
  ext p
  simp only [idsOf, List.not_mem_nil, false_and, exists_false, Set.mem_ofPred_eq,
    Set.mem_empty_iff_false]

theorem Removed.refl (srv : TcpServer) : Removed srv srv [] where
  auth := fun _ => rfl
  pid := fun _ => rfl
  present := fun s => by simp only [List.not_mem_nil, not_false_eq_true, and_true]
  told := fun s _ => by
    rw [idsOf_nil]
    cases srv.presence s with
    | none => rfl
    | some known => rw [Option.map_some, Set.sdiff_empty]
  unheard := fun _ _ h => h

/-- Removals compose. -/
theorem Removed.trans {srv srv' srv'' : TcpServer} {ks ks' : List SessionId}
    (h : Removed srv srv' ks) (h' : Removed srv' srv'' ks') : Removed srv srv'' (ks ++ ks') where
  auth := fun s => (h'.auth s).trans (h.auth s)
  pid := fun s => (h'.pid s).trans (h.pid s)
  present := fun s => by
    rw [h'.present, h.present, List.mem_append, not_or, and_assoc]
  told := fun s hs => by
    have hs' := ((h'.present s).mp hs).1
    -- Ids are read off the state in which a session is removed, and the first
    -- removals leave the ids of the rest alone.
    have hids : srv.idsOf (ks ++ ks') = srv.idsOf ks ∪ srv'.idsOf ks' := by
      ext p
      simp only [idsOf, Set.mem_union, Set.mem_ofPred_eq, List.mem_append, h.present, h.pid]
      constructor
      · rintro ⟨k, hk, hp, rfl⟩
        by_cases hks : k ∈ ks
        · exact Or.inl ⟨k, hks, hp, rfl⟩
        · exact Or.inr ⟨k, hk.resolve_left hks, ⟨hp, hks⟩, rfl⟩
      · rintro (⟨k, hk, hp, rfl⟩ | ⟨k, hk, ⟨hp, _⟩, rfl⟩)
        · exact ⟨k, Or.inl hk, hp, rfl⟩
        · exact ⟨k, Or.inr hk, hp, rfl⟩
    rw [h'.told s hs, h.told s hs', Option.map_map, hids]
    congr 1
    funext known
    exact Set.sdiff_sdiff
  unheard := fun s ha hn => h'.unheard s ((h.auth s).trans ha) (h.unheard s ha hn)

/-- A message that says nothing about presence. -/
def isNeutral (m : ServerMessage) : Bool :=
  match m with
  | .authResult _ => false
  | .event (.playerJoined _ _) => false
  | .event (.playerLeft _) => false
  | _ => true

theorem seen_neutral (known : Option (Set PlayerId)) (m : ServerMessage)
    (h : isNeutral m = true) : seen known m = known := by
  match m with
  | .authResult _ => exact Bool.noConfusion h
  | .event (.playerJoined _ _) => exact Bool.noConfusion h
  | .event (.playerLeft _) => exact Bool.noConfusion h
  | .event (.playerState _ _) => rfl
  | .event (.playerReady _ _) => rfl
  | .helloAck _ _ _ => rfl
  | .heartbeatAck _ => rfl
  | .resourceManifest _ _ => rfl
  | .resourcesReadyAck => rfl
  | .kick _ => rfl

theorem foldl_seen_neutral (ms : List ServerMessage) (known : Option (Set PlayerId))
    (h : ∀ m ∈ ms, isNeutral m = true) : ms.foldl seen known = known := by
  induction ms generalizing known with
  | nil => rfl
  | cons m ms ih =>
      rw [List.foldl_cons, seen_neutral known m (h m List.mem_cons_self)]
      exact ih known (fun m' hm' => h m' (List.mem_cons_of_mem m hm'))

/-- Neutral messages go unnoticed. -/
theorem removed_emit (srv : TcpServer) (calls : List (SessionId × ServerMessage))
    (h : ∀ call ∈ calls, isNeutral call.2 = true) : Removed srv (srv.emit calls) [] := by
  have hpresence : ∀ s, (srv.emit calls).presence s = srv.presence s := by
    intro s
    rw [presence_emit]
    refine foldl_seen_neutral _ _ (fun m hm => ?_)
    rcases List.mem_map.mp hm with ⟨call, hcall, rfl⟩
    exact h call (List.mem_filter.mp hcall).1
  have hr := Removed.refl srv
  exact ⟨hr.auth, hr.pid, hr.present, fun s hs => (hpresence s).trans (hr.told s hs),
    fun s _ hn => (hpresence s).trans hn⟩

theorem removed_send (srv : TcpServer) (u : SessionId) (m : ServerMessage)
    (h : isNeutral m = true) : Removed srv (srv.send u m) [] :=
  srv.removed_emit [(u, m)] (fun call hcall => by rwa [List.mem_singleton.mp hcall])

/-- Assigning other fields goes unnoticed. -/
theorem removed_modify (srv : TcpServer) (u : SessionId) (f : Session → Session)
    (ha : ∀ o, (f o).authenticated = o.authenticated)
    (hp : ∀ o, (f o).playerId = o.playerId) : Removed srv (srv.modify u f) [] := by
  have hr := Removed.refl srv
  refine ⟨fun s => srv.authenticated_modify u s f ha, fun s => srv.playerId_modify u s f hp,
    fun s => ?_, fun s hs => ?_, fun s _ hn => hn⟩
  · rw [Present, srv.authenticated_modify u s f ha]
    exact hr.present s
  · rw [Present, srv.authenticated_modify u s f ha] at hs
    exact hr.told s hs

/-- One message sent to each session of a list, where hearing it twice is
    hearing it once. -/
theorem foldl_seen_sent (m : ServerMessage) (hm : ∀ known, seen (seen known m) m = seen known m)
    (ids : List SessionId) (s : SessionId) (known : Option (Set PlayerId)) :
    (((ids.map (fun t => (t, m))).filter (fun call => call.1 = s)).map Prod.snd).foldl seen known
      = if s ∈ ids then seen known m else known := by
  induction ids generalizing known with
  | nil => rfl
  | cons t ids ih =>
      rw [List.map_cons]
      by_cases ht : t = s
      · simp only [List.filter_cons, ht, decide_true, if_true, List.map_cons, List.foldl_cons, ih,
          hm, ite_self, List.mem_cons, true_or]
      · simp only [List.filter_cons, ht, decide_false, Bool.false_eq_true, if_false, ih,
          List.mem_cons, Ne.symm ht, false_or]

theorem presence_broadcastExcept (srv : TcpServer) (u : SessionId) (e : ServerEvent)
    (he : ∀ known, seen (seen known (.event e)) (.event e) = seen known (.event e))
    (s : SessionId) : (srv.broadcastExcept u e).presence s
      = if srv.Present s ∧ s ≠ u then seen (srv.presence s) (.event e) else srv.presence s := by
  rw [broadcastExcept, presence_emit, foldl_seen_sent _ he]
  simp only [List.mem_filter, Bool.and_eq_true, decide_eq_true_eq, Present, and_assoc]

/-- Leaving the map and telling the rest of it. -/
theorem removed_delete (srv : TcpServer) (u : SessionId) (hu : u ∈ srv.sessions) :
    Removed srv (if (srv.delete u).authenticated u then
      (srv.delete u).broadcastExcept u (.playerLeft ((srv.delete u).playerId u))
      else srv.delete u) [u] := by
  -- The map loses `u` before anyone is told, and `u`'s object stays.
  have hdel : ∀ s, (srv.delete u).Present s ↔ srv.Present s ∧ s ∉ [u] := by
    intro s
    rw [List.mem_singleton]
    constructor
    · rintro ⟨hs, ha⟩
      rcases List.mem_filter.mp hs with ⟨hs, hne⟩
      exact ⟨⟨hs, ha⟩, of_decide_eq_true hne⟩
    · rintro ⟨⟨hs, ha⟩, hne⟩
      exact ⟨List.mem_filter.mpr ⟨hs, decide_eq_true hne⟩, ha⟩
  have hids : srv.idsOf [u]
      = if srv.authenticated u = true then {srv.playerId u} else ∅ := by
    ext p
    simp only [idsOf, List.mem_singleton, exists_eq_left, Present, hu, true_and,
      Set.mem_ofPred_eq]
    by_cases ha : srv.authenticated u = true
    · rw [if_pos ha]
      exact ⟨fun h => h.2.symm, fun h => ⟨ha, h.symm⟩⟩
    · rw [if_neg ha]
      exact ⟨fun h => absurd h.1 ha, fun h => absurd h (Set.notMem_empty p)⟩
  by_cases ha : srv.authenticated u = true
  · rw [if_pos (show (srv.delete u).authenticated u = true from ha)]
    -- Hearing that somebody left twice is hearing it once.
    have hleft : ∀ known, seen (seen known (.event (.playerLeft (srv.playerId u))))
        (.event (.playerLeft (srv.playerId u)))
          = seen known (.event (.playerLeft (srv.playerId u))) := by
      intro known
      cases known with
      | none => rfl
      | some known =>
          simp only [seen, Option.map_some, Set.sdiff_sdiff, Set.union_self]
    have hpres : ∀ s, ((srv.delete u).broadcastExcept u
        (.playerLeft ((srv.delete u).playerId u))).Present s ↔ srv.Present s ∧ s ∉ [u] := hdel
    refine ⟨fun _ => rfl, fun _ => rfl, hpres, fun s hs => ?_, fun s hs hn => ?_⟩
    · have hs' := (hpres s).mp hs
      refine ((srv.delete u).presence_broadcastExcept u _ hleft s).trans ?_
      rw [if_pos ⟨(hdel s).mpr hs', List.ne_of_not_mem_cons hs'.2⟩, hids, if_pos ha]
      rfl
    · refine ((srv.delete u).presence_broadcastExcept u _ hleft s).trans ?_
      rw [if_neg (fun h => by
        have := h.1.2.symm.trans hs
        exact Bool.noConfusion this)]
      exact hn
  -- A session that had not authenticated leaves without a word.
  · rw [if_neg (show ¬ (srv.delete u).authenticated u = true from ha)]
    refine ⟨fun _ => rfl, fun _ => rfl, hdel, fun s hs => ?_, fun _ _ hn => hn⟩
    have hsame := (Removed.refl srv).told s ((hdel s).mp hs).1
    rw [idsOf_nil] at hsame
    rw [hids, if_neg ha]
    exact hsame

/-- Removing sessions that are not there changes nothing. -/
theorem removed_absent (srv : TcpServer) (ks : List SessionId)
    (h : ∀ k ∈ ks, ¬ srv.Present k) : Removed srv srv ks := by
  have hids : srv.idsOf ks = srv.idsOf [] := by
    rw [idsOf_nil, Set.eq_empty_iff_forall_notMem]
    rintro p ⟨k, hk, hp, _⟩
    exact h k hk hp
  have hr := Removed.refl srv
  refine ⟨hr.auth, hr.pid, fun s => ?_, fun s hs => ?_, hr.unheard⟩
  · exact ⟨fun hs => ⟨hs, fun hk => h s hk hs⟩, fun hs => hs.1⟩
  · rw [hids]
    exact hr.told s hs

theorem removed_removeSession (srv : TcpServer) (u : SessionId) (reason : JsValue)
    (hu : u ∈ srv.sessions) : Removed srv (srv.removeSession u reason) [u] := by
  -- The order of the source: kick, leave the map, tell the rest, change state.
  have hkick := srv.removed_send u (.kick reason) rfl
  have hgone := hkick.trans ((srv.send u (.kick reason)).removed_delete u hu)
  have hstate := hgone.trans (removed_modify _ u (fun o => o.transitionTo .disconnected)
    (fun o => o.authenticated_transitionTo _) (fun o => o.playerId_transitionTo _))
  exact ⟨hstate.auth, hstate.pid, hstate.present, hstate.told, hstate.unheard⟩

/-- A disconnect removes the session, unless its reason has no text. -/
theorem removed_disconnectSession (srv : TcpServer) (host : Host) (u : SessionId)
    (reason : JsValue) : Removed srv (srv.disconnectSession host u reason)
      (if (JsValue.toText host.fmt reason).isSome then [u] else []) := by
  rw [disconnectSession]
  by_cases hu : u ∈ srv.sessions
  · rw [if_neg (not_not_intro hu)]
    have hstate := srv.removed_modify u (fun o => o.transitionTo .disconnecting)
      (fun o => o.authenticated_transitionTo _) (fun o => o.playerId_transitionTo _)
    cases JsValue.toText host.fmt reason with
    -- The log line throws before the session leaves the map.
    | none => exact hstate
    | some text => exact hstate.trans (removed_removeSession _ u reason hu)
  -- A second disconnect is ignored.
  · rw [if_pos hu]
    refine srv.removed_absent _ (fun k hk hp => hu ?_)
    split at hk
    · rw [← List.mem_singleton.mp hk]
      exact hp.1
    · exact absurd hk List.not_mem_nil

/-- A reason that is a text of the server's own always has one. -/
theorem removed_disconnectSession_str (srv : TcpServer) (host : Host) (u : SessionId)
    (reason : JsString) : Removed srv (srv.disconnectSession host u (.str reason)) [u] :=
  srv.removed_disconnectSession host u (.str reason)

/-- The watchdog's test. -/
def expired (host : Host) (now : Int) (srv : TcpServer) (u : SessionId) : Bool :=
  match srv.objs u with
  | none => false
  | some o => o.isHeartbeatExpired host.heartbeatTimeoutMs now

section Kept

variable {α : Type} (f : Session → α)

/-- What an update of one session leaves alone, every session keeps. -/
theorem map_objs_modify (srv : TcpServer) (u s : SessionId) (g : Session → Session)
    (hg : ∀ o, f (g o) = f o) : ((srv.modify u g).objs s).map f = (srv.objs s).map f := by
  rw [objs_modify]
  by_cases hs : s = u
  · rw [if_pos hs]
    cases srv.objs s with
    | none => rfl
    | some o => exact congrArg some (hg o)
  · rw [if_neg hs]

/-- What no transition touches, every session keeps when one is disconnected. -/
theorem map_objs_disconnectSession (host : Host) (srv : TcpServer) (u s : SessionId)
    (reason : JsValue) (hf : ∀ o target, f (Session.transitionTo o target) = f o) :
    ((srv.disconnectSession host u reason).objs s).map f = (srv.objs s).map f := by
  have hstate : ∀ (srv : TcpServer) (target : ConnectionState),
      ((srv.modify u (fun o => o.transitionTo target)).objs s).map f = (srv.objs s).map f :=
    fun srv target => map_objs_modify f srv u s _ (fun o => hf o target)
  rw [disconnectSession]
  split
  · rfl
  · cases JsValue.toText host.fmt reason with
    | none => exact hstate srv .disconnecting
    | some text =>
        simp only [removeSession]
        split
        · exact (hstate _ .disconnected).trans (hstate srv .disconnecting)
        · exact (hstate _ .disconnected).trans (hstate srv .disconnecting)

end Kept

/-- Removing one session does not change who else has expired. -/
theorem expired_disconnectSession (host : Host) (now : Int) (srv : TcpServer) (u s : SessionId)
    (reason : JsValue) : expired host now (srv.disconnectSession host u reason) s
      = expired host now srv s := by
  have hkept := map_objs_disconnectSession (·.lastHeartbeatAt) host srv u s reason
    (fun o target => o.lastHeartbeatAt_transitionTo target)
  rw [expired, expired]
  cases ho : srv.objs s with
  | none =>
      rw [ho, Option.map_none, Option.map_eq_none_iff] at hkept
      rw [hkept]
  | some o =>
      rw [ho] at hkept
      rcases Option.map_eq_some_iff.mp hkept with ⟨o', ho', hbeat⟩
      rw [ho']
      simp only [Session.isHeartbeatExpired, hbeat]

/-- A watchdog tick removes the sessions of its snapshot that have expired. -/
theorem removed_watchdog (host : Host) (now : Int) (us : List SessionId) (srv : TcpServer) :
    Removed srv (us.foldl (checkHeartbeat host now) srv)
      (us.filter (expired host now srv)) := by
  induction us generalizing srv with
  | nil => exact Removed.refl srv
  | cons u us ih =>
      rw [List.foldl_cons, List.filter_cons]
      have hrest := ih (checkHeartbeat host now srv u)
      cases ho : srv.objs u with
      | none =>
          have hcheck : checkHeartbeat host now srv u = srv := by rw [checkHeartbeat, ho]
          have hexp : expired host now srv u = false := by rw [expired, ho]
          rw [hcheck] at hrest ⊢
          rw [hexp]
          exact hrest
      | some o =>
          have hexp : expired host now srv u
              = o.isHeartbeatExpired host.heartbeatTimeoutMs now := by rw [expired, ho]
          have hcheck : checkHeartbeat host now srv u
              = if o.isHeartbeatExpired host.heartbeatTimeoutMs now then
                  srv.disconnectSession host u (.str (js "heartbeat timeout")) else srv := by
            rw [checkHeartbeat, ho]
          rw [hcheck] at hrest ⊢
          rw [hexp]
          by_cases he : o.isHeartbeatExpired host.heartbeatTimeoutMs now = true
          · rw [if_pos he] at hrest ⊢
            rw [if_pos he]
            -- The sessions behind it in the snapshot expire or not as before.
            have hsame : us.filter (expired host now
                (srv.disconnectSession host u (.str (js "heartbeat timeout"))))
                  = us.filter (expired host now srv) :=
              List.filter_congr (fun s _ => expired_disconnectSession host now srv u s _)
            rw [hsame] at hrest
            exact (srv.removed_disconnectSession_str host u _).trans hrest
          · rw [if_neg he] at hrest ⊢
            rw [if_neg he]
            exact hrest

/-- A shutdown removes every session. -/
theorem removed_shutdown (host : Host) (reason : JsString) (us : List SessionId)
    (srv : TcpServer) :
    Removed srv (us.foldl (fun acc u => acc.disconnectSession host u (.str reason)) srv) us := by
  induction us generalizing srv with
  | nil => exact Removed.refl srv
  | cons u us ih =>
      exact (srv.removed_disconnectSession_str host u reason).trans (ih _)

/-- One session was issued a player id, and both sides were told. -/
structure Joined (srv srv' : TcpServer) (u : SessionId) (p : PlayerId) : Prop where
  sessions : srv'.sessions = srv.sessions
  auth_self : srv'.authenticated u = true
  auth : ∀ s, s ≠ u → srv'.authenticated s = srv.authenticated s
  pid_self : srv'.playerId u = p
  pid : ∀ s, s ≠ u → srv'.playerId s = srv.playerId s
  told_self : srv'.presence u = some ((srv.presence u).getD ∅ ∪ srv.others u)
  told : ∀ s, s ≠ u → srv'.presence s
    = if srv.Present s then (srv.presence s).map (insert p) else srv.presence s

theorem objs_modify_of_ne (srv : TcpServer) (u s : SessionId) (f : Session → Session)
    (hs : s ≠ u) : (srv.modify u f).objs s = srv.objs s := by
  rw [objs_modify, if_neg hs]

theorem authenticated_modify_of_ne (srv : TcpServer) (u s : SessionId) (f : Session → Session)
    (hs : s ≠ u) : (srv.modify u f).authenticated s = srv.authenticated s := by
  rw [authenticated, authenticated, objs_modify_of_ne srv u s f hs]

theorem playerId_modify_of_ne (srv : TcpServer) (u s : SessionId) (f : Session → Session)
    (hs : s ≠ u) : (srv.modify u f).playerId s = srv.playerId s := by
  rw [playerId, playerId, objs_modify_of_ne srv u s f hs]

theorem playerId_eq (srv : TcpServer) (s : SessionId) (o : Session) (h : srv.objs s = some o) :
    srv.playerId s = o.playerId := by
  rw [playerId, h]

theorem objs_of_authenticated (srv : TcpServer) (s : SessionId)
    (h : srv.authenticated s = true) : ∃ o, srv.objs s = some o ∧ o.authenticated = true := by
  rw [authenticated] at h
  cases ho : srv.objs s with
  | none =>
      rw [ho] at h
      exact Bool.noConfusion h
  | some o =>
      rw [ho] at h
      exact ⟨o, rfl, h⟩

/-- Every introduction is addressed to the newcomer. -/
theorem fst_of_mem_backfill (srv : TcpServer) (u : SessionId) (call : SessionId × ServerMessage)
    (h : call ∈ srv.backfill u) : call.1 = u := by
  rcases List.mem_flatMap.mp h with ⟨s, _, hcall⟩
  rw [introduction] at hcall
  split at hcall
  · exact absurd hcall List.not_mem_nil
  · rcases List.mem_cons.mp hcall with rfl | hcall
    · rfl
    · split at hcall
      · exact absurd hcall List.not_mem_nil
      · rw [List.mem_singleton.mp hcall]

/-- One introduction makes one player known. -/
theorem foldl_seen_introduction (srv : TcpServer) (u s : SessionId) (known : Set PlayerId)
    (hs : srv.authenticated s = true) :
    ((srv.introduction u s).map Prod.snd).foldl seen (some known)
      = some (insert (srv.playerId s) known) := by
  -- An introduction is `player_joined`, with a `player_state` if there is one.
  rcases srv.objs_of_authenticated s hs with ⟨o, ho, _⟩
  rw [introduction, srv.playerId_eq s o ho, ho]
  cases hst : o.lastPlayerState <;> simp only [hst] <;> rfl

theorem foldl_seen_introductions (srv : TcpServer) (u : SessionId) (ids : List SessionId)
    (known : Set PlayerId) (hids : ∀ s ∈ ids, srv.authenticated s = true) :
    ((ids.flatMap (srv.introduction u)).map Prod.snd).foldl seen (some known)
      = some (known ∪ {p | ∃ s ∈ ids, srv.playerId s = p}) := by
  induction ids generalizing known with
  | nil =>
      simp only [List.not_mem_nil, false_and, exists_false, Set.ofPred_false, Set.union_empty,
        List.flatMap_nil, List.map_nil, List.foldl_nil]
  | cons s ids ih =>
      rw [List.flatMap_cons, List.map_append, List.foldl_append,
        srv.foldl_seen_introduction u s known (hids s List.mem_cons_self),
        ih _ (fun t ht => hids t (List.mem_cons_of_mem s ht)), Option.some.injEq]
      ext p
      simp only [Set.mem_union, Set.mem_insert_iff, Set.mem_ofPred_eq, List.mem_cons,
        exists_eq_or_imp]
      constructor
      · rintro ((rfl | h) | h)
        · exact Or.inr (Or.inl rfl)
        · exact Or.inl h
        · exact Or.inr (Or.inr h)
      · rintro (h | rfl | h)
        · exact Or.inl (Or.inr h)
        · exact Or.inl (Or.inl rfl)
        · exact Or.inr h

/-- After the backfill a newcomer knows everyone else. -/
theorem foldl_seen_backfill (srv : TcpServer) (u : SessionId) (known : Set PlayerId) :
    ((srv.backfill u).map Prod.snd).foldl seen (some known) = some (known ∪ srv.others u) := by
  rw [backfill, foldl_seen_introductions srv u _ known
    (fun s hs => (Bool.and_eq_true_iff.mp (List.mem_filter.mp hs).2).2)]
  congr 2
  ext p
  simp only [others, Present, Set.mem_ofPred_eq, List.mem_filter, Bool.and_eq_true,
    decide_eq_true_eq]
  constructor
  · rintro ⟨s, ⟨hs, hne, ha⟩, hp⟩
    exact ⟨s, ⟨hs, ha⟩, hne, hp⟩
  · rintro ⟨s, ⟨hs, ha⟩, hne, hp⟩
    exact ⟨s, ⟨hs, hne, ha⟩, hp⟩

/-- Other sessions than `u` decide whom `u` should know of. -/
theorem others_congr (srv srv' : TcpServer) (u : SessionId) (hs : srv'.sessions = srv.sessions)
    (ha : ∀ s, s ≠ u → srv'.authenticated s = srv.authenticated s)
    (hp : ∀ s, s ≠ u → srv'.playerId s = srv.playerId s) : srv'.others u = srv.others u := by
  ext p
  simp only [others, Present, Set.mem_ofPred_eq, hs]
  constructor
  · rintro ⟨t, ⟨ht, hta⟩, hne, hpt⟩
    exact ⟨t, ⟨ht, (ha t hne).symm.trans hta⟩, hne, (hp t hne).symm.trans hpt⟩
  · rintro ⟨t, ⟨ht, hta⟩, hne, hpt⟩
    exact ⟨t, ⟨ht, (ha t hne).trans hta⟩, hne, (hp t hne).trans hpt⟩

/-- The state in which a newcomer is told of the others. -/
def admitted (srv : TcpServer) (u : SessionId) (clientId : JsValue) (result : AuthResult) :
    TcpServer :=
  ((srv.modify u (fun o => { o with
    authenticated := result.ok, clientId := clientId, playerId := result.playerId,
    displayName := result.displayName })).send u (.authResult result)).modify u
      (fun o => o.transitionTo .authenticated)

section Welcome

variable (srv : TcpServer) (u : SessionId) (clientId : JsValue) (result : AuthResult)

theorem welcome_eq (hok : result.ok = true) : srv.welcome u clientId result
    = ((srv.admitted u clientId result).emit ((srv.admitted u clientId result).backfill u)
      ).broadcastExcept u (.playerJoined result.playerId result.displayName) := by
  simp only [welcome, hok, if_true, admitted]

theorem authenticated_admitted (s : SessionId) (hs : s ≠ u) :
    (srv.admitted u clientId result).authenticated s = srv.authenticated s :=
  (authenticated_modify_of_ne _ u s _ hs).trans (authenticated_modify_of_ne srv u s _ hs)

theorem playerId_admitted (s : SessionId) (hs : s ≠ u) :
    (srv.admitted u clientId result).playerId s = srv.playerId s :=
  (playerId_modify_of_ne _ u s _ hs).trans (playerId_modify_of_ne srv u s _ hs)

/-- The newcomer's own object carries the result. -/
theorem admitted_self (o : Session) (ho : srv.objs u = some o) :
    (srv.admitted u clientId result).authenticated u = result.ok ∧
      (srv.admitted u clientId result).playerId u = result.playerId := by
  have hassigned : (srv.modify u (fun o => { o with
      authenticated := result.ok, clientId := clientId, playerId := result.playerId,
      displayName := result.displayName })).objs u = some { o with
        authenticated := result.ok, clientId := clientId, playerId := result.playerId,
        displayName := result.displayName } := by
    rw [objs_modify, if_pos rfl, ho]
    rfl
  constructor
  · refine (authenticated_modify _ u u _ (fun o => o.authenticated_transitionTo _)).trans ?_
    rw [send, authenticated_emit, authenticated, hassigned]
  · refine (playerId_modify _ u u _ (fun o => o.playerId_transitionTo _)).trans ?_
    rw [send, playerId_emit, playerId, hassigned]

/-- A successful `auth` is one id issued. -/
theorem joined_welcome (o : Session) (ho : srv.objs u = some o) (hok : result.ok = true) :
    Joined srv (srv.welcome u clientId result) u result.playerId := by
  have hauth := srv.authenticated_admitted u clientId result
  have hpid := srv.playerId_admitted u clientId result
  rcases srv.admitted_self u clientId result o ho with ⟨hself, hpself⟩
  -- Nor does it matter how often somebody is said to have joined.
  have hjoined : ∀ known, seen (seen known (.event (.playerJoined result.playerId
      result.displayName))) (.event (.playerJoined result.playerId result.displayName))
        = seen known (.event (.playerJoined result.playerId result.displayName)) := by
    intro known
    cases known with
    | none => rfl
    | some known => simp only [seen, Option.map_some, Set.insert_idem]
  -- Who is told what by the `auth_result` and the backfill.
  have hresult : ∀ s, (srv.admitted u clientId result).presence s
      = if s = u then some ((srv.presence u).getD ∅) else srv.presence s := by
    intro s
    refine (presence_emit _ s [(u, .authResult result)]).trans ?_
    by_cases hs : s = u
    · simp only [hs, List.filter_cons, decide_true, if_true, List.filter_nil, List.map_cons,
        List.map_nil, List.foldl_cons, List.foldl_nil, seen]
      rfl
    · simp only [List.filter_cons, hs, Ne.symm hs, decide_false, Bool.false_eq_true, if_false,
        List.filter_nil, List.map_nil, List.foldl_nil]
      rfl
  rw [srv.welcome_eq u clientId result hok]
  refine ⟨rfl, hself.trans hok, hauth, hpself, hpid, ?_, fun s hs => ?_⟩
  -- The newcomer hears the result and the backfill, and not the broadcast.
  · rw [presence_broadcastExcept _ u _ hjoined, if_neg (fun h => h.2 rfl), presence_emit,
      List.filter_eq_self.mpr (fun call hcall =>
        decide_eq_true (fst_of_mem_backfill _ u call hcall)), hresult, if_pos rfl,
      foldl_seen_backfill,
      others_congr srv (srv.admitted u clientId result) u rfl hauth hpid]
  -- Everyone else hears the broadcast only, and only if they are present.
  · have hpresent : ((srv.admitted u clientId result).emit
        ((srv.admitted u clientId result).backfill u)).Present s ↔ srv.Present s := by
      change s ∈ srv.sessions ∧ (srv.admitted u clientId result).authenticated s = true ↔ _
      rw [hauth s hs]
      exact Iff.rfl
    rw [presence_broadcastExcept _ u _ hjoined, presence_emit,
      List.filter_eq_nil_iff.mpr (fun call hcall hc =>
        hs ((of_decide_eq_true hc).symm.trans (fst_of_mem_backfill _ u call hcall))),
      List.map_nil, List.foldl_nil, hresult, if_neg hs]
    by_cases hp : srv.Present s
    · rw [if_pos ⟨hpresent.mpr hp, hs⟩, if_pos hp]
      rfl
    · rw [if_neg (fun h => hp (hpresent.mp h.1)), if_neg hp]

end Welcome

end TcpServer

/-- How an event changes who sees whom. -/
inductive Effect where
  | removed (ks : List SessionId)
  | joined (u : SessionId) (p : PlayerId)

/-- The effect of one message, from the session it came from. -/
def messageEffect (host : Host) (u : SessionId) (o : Session) (type : MessageType)
    (payload : JsValue) (ambient : Ambient) : Effect :=
  match type with
  | .hello =>
    match isProtocolCompatible host.fmt (payload.field (js "protocolVersion")) with
    | some false => .removed [u]
    | _ => .removed []
  | .auth =>
    if !o.helloReceived then .removed [u]
    else
      match authenticate host.fmt (payload.field (js "clientId"))
        (payload.field (js "displayName")) ambient.playerUuid ambient.sessionUuid with
      | none => .removed []
      | some result => .joined u result.playerId
  | .resourceManifestRequest | .playerState | .resourcesReady =>
    if !o.authenticated then .removed [u] else .removed []
  | .disconnect =>
    if (JsValue.toText host.fmt (JsValue.orElse (payload.field (js "reason"))
      (.str (js "client requested disconnect")))).isSome then .removed [u] else .removed []
  | .heartbeat | .unknown _ => .removed []

/-- The effect of an event, from the state before it. -/
def effect (host : Host) (srv : TcpServer) (e : Event) : Effect :=
  match e with
  | .connect _ _ => .removed []
  | .message u type payload ambient =>
    match srv.objs u with
    | none => .removed []
    | some o => messageEffect host u o type (JsValue.orElse payload (.obj [])) ambient
  | .protocolError _ => .removed []
  | .close u => .removed [u]
  | .watchdog now => .removed (srv.sessions.filter (TcpServer.expired host now srv))
  | .shutdown => .removed srv.sessions

/-- Two states are related by an effect. -/
def Effect.Relates (c : Effect) (srv srv' : TcpServer) : Prop :=
  match c with
  | .removed ks => TcpServer.Removed srv srv' ks
  | .joined u p => TcpServer.Joined srv srv' u p

namespace TcpServer

theorem objs_onConnection (srv : TcpServer) (u s : SessionId) (now : Int) :
    (srv.onConnection u now).objs s = if s = u then some (Session.new now) else srv.objs s :=
  Function.update_apply srv.objs u _ s

theorem removed_onConnection (srv : TcpServer) (u : SessionId) (now : Int)
    (hu : srv.objs u = none) : Removed srv (srv.onConnection u now) [] := by
  have hauth : ∀ s, (srv.onConnection u now).authenticated s = srv.authenticated s := by
    intro s
    rw [authenticated, authenticated, objs_onConnection]
    by_cases hs : s = u
    · rw [if_pos hs, hs, hu]
      rfl
    · rw [if_neg hs]
  have hpid : ∀ s, (srv.onConnection u now).playerId s = srv.playerId s := by
    intro s
    rw [playerId, playerId, objs_onConnection]
    by_cases hs : s = u
    · rw [if_pos hs, hs, hu]
      rfl
    · rw [if_neg hs]
  have hpres : ∀ s, (srv.onConnection u now).Present s ↔ srv.Present s := by
    intro s
    rw [Present, Present, hauth]
    constructor
    · rintro ⟨hs, ha⟩
      refine ⟨(List.mem_append.mp hs).resolve_right (fun hsu => ?_), ha⟩
      -- The new session is in the map but not authenticated.
      rw [List.mem_singleton.mp hsu, authenticated, hu] at ha
      exact Bool.noConfusion ha
    · exact fun h => ⟨List.mem_append_left _ h.1, h.2⟩
  have hr := Removed.refl srv
  exact ⟨hauth, hpid, fun s => (hpres s).trans (hr.present s),
    fun s hs => hr.told s ((hpres s).mp hs), hr.unheard⟩

theorem removed_broadcast (srv : TcpServer) (e : ServerEvent)
    (he : isNeutral (.event e) = true) : Removed srv (srv.broadcast e) [] := by
  refine srv.removed_emit _ (fun call hcall => ?_)
  rcases List.mem_map.mp hcall with ⟨s, _, rfl⟩
  exact he

theorem removed_broadcastExcept (srv : TcpServer) (u : SessionId) (e : ServerEvent)
    (he : isNeutral (.event e) = true) : Removed srv (srv.broadcastExcept u e) [] := by
  refine srv.removed_emit _ (fun call hcall => ?_)
  rcases List.mem_map.mp hcall with ⟨s, _, rfl⟩
  exact he

section Handlers

variable (srv : TcpServer) (host : Host) (u : SessionId) (o : Session) (payload : JsValue)
  (ambient : Ambient)

theorem relates_onHello : (messageEffect host u o .hello payload ambient).Relates srv
    (srv.onHello host u payload) := by
  have hset := srv.removed_modify u (fun o => { o with
    helloReceived := true, clientProtocolVersion := payload.field (js "protocolVersion") })
    (fun _ => rfl) (fun _ => rfl)
  simp only [messageEffect, onHello, isProtocolCompatible]
  cases JsValue.textOf host.fmt (payload.field (js "protocolVersion")) with
  -- A version without a text throws after the fields have been set.
  | none => exact hset
  | some text =>
      rw [Option.map_some]
      cases decide (protocolMajor text = protocolMajor protocolVersion) with
      | true =>
          exact (hset.trans (removed_send _ u _ rfl)).trans (removed_modify _ u _
            (fun o => o.authenticated_transitionTo _) (fun o => o.playerId_transitionTo _))
      | false =>
          exact (hset.trans (removed_send _ u _ rfl)).trans
            (removed_disconnectSession_str _ host u _)

theorem relates_onAuth (ho : srv.objs u = some o) :
    (messageEffect host u o .auth payload ambient).Relates srv
      (srv.onAuth host u o payload ambient) := by
  simp only [messageEffect, onAuth]
  by_cases hh : (!o.helloReceived) = true
  · rw [if_pos hh, if_pos hh]
    exact srv.removed_disconnectSession_str host u _
  · rw [if_neg hh, if_neg hh]
    cases hres : authenticate host.fmt (payload.field (js "clientId"))
      (payload.field (js "displayName")) ambient.playerUuid ambient.sessionUuid with
    -- `authenticate` throws, and nothing has happened yet.
    | none => exact Removed.refl srv
    | some result =>
        exact srv.joined_welcome u _ result o ho
          (ok_of_authenticate host.fmt _ _ _ _ result hres)

theorem relates_onHeartbeat : (messageEffect host u o .heartbeat payload ambient).Relates srv
    (srv.onHeartbeat u ambient) := by
  have hset := srv.removed_modify u (fun o => { o with lastHeartbeatAt := ambient.now })
    (fun _ => rfl) (fun _ => rfl)
  exact hset.trans (removed_send _ u _ rfl)

theorem relates_onResourceManifestRequest :
    (messageEffect host u o .resourceManifestRequest payload ambient).Relates srv
      (srv.onResourceManifestRequest host u o ambient) := by
  simp only [messageEffect, onResourceManifestRequest]
  split
  · exact srv.removed_disconnectSession_str host u _
  · exact srv.removed_send u _ rfl

theorem relates_onPlayerState : (messageEffect host u o .playerState payload ambient).Relates srv
    (srv.onPlayerState host u o payload) := by
  simp only [messageEffect, onPlayerState]
  split
  · exact srv.removed_disconnectSession_str host u _
  · refine (srv.removed_modify u (fun o => { o with lastPlayerState := some _ })
      (fun _ => rfl) (fun _ => rfl)).trans (removed_broadcastExcept _ u _ rfl)

theorem relates_onResourcesReady :
    (messageEffect host u o .resourcesReady payload ambient).Relates srv
      (srv.onResourcesReady host u o payload) := by
  have hset := srv.removed_modify u (fun o => { o with resourcesReady := true })
    (fun _ => rfl) (fun _ => rfl)
  simp only [messageEffect, onResourcesReady]
  -- The guard on `authenticated` comes first in the source.
  split
  · exact srv.removed_disconnectSession_str host u _
  · split
    · exact (hset.trans (removed_send _ u _ rfl)).trans (removed_broadcast _ _ rfl)
    · exact hset

theorem relates_onDisconnect : (messageEffect host u o .disconnect payload ambient).Relates srv
    (srv.onDisconnect host u payload) := by
  have hr := srv.removed_disconnectSession host u (JsValue.orElse (payload.field (js "reason"))
    (.str (js "client requested disconnect")))
  simp only [messageEffect, onDisconnect]
  split at hr <;> rename_i h <;> simp only [h, if_true] <;> exact hr

/-- Every message is its effect. -/
theorem relates_onMessage (type : MessageType) (ho : srv.objs u = some o) :
    (messageEffect host u o type payload ambient).Relates srv
      (srv.onMessage host u o type payload ambient) := by
  cases type with
  | hello => exact relates_onHello srv host u o payload ambient
  | auth => exact relates_onAuth srv host u o payload ambient ho
  | heartbeat => exact relates_onHeartbeat srv host u o payload ambient
  | resourceManifestRequest =>
      exact relates_onResourceManifestRequest srv host u o payload ambient
  | playerState => exact relates_onPlayerState srv host u o payload ambient
  | resourcesReady => exact relates_onResourcesReady srv host u o payload ambient
  | disconnect => exact relates_onDisconnect srv host u o payload ambient
  | unknown type => exact Removed.refl srv

end Handlers

end TcpServer

/-- Every step is its effect. -/
theorem step_effect (host : Host) (srv : TcpServer) (e : Event) :
    (effect host srv e).Relates srv (step host srv e) := by
  cases e with
  | connect u now =>
      simp only [effect, step]
      cases ho : srv.objs u with
      | none => exact srv.removed_onConnection u now ho
      -- Ids are not used twice.
      | some o => exact TcpServer.Removed.refl srv
  | message u type payload ambient =>
      simp only [effect, step]
      cases ho : srv.objs u with
      | none => exact TcpServer.Removed.refl srv
      | some o => exact srv.relates_onMessage host u o _ ambient type ho
  | protocolError u => exact TcpServer.Removed.refl srv
  | close u => exact srv.removed_disconnectSession_str host u _
  | watchdog now => exact TcpServer.removed_watchdog host now srv.sessions srv
  | shutdown => exact TcpServer.removed_shutdown host _ srv.sessions srv

end Server

end MzzPlork
