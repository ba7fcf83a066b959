import MzzPlork.Theory.Mirror
import MzzPlork.Theory.Readable

/-!
# From One Client to Another

A player's state on its way from the client that moves it, through the server,
to the clients that show it.

The line of `SendPlayerState` is read by the framer as the state that was sent
(`delivered_stateLine`), the server keeps of it what the clients read of it
(`networkOf_reported`), and what it keeps is what the others have an entity
for. So when nothing is on its way any more, a client has the local player of
every other client where that client has it (`handover_run`).

Coordinates are integers below 2^53 here. What becomes of others on the way is
a matter of the client's writer.

## Main definitions

* `Sendable`: The states that are sent as they are.
* `Settled`: The local player is where the last state that was sent has it.

## Theorems

* `clientOf_served`: A value that goes to the server and back.
* `networkOf_reported`: A state that is reported and read again.
* `settled_calls`: What a client has sent last.
* `handover_run`: Two clients at the end of a run.
-/

namespace MzzPlork

namespace Server

open Entries Sync EventChannel JsonText

section Texts

/-- Characters are found again in their code units. -/
theorem chars_textUnits (cs : List Char) : Wire.chars (textUnits cs) = cs := by
  induction cs with
  | nil => rfl
  | cons c cs ih =>
      unfold textUnits at ih ⊢
      rw [List.flatMap_cons]
      rcases Wire.unitsOf_cases c with ⟨u, hu, _, hplain, hc⟩ | ⟨_, u, u', hu, hpair, hc⟩
      · rw [hu, List.singleton_append, Wire.chars_unit u _ hplain, ih, hc]
      · rw [hu, List.cons_append, List.singleton_append, Wire.chars_pair u u' _ hpair, ih, hc]

theorem utf8_units (t : Bytes) (ht : IsUtf8 t) : Wire.utf8 (Wire.units t) = t := by
  rcases ht with ⟨cs, rfl⟩
  rw [Wire.units_textBytes]
  unfold Wire.utf8
  rw [chars_textUnits]
  rfl

/-- A value that goes to the server and back. -/
theorem clientOf_served (v : ClientValue) (hv : Wire.Proper v) :
    Wire.clientOf (Wire.served v) = v := by
  unfold Wire.clientOf Wire.served
  induction v using Json.tree_induction with
  | null => rfl
  | bool b => rfl
  | num q => rfl
  | str s => exact congrArg Json.str (utf8_units s hv)
  | arr items ih =>
      rw [Wire.Proper, Json.everywhere_arr] at hv
      rw [Json.transform_arr, Json.transform_arr, List.map_map]
      refine congrArg Json.arr (Eq.trans (List.map_congr_left (fun v hm => ?_)) (List.map_id items))
      exact ih v hm (hv v hm)
  | obj fields ih =>
      rw [Wire.Proper, Json.everywhere_obj] at hv
      rw [Json.transform_obj, Json.transform_obj, id, List.map_map]
      have hsame : fields.map ((fun e => (Wire.utf8 e.1, Json.transform Wire.utf8 Wire.rational
          (setAll []) e.2)) ∘ fun e => (Wire.units e.1, Json.transform Wire.units
          JsNumber.finite id e.2)) = fields := by
        refine Eq.trans (List.map_congr_left (fun e he => ?_)) (List.map_id fields)
        exact Prod.ext (utf8_units e.1 (hv.2 e he).1) (ih e he (hv.2 e he).2)
      rw [hsame, setAll_of_isMap fields hv.1]

end Texts

section States

/-- The states that are sent as they are: integers, and texts that need no
    escape the client lacks. -/
structure Sendable (st : NetworkState) : Prop where
  proper : Wire.Proper (.obj (toJson st))
  writable : (Json.obj (toJson st)).Everywhere Wire.Writable (fun _ => True) (fun _ => True)

variable (toNumber : JsString → JsNumber) (syntaxErrorText : JsString → JsString)

/-- The framer reads the line of a state as the state. -/
theorem delivered_stateLine (hN : Wire.ReadsIntegers toNumber) (st : NetworkState)
    (h : Sendable st) : Wire.Delivered toNumber syntaxErrorText (Wire.stateLine st)
      (.message (js "player_state") (Wire.served (.obj (toJson st)))) := by
  have hname := Wire.units_ascii "player_state" rfl
  have hreadable := Wire.readable_of_writable toNumber syntaxErrorText hN _ h.proper h.writable
  have hdelivered := hreadable.message (toJson st) rfl (ascii "player_state")
    (Wire.isName_ascii "player_state" rfl rfl)
  rw [hname] at hdelivered
  exact hdelivered

/-- A line is read in one way. -/
theorem delivered_unique (line : Bytes) (e e' : Wire.FramerEvent)
    (h : Wire.Delivered toNumber syntaxErrorText line e)
    (h' : Wire.Delivered toNumber syntaxErrorText line e') : e = e' := by
  rcases h with ⟨s, hs, hall⟩
  rcases h' with ⟨s', hs', hall'⟩
  have heq : s = s' := Option.some.inj (hs.symm.trans hs')
  have hone := hall ⟨[], []⟩ [s] rfl (List.append_nil s)
  rw [hall' ⟨[], []⟩ [s] rfl ((List.append_nil s).trans heq)] at hone
  exact (List.singleton_inj.mp (congrArg Wire.MessageFramer.emitted hone)).symm

/-- The fields of a state as the server has them. -/
theorem served_toJson (st : NetworkState) : Wire.served (.obj (toJson st)) = .obj
    [(js "basicState", Wire.served (.obj st.basicState)),
      (js "position", Wire.served (.obj (vectorToJson st.position))),
      (js "rotation", Wire.served (.obj (rotationToJson st.rotation))),
      (js "timestamp", .num (.finite st.timestampMs))] := by
  have hkey : ∀ k : Bytes, k.all (fun b => b.toNat < 128) = true →
      Wire.units k = JsonParse.wide k := fun k hk =>
    Wire.units_eq _ _ (JsonParse.coded_ascii k hk)
  unfold Wire.served
  rw [Json.transform_obj, id]
  change Json.obj [(Wire.units (ascii "basicState"), _), (Wire.units (ascii "position"), _),
    (Wire.units (ascii "rotation"), _), (Wire.units (ascii "timestamp"), _)] = _
  rw [hkey (ascii "basicState") rfl, hkey (ascii "position") rfl, hkey (ascii "rotation") rfl,
    hkey (ascii "timestamp") rfl]
  rfl

theorem fromJson_toJson (st : NetworkState) : fromJson (toJson st) = st := by
  have hfields : fromJson (toJson st) = { st with timestampMs := truncate st.timestampMs } := rfl
  rw [hfields, Wire.truncate_intCast]

/-- The clients read the state that was reported. -/
theorem networkOf_reported (st : NetworkState) (h : Sendable st) :
    networkOf (TcpServer.reported (Wire.served (.obj (toJson st)))) = st := by
  have hback : ∀ e ∈ [(ascii "basicState", Json.obj st.basicState),
      (ascii "position", .obj (vectorToJson st.position)),
      (ascii "rotation", .obj (rotationToJson st.rotation)),
      (ascii "timestamp", .num st.timestampMs)], Wire.clientOf (Wire.served e.2) = e.2 :=
    fun e he => clientOf_served e.2 (((Json.everywhere_obj _ _ _ _).mp h.proper).2 e he).2
  simp only [List.forall_mem_cons] at hback
  rcases hback with ⟨hbasic, hposition, hrotation, -⟩
  have hfields : (TcpServer.reported (Wire.served (.obj (toJson st)))).fields
      = [(js "position", Wire.served (.obj (vectorToJson st.position))),
        (js "rotation", Wire.served (.obj (rotationToJson st.rotation))),
        (js "basicState", Wire.served (.obj st.basicState)),
        (js "timestamp", .num (.finite st.timestampMs))] := by
    rw [served_toJson]
    rfl
  unfold networkOf
  rw [hfields, Wire.clientOf, Json.transform_obj]
  change fromJson (setAll [] [(ascii "position",
      Wire.clientOf (Wire.served (.obj (vectorToJson st.position)))),
    (ascii "rotation", Wire.clientOf (Wire.served (.obj (rotationToJson st.rotation)))),
    (ascii "basicState", Wire.clientOf (Wire.served (.obj st.basicState))),
    (ascii "timestamp", .num st.timestampMs)]) = st
  rw [hposition, hrotation, hbasic]
  exact fromJson_toJson st

end States

section Sender

/-- Integers of a magnitude below 2^53. -/
def Vector3.Safe (v : Vector3) : Prop := IsSafeInteger v.x ∧ IsSafeInteger v.y ∧ IsSafeInteger v.z

def Rotation3.Safe (a : Rotation3) : Prop :=
  IsSafeInteger a.pitch ∧ IsSafeInteger a.yaw ∧ IsSafeInteger a.roll

/-- The game moves its player by such numbers, and the clock shows one. -/
def ClientCall.Safe (c : ClientCall) : Prop :=
  match c with
  | .message _ _ => True
  | .setLocalPosition position => Vector3.Safe position
  | .setLocalRotation rotation => Rotation3.Safe rotation
  | .tick nowMs => nowMs.natAbs < 2 ^ 53

theorem sendable_of_safe (st : NetworkState) (hb : st.basicState = [])
    (hp : Vector3.Safe st.position) (hr : Rotation3.Safe st.rotation)
    (ht : st.timestampMs.natAbs < 2 ^ 53) : Sendable st := by
  have hkey : ∀ k : Bytes, k.all (fun b => b.toNat < 128) = true → IsUtf8 k := fun k hk =>
    (JsonParse.coded_ascii k hk).isUtf8
  have htime : IsSafeInteger (st.timestampMs : Rat) := ⟨Rat.den_intCast _, ht⟩
  have hfields : toJson st = [(ascii "basicState", .obj st.basicState),
      (ascii "position", .obj [(ascii "x", .num st.position.x), (ascii "y", .num st.position.y),
        (ascii "z", .num st.position.z)]),
      (ascii "rotation", .obj [(ascii "pitch", .num st.rotation.pitch),
        (ascii "roll", .num st.rotation.roll), (ascii "yaw", .num st.rotation.yaw)]),
      (ascii "timestamp", .num st.timestampMs)] := rfl
  rw [hb] at hfields
  constructor
  · rw [hfields]
    simp only [Wire.Proper, Json.Everywhere, Json.EverywhereFields, List.map_cons, List.map_nil,
      hp.1, hp.2.1, hp.2.2, hr.1, hr.2.1, hr.2.2, htime, and_true, true_and]
    exact ⟨by decide, hkey _ rfl, by decide, hkey _ rfl, ⟨by decide, hkey _ rfl, hkey _ rfl,
      hkey _ rfl⟩, hkey _ rfl, ⟨by decide, hkey _ rfl, hkey _ rfl, hkey _ rfl⟩, hkey _ rfl⟩
  · rw [hfields]
    simp only [Json.Everywhere, Json.EverywhereFields, and_true, true_and]
    exact ⟨Wire.writable_of_all _ rfl, Wire.writable_of_all _ rfl, ⟨Wire.writable_of_all _ rfl,
      Wire.writable_of_all _ rfl, Wire.writable_of_all _ rfl⟩, Wire.writable_of_all _ rfl,
      ⟨Wire.writable_of_all _ rfl, Wire.writable_of_all _ rfl, Wire.writable_of_all _ rfl⟩,
      Wire.writable_of_all _ rfl⟩

/-- The local player, and what has been sent of it. Nothing has changed since
    the last state was sent, unless the flag is set. -/
structure Settled (own : Bytes) (r : Replication) : Prop where
  localId : r.localPlayerId = own
  player : ∃ e, r.entities own = some e ∧ e.basicState = [] ∧ Vector3.Safe e.position ∧
    Rotation3.Safe e.rotation ∧
    (r.localStateDirty = false → ∃ pre nowMs, r.sent = pre ++ [Replication.snapshot e nowMs])
  sendable : ∀ st ∈ r.sent, Sendable st

theorem settled_onMessage (own : Bytes) (r : Replication) (m : ServerMessage) (nowMs : Int)
    (hm : Reaches own m) (h : Settled own r) :
    Settled own (r.onMessage (callOf m.wire) nowMs) := by
  cases hw : m.update with
  | none =>
      rw [onMessage_of_none r m nowMs hm.plain hw]
      exact h
  | some w =>
      rcases hm.key w hw with ⟨_, hne, hlocal⟩
      have hf := follows_onMessage r m nowMs hm.plain w hw hne
        (fun heq => hlocal (heq.trans h.localId))
      have hself := hf.self
      rw [h.localId] at hself
      refine ⟨hf.localId.trans h.localId, ?_, ?_⟩
      · rw [hself, hf.dirty, hf.sent]
        exact h.player
      · rw [hf.sent]
        exact h.sendable

theorem settled_clientStep (own : Bytes) (r : Replication) (c : ClientCall)
    (hc : c.received = none) (hsafe : ClientCall.Safe c) (h : Settled own r) :
    Settled own (r.clientStep c) := by
  rcases h with ⟨rfl, ⟨e, he, hb, hp, hr, hsent⟩, hsendable⟩
  have hplayer : r.getPlayer r.localPlayerId = some e := (getPlayer_eq r _).trans he
  cases c with
  | message m nowMs => exact absurd hc (Option.some_ne_none m)
  | setLocalPosition position =>
      change Settled _ (r.setLocalPosition position)
      unfold Replication.setLocalPosition
      simp only [hplayer]
      refine ⟨rfl, ⟨{ e with position := position }, Function.update_self _ _ _, hb, hsafe, hr,
        fun hd => Bool.noConfusion hd⟩, hsendable⟩
  | setLocalRotation rotation =>
      change Settled _ (r.setLocalRotation rotation)
      unfold Replication.setLocalRotation
      simp only [hplayer]
      refine ⟨rfl, ⟨{ e with rotation := rotation }, Function.update_self _ _ _, hb, hp, hsafe,
        fun hd => Bool.noConfusion hd⟩, hsendable⟩
  | tick nowMs =>
      change Settled _ (r.tick nowMs)
      unfold Replication.tick
      split
      · exact ⟨rfl, ⟨e, he, hb, hp, hr, hsent⟩, hsendable⟩
      · split
        · exact ⟨rfl, ⟨e, he, hb, hp, hr, hsent⟩, hsendable⟩
        · simp only [hplayer]
          refine ⟨rfl, ⟨e, he, hb, hp, hr, fun _ => ⟨r.sent, nowMs, rfl⟩⟩, fun st hst => ?_⟩
          rcases List.mem_append.mp hst with hst | hst
          · exact hsendable st hst
          · rw [List.mem_singleton.mp hst]
            exact sendable_of_safe _ hb hp hr hsafe

/-- What has been sent last is how the local player is, unless it has moved since. -/
theorem settled_clientAfter (own name : Bytes) (syncIntervalMs interpolationDurationMs : Int)
    (calls : List ClientCall) (ms : List ServerMessage)
    (hms : calls.filterMap ClientCall.received = (ms.map ServerMessage.wire).map callOf)
    (hreach : ∀ m ∈ ms, Reaches own m) (hsafe : ∀ c ∈ calls, ClientCall.Safe c) :
    Settled own (clientAfter own name syncIntervalMs interpolationDurationMs calls) := by
  refine calls_induction (fun _ r => Settled own r) calls ms _ hms ?_
    (fun c hcalls hc _ r h => settled_clientStep own r c hc (hsafe c hcalls) h)
    (fun m hm nowMs _ r h => settled_onMessage own r m nowMs (hreach m hm) h)
  have hzero : IsSafeInteger 0 := ⟨rfl, by decide⟩
  exact ⟨rfl, ⟨_, Function.update_self _ _ _, rfl, ⟨hzero, hzero, hzero⟩, ⟨hzero, hzero, hzero⟩,
    fun hd => Bool.noConfusion hd⟩, fun _ hst => absurd hst List.not_mem_nil⟩

end Sender

section Runs

variable (toNumber : JsString → JsNumber) (syntaxErrorText : JsString → JsString)

/-- The last report of a session is what the framer has made of the last line its
    client sent. -/
def ReportedLast (host : Host) (es : List Event) (a : SessionId) (client : Replication) : Prop :=
  ∃ pre ambient event post st, es = pre ++ Event.ofFramer a ambient event :: post ∧
    (pre.foldl (step host) TcpServer.init).authenticated a = true ∧
    (∀ payload ambient', .message a .playerState payload ambient' ∉ post) ∧
    client.sent.getLast? = some st ∧
    Wire.Delivered toNumber syntaxErrorText (Wire.stateLine st) event

theorem entityOf_position (p name : JsValue) (st : PlayerState) :
    (entityOf p ⟨name, some st⟩).position = (networkOf st).position := rfl

theorem entityOf_rotation (p name : JsValue) (st : PlayerState) :
    (entityOf p ⟨name, some st⟩).rotation = (networkOf st).rotation := rfl

theorem entityOf_basicState (p name : JsValue) (st : PlayerState) :
    (entityOf p ⟨name, some st⟩).basicState = (networkOf st).basicState := rfl

theorem ofText_playerState : MessageType.ofText (js "player_state") = .playerState := by
  unfold MessageType.ofText
  rw [if_neg (by decide), if_neg (by decide), if_neg (by decide), if_neg (by decide), if_pos rfl]

theorem lastReport_of_reportedLast (hN : Wire.ReadsIntegers toNumber) (host : Host)
    (es : List Event) (a : SessionId) (client : Replication) (st : NetworkState)
    (hst : client.sent.getLast? = some st) (hsend : Sendable st)
    (h : ReportedLast toNumber syntaxErrorText host es a client) :
    LastReport host es a (TcpServer.reported (Wire.served (.obj (toJson st)))) := by
  rcases h with ⟨pre, ambient, event, post, st', rfl, hauth, hpost, hst', hdelivered⟩
  rw [hst] at hst'
  rw [← Option.some.inj hst'] at hdelivered
  rw [delivered_unique toNumber syntaxErrorText _ _ _ hdelivered
    (delivered_stateLine toNumber syntaxErrorText hN st hsend), Event.ofFramer,
    ofText_playerState]
  refine ⟨pre, _, ambient, post, rfl, hauth, hpost, ?_⟩
  have hobject : ∀ fields : List (JsString × JsValue),
      JsValue.orElse (some (.obj fields)) (.obj []) = .obj fields := fun _ => rfl
  rw [served_toJson, hobject]

/-- When everything has arrived and a client has sent how its player is, every
    other client has that player where it is. The conditions are those of
    `mirror_run`, for both clients: players named by texts that are not empty,
    well-formed messages with integers below 2^53, and a client that is
    subscribed before its first message. -/
theorem handover_run (hN : Wire.ReadsIntegers toNumber) (host : Host) (es : List Event)
    (srv : TcpServer) (hrun : es.foldl (step host) TcpServer.init = srv) (h : FairRun host es)
    (hnamed : ∀ e ∈ es, e.Named) (a b : SessionId) (ha : srv.Present a) (hb : srv.Present b)
    (hab : a ≠ b) (callsA callsB : List ClientCall) (hreceivedA : Received host.fmt srv a callsA)
    (hreceivedB : Received host.fmt srv b callsB) (hsafe : ∀ c ∈ callsA, ClientCall.Safe c)
    (nameA nameB : Bytes) (syncA interpolationA syncB interpolationB : Int)
    (hflushed : (clientAfter (wireId (srv.playerId a)) nameA syncA interpolationA
      callsA).localStateDirty = false)
    (hlast : ReportedLast toNumber syntaxErrorText host es a
      (clientAfter (wireId (srv.playerId a)) nameA syncA interpolationA callsA)) :
    ∃ ea eb,
      (clientAfter (wireId (srv.playerId a)) nameA syncA interpolationA callsA).entities
        (wireId (srv.playerId a)) = some ea ∧
      (clientAfter (wireId (srv.playerId b)) nameB syncB interpolationB callsB).entities
        (wireId (srv.playerId a)) = some eb ∧
      eb.position = ea.position ∧ eb.rotation = ea.rotation ∧ eb.basicState = ea.basicState := by
  have hreachA := (pictures_run host es a srv hrun h hnamed ha callsA hreceivedA nameA syncA
    interpolationA).1
  have hsettled := settled_clientAfter _ nameA syncA interpolationA callsA _ hreceivedA.calls
    hreachA hsafe
  rcases hsettled.player with ⟨ea, hea, -, -, -, hsent⟩
  -- The flag is clear, so what was sent last is what the player is like now.
  rcases hsent hflushed with ⟨pre, nowMs, hsent⟩
  have hlastSent : (clientAfter (wireId (srv.playerId a)) nameA syncA interpolationA
      callsA).sent.getLast? = some (Replication.snapshot ea nowMs) := by
    rw [hsent, List.getLast?_concat]
  have hsendable := hsettled.sendable (Replication.snapshot ea nowMs)
    (by rw [hsent]; exact List.mem_append_right _ List.mem_cons_self)
  -- The server has that state of the player, as the wire carries it.
  have hreport := lastState_of_lastReport host es a _
    (lastReport_of_reportedLast toNumber syntaxErrorText hN host es a _ _ hlastSent hsendable hlast)
  rw [hrun] at hreport
  -- And the other client has what the server has.
  have heb := (entity_run host es b srv hrun h hnamed hb callsB hreceivedB nameB syncB
    interpolationB a ha hab).2
  rw [hreport] at heb
  have hnetwork := networkOf_reported _ hsendable
  -- Whole numbers come through the wire unchanged.
  refine ⟨ea, _, hea, heb, ?_, ?_, ?_⟩
  · rw [entityOf_position, hnetwork, Replication.snapshot]
  · rw [entityOf_rotation, hnetwork, Replication.snapshot]
  · rw [entityOf_basicState, hnetwork, Replication.snapshot]

end Runs

section Mover

/-- Where a client has moved its player. -/
def movedState : NetworkState := ⟨⟨5, 6, 7⟩, Rotation3.zero, [], 1000⟩

theorem served_movedState : Wire.served (.obj (toJson movedState)) = movedPayload := by
  have hkey : ∀ k : Bytes, k.all (fun b => b.toNat < 128) = true →
      Wire.units k = JsonParse.wide k := fun k hk =>
    Wire.units_eq _ _ (JsonParse.coded_ascii k hk)
  rw [served_toJson]
  unfold Wire.served
  rw [Json.transform_obj, Json.transform_obj, Json.transform_obj, id, id, id]
  change Json.obj [_, (_, Json.obj [(Wire.units (ascii "x"), _), (Wire.units (ascii "y"), _),
    (Wire.units (ascii "z"), _)]), (_, Json.obj [(Wire.units (ascii "pitch"), _),
      (Wire.units (ascii "roll"), _), (Wire.units (ascii "yaw"), _)]), _] = _
  rw [hkey (ascii "x") rfl, hkey (ascii "y") rfl, hkey (ascii "z") rfl, hkey (ascii "pitch") rfl,
    hkey (ascii "roll") rfl, hkey (ascii "yaw") rfl]
  rfl

/-- What the client does that moves. -/
def moverCalls : List ClientCall := .setLocalPosition ⟨5, 6, 7⟩ :: .tick 1000 :: piece (js "s1")

/-- That client. -/
def mover : Replication := clientAfter (ascii "aaaaaaaa") [] 100 100 moverCalls

theorem getLast_mover : mover.sent.getLast? = some movedState := by
  have hfields : mover.sent.getLast?.map (fun st => (st.position, st.rotation,
      st.basicState.length, st.timestampMs)) = some (⟨5, 6, 7⟩, Rotation3.zero, 0, 1000) := by
    decide +kernel
  rcases Option.map_eq_some_iff.mp hfields with ⟨⟨position, rotation, basicState, time⟩, hst, heq⟩
  rw [hst]
  cases basicState with
  | nil =>
      cases heq
      rfl
  | cons _ _ =>
      have hlength := (Prod.mk.inj (Prod.mk.inj (Prod.mk.inj heq).2).2).1
      exact absurd hlength (Nat.succ_ne_zero _)

theorem reportedLast_mover : ReportedLast Wire.decimal (fun _ => []) (Host.shipped (fun _ => []))
    moverRun (js "s1") mover := by
  have hzero : IsSafeInteger 0 := ⟨rfl, by decide⟩
  have hsend : Sendable movedState := sendable_of_safe movedState rfl
    ⟨⟨rfl, by decide⟩, ⟨rfl, by decide⟩, ⟨rfl, by decide⟩⟩ ⟨hzero, hzero, hzero⟩ (by decide)
  have hdelivered := delivered_stateLine Wire.decimal (fun _ => []) Wire.readsIntegers_decimal
    movedState hsend
  rw [served_movedState] at hdelivered
  refine ⟨arrive (js "s1") (js "aaaaaaaa"), ⟨0, [], [], []⟩, _, arrive (js "s2") (js "bbbbbbbb"),
    movedState, ?_, by decide, fun payload ambient hmem => ?_, getLast_mover, hdelivered⟩
  · rw [Event.ofFramer, ofText_playerState]
    rfl
  · simp only [arrive, List.mem_cons, Event.message.injEq, reduceCtorEq, false_and, and_false,
      List.not_mem_nil, or_self] at hmem

theorem received_mover : Received (fun _ => []) afterMover (js "s1") moverCalls :=
  (received_first.cons (.tick 1000) rfl).cons (.setLocalPosition ⟨5, 6, 7⟩) rfl

theorem safe_moverCalls : ∀ c ∈ moverCalls, ClientCall.Safe c := by
  intro c hc
  unfold moverCalls piece at hc
  rcases List.mem_cons.mp hc with rfl | hc
  · exact ⟨⟨rfl, by decide⟩, ⟨rfl, by decide⟩, ⟨rfl, by decide⟩⟩
  · rcases List.mem_cons.mp hc with rfl | hc
    · exact (show (1000 : Int).natAbs < 2 ^ 53 by decide)
    · rcases List.mem_map.mp hc with ⟨m, _, rfl⟩
      trivial

/-- The client that arrives has the one that has moved where that one is. -/
theorem handover_run_mover : ∃ ea eb, mover.entities (ascii "aaaaaaaa") = some ea ∧
    (clientAfter (ascii "bbbbbbbb") [] 100 100 (piece (js "s2"))).entities (ascii "aaaaaaaa")
      = some eb ∧
    eb.position = ea.position ∧ eb.rotation = ea.rotation ∧ eb.basicState = ea.basicState := by
  have hfirst : wireId (afterMover.playerId (js "s1")) = ascii "aaaaaaaa" := by decide
  have hsecond : wireId (afterMover.playerId (js "s2")) = ascii "bbbbbbbb" := by decide
  have hboth := handover_run Wire.decimal (fun _ => []) Wire.readsIntegers_decimal
    (Host.shipped (fun _ => [])) moverRun afterMover rfl fairRun_mover named_moverRun (js "s1")
    (js "s2") (by decide) (by decide) (by decide) moverCalls (piece (js "s2")) received_mover
    received_second safe_moverCalls [] [] 100 100 100 100
  have hmover : clientAfter (ascii "aaaaaaaa") [] 100 100 moverCalls = mover := rfl
  rw [hfirst, hsecond, hmover] at hboth
  exact hboth (show mover.localStateDirty = false by decide +kernel) reportedLast_mover

end Mover

end Server

end MzzPlork
