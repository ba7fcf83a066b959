import MzzPlork.Core.NetworkState
import MzzPlork.Theory.Framing

/-!
# A Player's State at the Other Clients

The state of a player crosses the wire twice: it is written by its own client,
relayed by the server, and written and parsed once more inside the connection
of the client that receives it. The relay keeps values; the client's writer
keeps those numbers that are integers of the range of `long long` or have six
significant digits at most. So the other client obtains the state that was
sent exactly when all its numbers are of this kind.

## Main definitions

* `relayed`: The event the server makes of a state.
* `Preserves`: What is assumed of the server.
* `obtained`: The state the other client obtains.
* `arrived`: That state, computed from the one that was sent.
* `Faithful`: The states that arrive unchanged.
* `stateEvent`: What the server sends, for a state of integers.
* `Fidelity`: Every state arrives unchanged.

## Theorems

* `spells_sendLine`: What a sent line stands for.
* `obtained_eq`: What is obtained.
* `obtained_iff_faithful`: When it is what was sent.
* `not_fidelity_fractional`: A state that is not.
-/

namespace MzzPlork

namespace Wire

open JsonText Sync

section Sending

/-- An envelope as the parser has it. -/
def envelope (type : Bytes) (payload : ClientValue) : ClientValue :=
  .obj [(ascii "payload", payload), (ascii "type", .str type)]

/-- The line of `SendPlayerState`. -/
def stateLine (state : NetworkState) : Bytes :=
  sendLine (ascii "player_state") (stringifyObject (toJson state))

/-- A line of `Send`, for a type that needs no escapes. -/
theorem spells_sendLine (type : Bytes) (payload v : ClientValue)
    (htype : lineLexicon.literal type type)
    (hv : Spells lineLexicon (.value v) (stringify payload)) :
    ∃ t, sendLine type (stringify payload) = t ++ [10] ∧
      Spells lineLexicon (.value (envelope type v)) t := by
  have hne : stringify payload ≠ [] := Spells.ne_nil (L := lineLexicon) (fun _ _ hn => hn.1) hv
  exact ⟨_, sendLine_eq type _ hne, spells_lineText (L := lineLexicon) (ascii "type")
    (ascii "payload") type v type _ (literal_escapeJsonString _) (literal_escapeJsonString _)
    htype hv⟩

/-- The fields of a state as they are sent, in the order of their keys. -/
theorem onWire_toJson (state : NetworkState) :
    onWire (.obj (toJson state)) = .obj
      [(ascii "basicState", onWire (.obj state.basicState)),
        (ascii "position", onWire (.obj (vectorToJson state.position))),
        (ascii "rotation", onWire (.obj (rotationToJson state.rotation))),
        (ascii "timestamp", .num (wireNumber state.timestampMs))] := by
  have hkeys : (toJson state).map Prod.fst
      = [ascii "basicState", ascii "position", ascii "rotation", ascii "timestamp"] := rfl
  rw [onWire_obj _ (by rw [hkeys]; decide)]
  rfl

theorem onWire_vectorToJson (v : Vector3) :
    onWire (.obj (vectorToJson v)) = .obj (vectorToJson
      ⟨wireNumber v.x, wireNumber v.y, wireNumber v.z⟩) := by
  have hkeys : (vectorToJson v).map Prod.fst = [ascii "x", ascii "y", ascii "z"] := rfl
  rw [onWire_obj _ (by rw [hkeys]; decide)]
  rfl

theorem onWire_rotationToJson (r : Rotation3) :
    onWire (.obj (rotationToJson r)) = .obj (rotationToJson
      ⟨wireNumber r.pitch, wireNumber r.yaw, wireNumber r.roll⟩) := by
  have hkeys : (rotationToJson r).map Prod.fst = [ascii "pitch", ascii "roll", ascii "yaw"] := rfl
  rw [onWire_obj _ (by rw [hkeys]; decide)]
  rfl

end Sending

section Relay

/-- `{ playerId, ...lastPlayerState }`, without the properties that were
    missing. -/
def relayedData (playerId : Bytes) (payload : ClientObject) : ClientObject :=
  setAll [(ascii "playerId", .str playerId)]
    ([ascii "position", ascii "rotation", ascii "basicState", ascii "timestamp"].filterMap
      (fun k => (payload.lookup k).map (fun v => (k, v))))

/-- The event the server makes of a state. -/
def relayed (playerId : Bytes) (payload : ClientObject) : ClientValue :=
  envelope (ascii "event") (.obj [(ascii "data", .obj (relayedData playerId payload)),
    (ascii "eventType", .str (ascii "player_state"))])

/-- What is assumed of the server, for the line of one state: a line that
    stands for a state is answered with a line that stands for its event. -/
def Preserves (relay : Bytes → Bytes) (playerId line : Bytes) : Prop :=
  ∀ (t : Bytes) (payload : ClientObject), line = t ++ [10] →
    Spells lineLexicon (.value (envelope (ascii "player_state") (.obj payload))) t →
    ∃ out, relay line = out ++ [10] ∧ Spells lineLexicon (.value (relayed playerId payload)) out

end Relay

section Receiving

/-- The state of the one event among the calls of the handler. -/
def stateOf (calls : List ServerMessage) : Option NetworkState :=
  match calls with
  | [call] => (eventOf call).map (fun e => fromJson e.2)
  | _ => none

/-- The state the other client obtains from the chunks it receives. -/
def obtained (chunks : List Bytes) : Option NetworkState :=
  stateOf ((Reader.start true).readerLoop chunks).calls

/-- A line with the given value is handed over as one call. -/
theorem calls_of_line (type : Bytes) (payload : ClientValue) (t : Bytes) (chunks : List Bytes)
    (hne : ∀ c ∈ chunks, c ≠ []) (hcut : chunks.flatten = t ++ [10])
    (ht : Spells lineLexicon (.value (envelope type payload)) t) :
    ((Reader.start true).readerLoop chunks).calls = [⟨type, stringify payload⟩] := by
  have hstream : chunks.flatten = [t].flatMap (· ++ [10]) := by
    rw [hcut, List.flatMap_singleton]
  rw [Reader.readerLoop_lines chunks [t] hne
    (List.forall_mem_singleton.mpr (oneLine_of_line _ _ ht)) hstream]
  exact (List.flatMap_singleton _ _).trans (lineCalls_of_spells type payload t ht)

/-- What the event sink gets for an event. -/
theorem eventOf_stringify (data : ClientObject) (eventType : Bytes)
    (hdata : IsMap (data.map Prod.fst)) :
    eventOf ⟨ascii "event", stringify (.obj [(ascii "data", .obj data),
        (ascii "eventType", .str eventType)])⟩
      = some (eventType, data.map (fun e => (e.1, onWire e.2))) := by
  have hfields : onWire (.obj [(ascii "data", .obj data), (ascii "eventType", .str eventType)])
      = .obj [(ascii "data", .obj (data.map (fun e => (e.1, onWire e.2)))),
        (ascii "eventType", .str eventType)] := by
    rw [← onWire_obj data hdata]
    exact onWire_obj [(ascii "data", .obj data), (ascii "eventType", .str eventType)]
      (show IsMap [ascii "data", ascii "eventType"] from by decide)
  rw [eventOf, if_neg (fun h => h rfl)]
  simp only [parseObject, parse_stringify, hfields, Outcome.bind]
  rfl

end Receiving

section Arriving

/-- The state the other client obtains, computed from the one that was sent. -/
def arrived (state : NetworkState) : NetworkState where
  position := ⟨wireNumber state.position.x, wireNumber state.position.y,
    wireNumber state.position.z⟩
  rotation := ⟨wireNumber state.rotation.pitch, wireNumber state.rotation.yaw,
    wireNumber state.rotation.roll⟩
  basicState := ClientValue.objectOrEmpty (onWire (.obj state.basicState))
  timestampMs := state.timestampMs

/-- The fields of a state that has been parsed. -/
def arrivedFields (state : NetworkState) : ClientObject :=
  [(ascii "basicState", .obj (arrived state).basicState),
    (ascii "position", .obj (vectorToJson (arrived state).position)),
    (ascii "rotation", .obj (rotationToJson (arrived state).rotation)),
    (ascii "timestamp", .num (wireNumber state.timestampMs))]

theorem onWire_basicState (state : NetworkState) :
    onWire (.obj state.basicState) = .obj (arrived state).basicState := by
  rw [arrived, onWire, Json.transform]
  rfl

theorem onWire_toJson_fields (state : NetworkState) :
    onWire (.obj (toJson state)) = .obj (arrivedFields state) := by
  rw [onWire_toJson, onWire_basicState, onWire_vectorToJson, onWire_rotationToJson]
  rfl

/-- A line of a state stands for its fields as they arrive. -/
theorem exists_stateLine (state : NetworkState) :
    ∃ t, stateLine state = t ++ [10] ∧
      Spells lineLexicon (.value (envelope (ascii "player_state") (.obj (arrivedFields state))))
        t := by
  have hv := spells_stringify (.obj (toJson state))
  rw [onWire_toJson_fields] at hv
  exact spells_sendLine (ascii "player_state") (.obj (toJson state)) _
    (literal_escapeJsonString (ascii "player_state")) hv

/-- The data of the event, in the order of its keys. -/
theorem relayedData_arrivedFields (playerId : Bytes) (state : NetworkState) :
    relayedData playerId (arrivedFields state) =
      [(ascii "basicState", .obj (arrived state).basicState), (ascii "playerId", .str playerId),
        (ascii "position", .obj (vectorToJson (arrived state).position)),
        (ascii "rotation", .obj (rotationToJson (arrived state).rotation)),
        (ascii "timestamp", .num (wireNumber state.timestampMs))] := rfl

/-- Being written once more changes nothing. -/
theorem map_onWire_relayedData (playerId : Bytes) (state : NetworkState) :
    (relayedData playerId (arrivedFields state)).map (fun e => (e.1, onWire e.2))
      = relayedData playerId (arrivedFields state) := by
  rw [relayedData_arrivedFields]
  simp only [List.map_cons, List.map_nil, onWire_vectorToJson, onWire_rotationToJson,
    ← onWire_basicState, onWire_onWire]
  simp only [arrived, wireNumber_wireNumber]
  refine congrArg₂ _ rfl (congrArg₂ _ rfl (congrArg₂ _ rfl (congrArg₂ _ rfl ?_)))
  rw [onWire, Json.transform, wireNumber_wireNumber]

theorem truncate_intCast (n : Int) : truncate (n : Rat) = n := by
  rw [truncate, Int.floor_intCast, Int.ceil_intCast, ite_self]

theorem isLongLong_intCast (n : Int) (h : |n| < 2 ^ 53) : isLongLong (n : Rat) = true := by
  rcases abs_lt.mp h with ⟨hlow, hhigh⟩
  refine decide_eq_true ⟨Rat.den_intCast n, ?_, ?_⟩ <;> rw [Rat.num_intCast] <;> omega

/-- The fields are those of the state. -/
theorem fromJson_relayedData (playerId : Bytes) (state : NetworkState)
    (ht : |state.timestampMs| < 2 ^ 53) :
    fromJson (relayedData playerId (arrivedFields state)) = arrived state := by
  have htime : truncate (wireNumber state.timestampMs) = state.timestampMs := by
    rw [wireNumber, if_pos (isLongLong_intCast _ ht), truncate_intCast]
  have hfields : fromJson (relayedData playerId (arrivedFields state))
      = { arrived state with timestampMs := truncate (wireNumber state.timestampMs) } := rfl
  rw [hfields, htime]
  rfl

end Arriving

section Fidelity

variable (state : NetworkState) (relay : Bytes → Bytes) (playerId : Bytes) (chunks : List Bytes)

/-- What is obtained. -/
theorem obtained_eq (ht : |state.timestampMs| < 2 ^ 53)
    (hrelay : Preserves relay playerId (stateLine state)) (hne : ∀ c ∈ chunks, c ≠ [])
    (hcut : chunks.flatten = relay (stateLine state)) :
    obtained chunks = some (arrived state) := by
  rcases exists_stateLine state with ⟨t, hline, hspells⟩
  rcases hrelay t (arrivedFields state) hline hspells with ⟨out, hout, hrelayed⟩
  have hkeys : IsMap ((relayedData playerId (arrivedFields state)).map Prod.fst) := by
    rw [relayedData_arrivedFields]
    exact (show IsMap [ascii "basicState", ascii "playerId", ascii "position", ascii "rotation",
      ascii "timestamp"] from by decide)
  rw [obtained, calls_of_line _ _ out chunks hne (hcut.trans hout) hrelayed, stateOf,
    eventOf_stringify _ _ hkeys, map_onWire_relayedData, Option.map_some,
    fromJson_relayedData playerId state ht]

/-- The states that arrive unchanged: all numbers are integers of the range of
    `long long` or have six significant digits at most. -/
structure Faithful : Prop where
  x : Representable state.position.x
  y : Representable state.position.y
  z : Representable state.position.z
  pitch : Representable state.rotation.pitch
  yaw : Representable state.rotation.yaw
  roll : Representable state.rotation.roll
  basicState : (Json.obj state.basicState).Everywhere (fun _ => True) Representable (fun _ => True)

theorem arrived_eq_iff
    (hmap : (Json.obj state.basicState).Everywhere (fun _ => True) (fun _ => True) IsMap) :
    arrived state = state ↔ Faithful state := by
  have hbasic := onWire_eq_iff (.obj state.basicState) hmap
  rw [onWire_basicState, Json.obj.injEq] at hbasic
  refine ⟨fun h => ?_, fun h => ?_⟩
  · refine ⟨?_, ?_, ?_, ?_, ?_, ?_, hbasic.mp (congrArg NetworkState.basicState h)⟩
    · exact (wireNumber_eq_iff _).mp (congrArg (fun s => s.position.x) h)
    · exact (wireNumber_eq_iff _).mp (congrArg (fun s => s.position.y) h)
    · exact (wireNumber_eq_iff _).mp (congrArg (fun s => s.position.z) h)
    · exact (wireNumber_eq_iff _).mp (congrArg (fun s => s.rotation.pitch) h)
    · exact (wireNumber_eq_iff _).mp (congrArg (fun s => s.rotation.yaw) h)
    · exact (wireNumber_eq_iff _).mp (congrArg (fun s => s.rotation.roll) h)
  · have hb := hbasic.mpr h.basicState
    rcases state with ⟨⟨x, y, z⟩, ⟨pitch, yaw, roll⟩, basicState, timestampMs⟩
    simp only [arrived, (wireNumber_eq_iff _).mpr h.x, (wireNumber_eq_iff _).mpr h.y,
      (wireNumber_eq_iff _).mpr h.z, (wireNumber_eq_iff _).mpr h.pitch,
      (wireNumber_eq_iff _).mpr h.yaw, (wireNumber_eq_iff _).mpr h.roll] at hb ⊢
    rw [hb]

/-- When what is obtained is what was sent. -/
theorem obtained_iff_faithful
    (hmap : (Json.obj state.basicState).Everywhere (fun _ => True) (fun _ => True) IsMap)
    (ht : |state.timestampMs| < 2 ^ 53) (hrelay : Preserves relay playerId (stateLine state))
    (hne : ∀ c ∈ chunks, c ≠ []) (hcut : chunks.flatten = relay (stateLine state)) :
    obtained chunks = some state ↔ Faithful state := by
  rw [obtained_eq state relay playerId chunks ht hrelay hne hcut, Option.some.injEq,
    arrived_eq_iff state hmap]

end Fidelity

section Server

/-- What the server sends, for a state of integers. -/
def stateEvent (playerId : JsString) (position rotation : Int × Int × Int) (timestamp : Int) :
    Message where
  type := js "event"
  payload := [(js "eventType", .str (js "player_state")),
    (js "data", .obj [(js "playerId", .str playerId),
      (js "position", .obj [(js "x", .num (.finite position.1)),
        (js "y", .num (.finite position.2.1)), (js "z", .num (.finite position.2.2))]),
      (js "rotation", .obj [(js "pitch", .num (.finite rotation.1)),
        (js "roll", .num (.finite rotation.2.2)), (js "yaw", .num (.finite rotation.2.1))]),
      (js "basicState", .obj []), (js "timestamp", .num (.finite timestamp))])]

/-- The line of a message is an answer to a state, if it stands for the right
    event. -/
theorem preserves_of_message (fmt : NumberFormat) (m : Message) (hm : m.Plain)
    (playerId : Bytes) (state : NetworkState)
    (hvalue : envelope (utf8 m.type) (clientOf (.obj m.payload))
      = relayed playerId (arrivedFields state)) :
    Preserves (fun _ => utf8 (m.encode fmt)) playerId (stateLine state) := by
  intro t payload hline hspells
  rcases exists_stateLine state with ⟨t', hline', hspells'⟩
  have ht : t' = t := List.append_cancel_right (hline'.symm.trans hline)
  have henv := spells_unique _ _ t (client_of_line _ _ hspells) (client_of_line _ _ (ht ▸ hspells'))
  have hpayload : payload = arrivedFields state := by
    simp only [envelope, Json.obj.injEq, List.cons.injEq, Prod.mk.injEq, true_and, and_true] at henv
    exact henv
  rcases exists_line fmt m hm with ⟨out, hout, hspelt⟩
  refine ⟨out, utf8_of_spelt _ _ hspelt, ?_⟩
  rw [hpayload, ← hvalue]
  exact hout

end Server

/-- The event has integers of a magnitude below 2^53 only. -/
theorem plain_stateEvent (playerId : JsString) (position rotation : Int × Int × Int)
    (timestamp : Int) (hid : isWellFormed playerId = true)
    (h : ∀ n ∈ [position.1, position.2.1, position.2.2, rotation.1, rotation.2.1, rotation.2.2,
      timestamp], n.natAbs < 2 ^ 53) :
    (stateEvent playerId position rotation timestamp).Plain := by
  have hsafe : ∀ n : Int, n.natAbs < 2 ^ 53 → isSafeInteger (.finite n) = true :=
    fun n hn => decide_eq_true ⟨Rat.den_intCast n, by rwa [Rat.num_intCast]⟩
  simp only [List.forall_mem_cons] at h
  rcases h with ⟨hx, hy, hz, hpitch, hyaw, hroll, ht, -⟩
  refine ⟨rfl, ?_⟩
  simp only [stateEvent, Plain, Json.Everywhere, Json.EverywhereFields, hid, hsafe _ hx, hsafe _ hy,
    hsafe _ hz, hsafe _ hpitch, hsafe _ hyaw, hsafe _ hroll, hsafe _ ht, true_and, and_true]
  decide

/-- A state of the tests. -/
def integral : NetworkState := ⟨⟨5, 6, 7⟩, ⟨1, 2, 3⟩, [], 999⟩

theorem obtained_iff_faithful_integral :
    obtained [utf8 ((stateEvent (js "p") (5, 6, 7) (1, 2, 3) 999).encode (fun _ => []))]
      = some integral ↔ Faithful integral :=
  obtained_iff_faithful integral
    (fun _ => utf8 ((stateEvent (js "p") (5, 6, 7) (1, 2, 3) 999).encode (fun _ => []))) (ascii "p")
    [utf8 ((stateEvent (js "p") (5, 6, 7) (1, 2, 3) 999).encode (fun _ => []))]
    ⟨List.Pairwise.nil, trivial⟩ (by decide)
    (preserves_of_message _ _ (plain_stateEvent _ _ _ _ rfl (by decide)) _ _ rfl)
    (by decide) (by rw [List.flatten_singleton])

/-- A number of the form `n / 2^k`. -/
def Dyadic (q : Rat) : Prop := ∃ k : Nat, q.den = 2 ^ k

/-- Every state of dyadic numbers is obtained as it was sent. -/
def Fidelity : Prop :=
  ∀ (state : NetworkState) (relay : Bytes → Bytes) (playerId : Bytes) (chunks : List Bytes),
    (∀ q ∈ [state.position.x, state.position.y, state.position.z, state.rotation.pitch,
      state.rotation.yaw, state.rotation.roll], Dyadic q) →
    (Json.obj state.basicState).Everywhere (fun _ => True) (fun _ => True) IsMap →
    |state.timestampMs| < 2 ^ 53 → Preserves relay playerId (stateLine state) →
    (∀ c ∈ chunks, c ≠ []) → chunks.flatten = relay (stateLine state) →
    obtained chunks = some state

/-- A position of eight significant digits. -/
def fractional : NetworkState := ⟨⟨2469135 / 2, 0, 0⟩, ⟨0, 0, 0⟩, [], 0⟩

theorem arrived_fractional : wireNumber (2469135 / 2) = 1234570 := by decide +kernel

theorem arrivedFields_fractional :
    envelope (utf8 (js "event"))
        (clientOf (.obj (stateEvent (js "p") (1234570, 0, 0) (0, 0, 0) 0).payload))
      = relayed (ascii "p") (arrivedFields fractional) := by
  rw [arrivedFields, arrived, fractional, arrived_fractional]
  rfl

-- The half is lost on the way to the server, and so is the last digit.
theorem not_fidelity_fractional : ¬ Fidelity := by
  intro h
  have hdyadic : ∀ q ∈ [(2469135 / 2 : Rat), 0, 0, 0, 0, 0], Dyadic q := by
    simp only [List.forall_mem_cons]
    exact ⟨⟨1, by decide +kernel⟩, ⟨0, rfl⟩, ⟨0, rfl⟩, ⟨0, rfl⟩, ⟨0, rfl⟩, ⟨0, rfl⟩,
      fun _ hq => absurd hq List.not_mem_nil⟩
  have hrelay := preserves_of_message (fun _ => [])
    (stateEvent (js "p") (1234570, 0, 0) (0, 0, 0) 0)
    (plain_stateEvent _ _ _ _ rfl (by decide)) (ascii "p") fractional arrivedFields_fractional
  have hne : ∀ c ∈ [utf8 ((stateEvent (js "p") (1234570, 0, 0) (0, 0, 0) 0).encode
      (fun _ => []))], c ≠ [] := by decide
  have hobtained := obtained_eq fractional _ (ascii "p") _ (by decide) hrelay hne
    (by rw [List.flatten_singleton])
  have hsame := h fractional _ (ascii "p") _ hdyadic ⟨List.Pairwise.nil, trivial⟩ (by decide) hrelay
    hne (by rw [List.flatten_singleton])
  have hx : wireNumber (2469135 / 2) = 2469135 / 2 :=
    congrArg (fun s => s.position.x) (Option.some.inj (hobtained.symm.trans hsame))
  rw [arrived_fractional] at hx
  exact absurd hx (by decide +kernel)

end Wire

end MzzPlork
