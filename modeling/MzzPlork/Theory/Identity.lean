import MzzPlork.Core.ClientId
import MzzPlork.Core.RequestReply
import MzzPlork.Core.Session
import MzzPlork.Theory.Readable

/-!
# One Player, Launch After Launch

A client that has once saved its id is the same player in every launch, and no
other client is that player unless it has drawn the same sixteen bytes.

Three things have to fit for this. The id has to come out of the file as it
went in, though the file is one of text (`getline_writeText`). It has to come
out of the line of `SendAuth` as it went in (`delivered_sendAuth`). And the
server has to take it for an id, as otherwise it makes one up, another one in
every session (`authenticate_id`).

## Main definitions

* `IsIdText`: The ids for which all of this is so.
* `Machine`: A client that has no id yet, and its launches.
* `PlaysAs`: An id is who the server says the player is.

## Theorems

* `isIdText_generateRandomId`: What is drawn is such an id.
* `generateRandomId_injective`: The bytes can be told from the id.
* `clientIds_eq`: Every launch has the first one's id.
* `identified_run`: The player of a machine.
-/

namespace MzzPlork

namespace ClientId

open JsonText EventChannel

section Ids

/-- A byte of an id. The server takes it for one, and it is read, written and
    sent as it is. -/
structure IsIdByte (b : UInt8) : Prop where
  accepted : Server.isIdCharacter b.toUInt16 = true
  ascii : b.toNat < 128
  printed : 32 ≤ b

/-- An id that nobody on the way changes or turns down. -/
structure IsIdText (id : Bytes) : Prop where
  long : 8 ≤ id.length
  bytes : ∀ b ∈ id, IsIdByte b

theorem isIdByte_hexChar (n : Nat) (h : n < 16) : IsIdByte (hexChar n) := by
  have hall : ∀ n < 16, Server.isIdCharacter (hexChar n).toUInt16 = true ∧
      (hexChar n).toNat < 128 ∧ 32 ≤ hexChar n := by decide
  rcases hall n h with ⟨haccepted, hascii, hprinted⟩
  exact ⟨haccepted, hascii, hprinted⟩

theorem hexChar_injective : ∀ m < 16, ∀ n < 16, hexChar m = hexChar n → m = n := by decide

theorem toNat_high (b : UInt8) : ((b >>> 4) &&& 15).toNat = b.toNat / 16 := by
  have hlt := b.toNat_lt
  have hmask := Nat.and_two_pow_sub_one_eq_mod (b >>> 4).toNat 4
  have hshift : (b >>> 4).toNat = b.toNat / 16 := by
    rw [UInt8.toNat_shiftRight, Nat.shiftRight_eq_div_pow]
    rfl
  rw [UInt8.toNat_and, show (15 : UInt8).toNat = 2 ^ 4 - 1 from rfl, hmask, hshift]
  omega

theorem toNat_low (b : UInt8) : (b &&& 15).toNat = b.toNat % 16 := by
  rw [UInt8.toNat_and]
  exact Nat.and_two_pow_sub_one_eq_mod b.toNat 4

theorem isIdByte_hexPiece (i : Nat) (byte : UInt8) : ∀ b ∈ hexPiece i byte, IsIdByte b := by
  have hlt := byte.toNat_lt
  intro b hb
  rcases List.mem_append.mp hb with hdash | hdigit
  · split at hdash
    · rw [List.mem_singleton.mp hdash]
      exact ⟨rfl, by decide, by decide⟩
    · exact absurd hdash List.not_mem_nil
  · rw [toNat_high, toNat_low, List.mem_pair] at hdigit
    rcases hdigit with rfl | rfl
    · exact isIdByte_hexChar _ (by omega)
    · exact isIdByte_hexChar _ (by omega)

/-- What is drawn is an id. -/
theorem isIdText_generateRandomId (bytes : Fin 16 → UInt8) :
    IsIdText (generateRandomId bytes) := by
  refine ⟨?_, fun b hb => ?_⟩
  · rw [show (generateRandomId bytes).length = 36 from rfl]
    decide
  · rcases List.mem_flatMap.mp hb with ⟨i, _, hi⟩
    exact isIdByte_hexPiece i.val (bytes i) b hi

theorem length_hexPiece (i : Nat) (byte byte' : UInt8) :
    (hexPiece i byte).length = (hexPiece i byte').length := by
  unfold hexPiece
  rw [List.length_append, List.length_append]
  rfl

theorem hexPiece_injective (i : Nat) (byte byte' : UInt8) (h : hexPiece i byte = hexPiece i byte') :
    byte = byte' := by
  have hlt := byte.toNat_lt
  have hlt' := byte'.toNat_lt
  have hdigits := List.append_cancel_left h
  rw [toNat_high, toNat_low, toNat_high, toNat_low, List.cons.injEq, List.cons.injEq] at hdigits
  have hhigh := hexChar_injective _ (by omega) _ (by omega) hdigits.1
  have hlow := hexChar_injective _ (by omega) _ (by omega) hdigits.2.1
  exact UInt8.toNat_inj.mp (by omega)

/-- The bytes can be told from the id. Every turn of the loop writes as many
    characters as that turn always does. -/
theorem generateRandomId_injective : Function.Injective generateRandomId := by
  intro bytes bytes' h
  have hpieces : ∀ is : List (Fin 16),
      is.flatMap (fun i => hexPiece i.val (bytes i))
        = is.flatMap (fun i => hexPiece i.val (bytes' i)) → ∀ i ∈ is, bytes i = bytes' i := by
    intro is
    induction is with
    | nil => exact fun _ i hi => absurd hi List.not_mem_nil
    | cons i is ih =>
        intro heq j hj
        rw [List.flatMap_cons, List.flatMap_cons] at heq
        -- The dashes stand where they always do, so the texts come apart turn by turn.
        rcases List.append_inj heq (length_hexPiece i.val _ _) with ⟨hpiece, hrest⟩
        rcases List.mem_cons.mp hj with rfl | hj
        · exact hexPiece_injective _ _ _ hpiece
        · exact ih hrest j hj
  exact funext (fun i => hpieces _ h i (List.mem_finRange i))

end Ids

section Files

/-- A text without line breaks and without a Ctrl-Z. -/
def IsPlain (t : Bytes) : Prop := ∀ b ∈ t, 32 ≤ b

theorem readText_of_plain (t : Bytes) (h : IsPlain t) : readText t = t := by
  induction t with
  | nil => rfl
  | cons b t ih =>
      have hb := h b List.mem_cons_self
      -- Neither the end of the text nor the first half of a line break.
      have hend : b ≠ 26 := fun heq => absurd (heq ▸ hb) (by decide)
      have hreturn : b ≠ 13 := fun heq => absurd (heq ▸ hb) (by decide)
      have hrest := ih (fun x hx => h x (List.mem_cons_of_mem b hx))
      cases t with
      | nil =>
          unfold readText
          exact if_neg hend
      | cons c t =>
          unfold readText
          rw [if_neg hend, if_neg (fun hpair => hreturn hpair.1), hrest]

theorem writeText_of_plain (t : Bytes) (h : IsPlain t) : writeText t = t := by
  unfold writeText
  induction t with
  | nil => rfl
  | cons b t ih =>
      have hbreak : b ≠ 10 := fun heq => absurd (heq ▸ h b List.mem_cons_self) (by decide)
      rw [List.flatMap_cons, if_neg hbreak, ih (fun x hx => h x (List.mem_cons_of_mem b hx))]
      rfl

/-- An id comes out of the file as it went in. -/
theorem getline_writeText (t : Bytes) (h : IsPlain t) : getline (writeText t) = t := by
  unfold getline
  rw [writeText_of_plain t h, readText_of_plain t h, List.takeWhile_eq_self_iff]
  intro b hb
  exact decide_eq_true (fun heq => absurd (heq ▸ h b hb) (by decide))

theorem IsIdText.plain {id : Bytes} (h : IsIdText id) : IsPlain id :=
  fun b hb => (h.bytes b hb).printed

theorem IsIdText.ne_nil {id : Bytes} (h : IsIdText id) : id ≠ [] := by
  rintro rfl
  exact absurd h.long (by decide)

/-- A launch that finds an id has it and leaves it where it is. -/
theorem clientIds_saved (id : Bytes) (h : IsIdText id) (launches : List Launch)
    (hreadable : ∀ launch ∈ launches, launch.readable = true) :
    clientIds launches (some (writeText id)) = List.replicate launches.length id := by
  induction launches with
  | nil => rfl
  | cons launch launches ih =>
      have hstored : storedId launch.readable (some (writeText id)) = id := by
        unfold storedId
        rw [hreadable launch List.mem_cons_self]
        exact getline_writeText id h.plain
      have hload : loadOrCreateClientId launch (some (writeText id))
          = (id, some (writeText id)) := by
        unfold loadOrCreateClientId
        rw [hstored]
        exact if_pos h.ne_nil
      unfold clientIds
      rw [hload]
      dsimp only
      rw [ih (fun l hl => hreadable l (List.mem_cons_of_mem launch hl))]
      rfl

/-- A client that has no id yet, and its launches. The first one saves an id,
    and the others can read it. -/
structure Machine where
  file : Option Bytes
  first : Launch
  later : List Launch
  unnamed : storedId first.readable file = []
  saves : first.writable = true
  keeps : ∀ launch ∈ later, launch.readable = true

/-- The ids of a machine's launches. -/
def Machine.ids (m : Machine) : List Bytes := clientIds (m.first :: m.later) m.file

/-- Every launch has the first one's id. -/
theorem clientIds_eq (m : Machine) :
    m.ids = List.replicate (m.later.length + 1) (generateRandomId m.first.bytes) := by
  have hload : loadOrCreateClientId m.first m.file = (generateRandomId m.first.bytes,
      some (writeText (generateRandomId m.first.bytes))) := by
    unfold loadOrCreateClientId
    rw [m.unnamed, m.saves]
    rfl
  unfold Machine.ids clientIds
  rw [hload, List.replicate_succ]
  exact congrArg (List.cons _)
    (clientIds_saved _ (isIdText_generateRandomId m.first.bytes) m.later m.keeps)

end Files

section Players

variable (toNumber : JsString → JsNumber) (syntaxErrorText : JsString → JsString)
variable (fmt : NumberFormat)

/-- What the server has of the payload of `SendAuth`. -/
def authPayload (id : Bytes) : JsValue :=
  .obj [(js "clientId", .str (JsonParse.wide id)), (js "displayName", .str [])]

/-- The payload of `SendAuth`, without a name. -/
def authFields (id : Bytes) : ClientObject :=
  [(ascii "clientId", .str id), (ascii "displayName", .str [])]

/-- An id comes out of the line of `SendAuth` as it went in. -/
theorem delivered_sendAuth (hN : Wire.ReadsIntegers toNumber) (id : Bytes) (h : IsIdText id) :
    Wire.Delivered toNumber syntaxErrorText
      (Wire.sendLine (ascii "auth") (stringifyObject (authFields id)))
      (.message (js "auth") (authPayload id)) := by
  have hcoded := JsonParse.coded_wide id (fun b hb => (h.bytes b hb).ascii)
  have hkeys : IsMap [ascii "clientId", ascii "displayName"] := by decide
  have hproper : Wire.Proper (.obj (authFields id)) :=
    ⟨hkeys, (coded_ascii "clientId" rfl).isUtf8, hcoded.isUtf8,
      (coded_ascii "displayName" rfl).isUtf8, (coded_ascii "" rfl).isUtf8, trivial⟩
  have hwritable : (Json.obj (authFields id)).Everywhere Wire.Writable (fun _ => True)
      (fun _ => True) :=
    ⟨trivial, Wire.writable_of_all _ rfl, fun b hb => Or.inl (h.bytes b hb).printed,
      Wire.writable_of_all _ rfl, Wire.writable_of_all _ rfl, trivial⟩
  have hreadable := Wire.readable_of_writable toNumber syntaxErrorText hN _ hproper hwritable
  have hdelivered := hreadable.message (authFields id) rfl (ascii "auth")
    (Wire.isName_ascii "auth" rfl rfl)
  -- The server has code units where the client has bytes, and an id is ASCII.
  have hserved : Wire.served (.obj (authFields id)) = authPayload id := by
    change Json.obj [(Wire.units (ascii "clientId"), Json.str (Wire.units id)),
      (Wire.units (ascii "displayName"), Json.str (Wire.units []))] = _
    rw [Wire.units_eq id _ hcoded, Wire.units_ascii "clientId" rfl,
      Wire.units_ascii "displayName" rfl]
    rfl
  rw [hserved, Wire.units_ascii "auth" rfl] at hdelivered
  exact hdelivered

/-- The server takes an id over, and makes a name of its head. -/
theorem authenticate_id (id : Bytes) (h : IsIdText id) (playerUuid sessionUuid : JsString) :
    Server.authenticate fmt ((authPayload id).field (js "clientId"))
      ((authPayload id).field (js "displayName")) playerUuid sessionUuid
      = some ⟨true, .str (JsonParse.wide id), sessionUuid,
          .str (js "Player-" ++ (JsonParse.wide id).take 8)⟩ := by
  have htruthy : JsValue.truthy (.str (JsonParse.wide id)) = true :=
    decide_eq_true (fun hnil => h.ne_nil (List.map_eq_nil_iff.mp hnil))
  have hid : Server.isIdText (JsonParse.wide id) = true := by
    unfold Server.isIdText JsonParse.wide
    rw [List.length_map, List.all_map, Bool.and_eq_true, decide_eq_true_eq, List.all_eq_true]
    exact ⟨h.long, fun b hb => (h.bytes b hb).accepted⟩
  have hchoose : Server.choosePlayerId fmt (some (.str (JsonParse.wide id))) playerUuid
      = some (.str (JsonParse.wide id)) := by
    unfold Server.choosePlayerId
    dsimp only
    rw [if_pos htruthy]
    unfold JsValue.toText
    rw [Option.map_some, if_pos hid]
  change Server.authenticate fmt (some (.str (JsonParse.wide id))) (some (.str [])) _ _ = _
  unfold Server.authenticate
  rw [hchoose]
  rfl

/-- An id is who the server says the player is, whatever ids it draws itself. -/
def PlaysAs (id : Bytes) (playerId : JsString) : Prop :=
  ∃ payload payloadJson,
    RequestReply.sendAuth id [] = .call (ascii "auth") payloadJson (ascii "auth_result") ∧
    Wire.Delivered toNumber syntaxErrorText (Wire.sendLine (ascii "auth") payloadJson)
      (.message (js "auth") payload) ∧
    ∀ playerUuid sessionUuid,
      Server.authenticate fmt (payload.field (js "clientId")) (payload.field (js "displayName"))
        playerUuid sessionUuid
        = some ⟨true, .str playerId, sessionUuid, .str (js "Player-" ++ playerId.take 8)⟩

/-- The player that a machine's launches are. -/
def Machine.playerId (m : Machine) : JsString :=
  JsonParse.wide (generateRandomId m.first.bytes)

/-- A machine is one player in all its launches, and it is another machine's
    player only if both have drawn the same bytes. -/
theorem identified_run (hN : Wire.ReadsIntegers toNumber) (m m' : Machine) :
    (∀ id ∈ m.ids, PlaysAs toNumber syntaxErrorText fmt id m.playerId) ∧
      (m.playerId = m'.playerId ↔ m.first.bytes = m'.first.bytes) := by
  have hid := isIdText_generateRandomId m.first.bytes
  refine ⟨fun id hmem => ?_, fun heq => ?_, fun heq => ?_⟩
  · rw [clientIds_eq] at hmem
    rw [List.eq_of_mem_replicate hmem]
    exact ⟨_, _, rfl, delivered_sendAuth toNumber syntaxErrorText hN _ hid,
      authenticate_id fmt _ hid⟩
  · have hwide : Function.Injective UInt8.toUInt16 := fun b b' hb => by
      exact UInt8.toNat_inj.mp (congrArg UInt16.toNat hb)
    exact generateRandomId_injective (List.map_injective_iff.mpr hwide heq)
  · unfold Machine.playerId
    rw [heq]

/-- A machine that is started twice. -/
def zeroMachine : Machine where
  file := none
  first := ⟨fun _ => 0, true, true⟩
  later := [⟨fun _ => 1, true, true⟩]
  unnamed := rfl
  saves := rfl
  keeps := by decide

/-- A machine whose file is there, and empty. -/
def emptyMachine : Machine where
  file := some []
  first := ⟨fun i => if i = 15 then 171 else 0, true, true⟩
  later := []
  unnamed := rfl
  saves := rfl
  keeps := by decide

theorem identified_run_machines :
    (∀ id ∈ [ascii "00000000-0000-0000-0000-000000000000",
        ascii "00000000-0000-0000-0000-000000000000"],
      PlaysAs Wire.decimal (fun _ => []) (fun _ => []) id
        (js "00000000-0000-0000-0000-000000000000")) ∧
      emptyMachine.playerId = js "00000000-0000-0000-0000-0000000000ab" ∧
      zeroMachine.playerId ≠ emptyMachine.playerId :=
  have hrun := identified_run Wire.decimal (fun _ => []) (fun _ => []) Wire.readsIntegers_decimal
    zeroMachine emptyMachine
  ⟨hrun.1, by decide, fun heq => absurd (congrFun (hrun.2.mp heq) 15) (by decide)⟩

end Players

end ClientId

end MzzPlork
