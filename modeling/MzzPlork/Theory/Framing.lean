import MzzPlork.Theory.Encoding
import MzzPlork.Theory.Lines

/-!
# Messages from the Server

What the server sends arrives. The client's handler is called once for every
message, in order, with the type and a payload text that stands for the value
the server sent, whichever chunks the bytes came in.

The line of a message is one line, and a text of the grammar. So the reader
finds the line, the parser its value, and what the writer makes of the payload
is parsed to the same value again.

## Main definitions

* `Message`: What `encodeMessage` is called with.
* `LineOf`: The line of a message, without its line feed.
* `Delivers`: A call of the handler that hands over a message.

## Theorems

* `exists_line`: Every message has a line.
* `lineCalls_of_spells`: What the line leads to.
* `readerLoop_delivers`: What arrives of a list of messages.
-/

namespace MzzPlork

namespace Wire

open JsonText

/-- What `encodeMessage` is called with. -/
structure Message where
  type : JsString
  payload : List (JsString × JsValue)

/-- A message of well-formed strings and integers of a magnitude below 2^53. -/
def Message.Plain (m : Message) : Prop :=
  isWellFormed m.type = true ∧ Wire.Plain (.obj m.payload)

instance (m : Message) : Decidable m.Plain := by
  unfold Message.Plain
  infer_instance

/-- The line of a message with its line feed. -/
def Message.encode (fmt : NumberFormat) (m : Message) : JsString :=
  encodeMessage fmt m.type (some (.obj m.payload))

/-- The line of a message, without its line feed. -/
def LineOf (m : Message) (t : Bytes) : Prop :=
  Spells lineLexicon (.value (.obj [(ascii "payload", clientOf (.obj m.payload)),
    (ascii "type", .str (utf8 m.type))])) t

/-- The fields are sorted by the parser. -/
theorem clientOf_envelope (type : JsString) (payload : JsValue) :
    clientOf (.obj [(js "type", .str type), (js "payload", payload)])
      = .obj [(ascii "payload", clientOf payload), (ascii "type", .str (utf8 type))] := by
  rw [clientOf, Json.transform_obj]
  rfl

/-- Every message has a line. -/
theorem exists_line (fmt : NumberFormat) (m : Message) (hm : m.Plain) :
    ∃ t, LineOf m t ∧ Spelt (m.encode fmt) (t ++ [10]) := by
  have hplain : Plain (.obj [(js "type", .str m.type), (js "payload", .obj m.payload)]) := by
    rw [Plain, Json.everywhere_obj]
    exact ⟨trivial, List.forall_mem_cons.mpr ⟨⟨rfl, hm.1⟩,
      List.forall_mem_singleton.mpr ⟨rfl, hm.2⟩⟩⟩
  rcases spelt_jsonStringify fmt _ hplain with ⟨t, ht, hs⟩
  rw [clientOf_envelope] at ht
  exact ⟨t, ht, spelt_append _ (js "\n") t [10] hs (spelt_ascii (js "\n") rfl)⟩

/-- A list of messages is a stream of lines. -/
theorem exists_lines (fmt : NumberFormat) (messages : List Message)
    (h : ∀ m ∈ messages, m.Plain) :
    ∃ lines, List.Forall₂ LineOf messages lines ∧
      Spelt (messages.flatMap (Message.encode fmt)) (lines.flatMap (· ++ [10])) := by
  induction messages with
  | nil => exact ⟨[], List.Forall₂.nil, spelt_nil⟩
  | cons m messages ih =>
      rcases exists_line fmt m (h m List.mem_cons_self) with ⟨t, ht, hs⟩
      rcases ih (fun x hx => h x (List.mem_cons_of_mem m hx)) with ⟨lines, hlines, hss⟩
      exact ⟨t :: lines, List.Forall₂.cons ht hlines, spelt_append _ _ _ _ hs hss⟩

/-- What is parsed from a line with a type and a payload. -/
theorem messageOf_of_spells (type : Bytes) (payload : ClientValue) (t : Bytes)
    (ht : Spells lineLexicon
      (.value (.obj [(ascii "payload", payload), (ascii "type", .str type)])) t) :
    messageOf t = some ⟨type, stringify payload⟩ := by
  rw [messageOf, parse_whole _ t (client_of_line _ _ ht)]
  rfl

/-- What the line leads to. -/
theorem lineCalls_of_spells (type : Bytes) (payload : ClientValue) (t : Bytes)
    (ht : Spells lineLexicon
      (.value (.obj [(ascii "payload", payload), (ascii "type", .str type)])) t) :
    Reader.lineCalls true t = [⟨type, stringify payload⟩] := by
  have hne : t ≠ [] := Spells.ne_nil (L := lineLexicon) (fun _ _ hn => hn.1) ht
  simp only [Reader.lineCalls, hne, Bool.true_eq_false, or_self, if_false,
    messageOf_of_spells type payload t ht, Option.toList_some]

/-- A call of the handler that hands over a message. -/
def Delivers (m : Message) (call : ServerMessage) : Prop :=
  call.type = utf8 m.type ∧ ∃ c, parse call.payload = .ok c (clientOf (.obj m.payload))

theorem delivers_of_plain (m : Message) (hm : m.Plain) :
    Delivers m ⟨utf8 m.type, stringify (clientOf (.obj m.payload))⟩ := by
  have hparse := parse_stringify (clientOf (.obj m.payload))
  rw [onWire_clientOf _ hm.2] at hparse
  exact ⟨rfl, _, hparse⟩

theorem calls_of_lines (messages : List Message) (lines : List Bytes)
    (h : ∀ m ∈ messages, m.Plain) (hlines : List.Forall₂ LineOf messages lines) :
    List.Forall₂ Delivers messages (lines.flatMap (Reader.lineCalls true)) := by
  induction hlines with
  | nil => exact List.Forall₂.nil
  | cons hline hrest ih =>
      rename_i m t messages lines
      rw [List.flatMap_cons, lineCalls_of_spells _ _ t hline]
      exact List.Forall₂.cons (delivers_of_plain m (h m List.mem_cons_self))
        (ih (fun x hx => h x (List.mem_cons_of_mem m hx)))

/-- What arrives of a list of messages, in whichever chunks: each of them, once
    and in order, and nothing that is left over. -/
theorem readerLoop_delivers (fmt : NumberFormat) (messages : List Message)
    (h : ∀ m ∈ messages, m.Plain) (chunks : List Bytes) (hne : ∀ c ∈ chunks, c ≠ [])
    (hcut : chunks.flatten = utf8 (messages.flatMap (Message.encode fmt))) :
    List.Forall₂ Delivers messages ((Reader.start true).readerLoop chunks).calls ∧
      ((Reader.start true).readerLoop chunks).readBuffer = [] := by
  rcases exists_lines fmt messages h with ⟨lines, hlines, hs⟩
  have hline : ∀ line ∈ lines, OneLine line := by
    intro line hl
    rcases List.forall₂_iff_get.mp hlines with ⟨hlen, hget⟩
    rcases List.mem_iff_get.mp hl with ⟨i, rfl⟩
    exact oneLine_of_line _ _ (hget i.val (by rw [hlen]; exact i.isLt) i.isLt)
  rw [Reader.readerLoop_lines chunks lines hne hline (hcut.trans (utf8_of_spelt _ _ hs))]
  exact ⟨calls_of_lines messages lines h hlines, rfl⟩

/-- A message with a letter of two bytes, a pair and a control character. -/
def accented : Message where
  type := js "event"
  payload := [(js "text", .str [0xE9, 10, 0xD83D, 0xDE00, 7]),
    (js "items", .arr [.num (.finite (-3)), .obj []])]

-- The first chunk ends inside the letter.
theorem readerLoop_delivers_accented :
    List.Forall₂ Delivers [accented] ((Reader.start true).readerLoop
        [(utf8 (accented.encode (fun _ => []))).take 36,
          (utf8 (accented.encode (fun _ => []))).drop 36]).calls ∧
      ((Reader.start true).readerLoop [(utf8 (accented.encode (fun _ => []))).take 36,
        (utf8 (accented.encode (fun _ => []))).drop 36]).readBuffer = [] :=
  readerLoop_delivers (fun _ => []) [accented]
    (List.forall_mem_singleton.mpr ⟨by decide, by
      simp only [accented, Plain, Json.Everywhere, Json.EverywhereItems, Json.EverywhereFields]
      decide⟩)
    _ (by decide) (by
      rw [List.flatten_cons, List.flatten_cons, List.flatten_nil, List.append_nil,
        List.take_append_drop, List.flatMap_singleton])

end Wire

end MzzPlork
