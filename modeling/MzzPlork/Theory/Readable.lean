import MzzPlork.Theory.Lines
import MzzPlork.Theory.Messages
import MzzPlork.Theory.ServerReads

/-!
# What the Client Writes, as the Server Has It

The client's text of a value is a text of RFC 8259 that denotes the value, and
a message with such a payload arrives, as long as no string and no key has a
control character other than the tab, the line feed and the carriage return. The
writer has escapes for these three only, and the others go out as they are.

## Main definitions

* `units`: A string of the client in UTF-16.
* `Writable`: A string that the client's escapes are enough for.
* `IsName`: A message type that needs no escapes.
* `Delivered`: A line that leads to one event of the framer.
* `Readable`: A value that the server reads as it is.
* `escapedValue`, `controlValue`: Values with control characters.

## Theorems

* `literal_escapeJsonString_units`, `numeral_integerText`: Strings and integers.
* `writable_of_stringify`: What the text of a value tells about its strings.
* `delivered_sendLine`: A message.
* `readable_iff`: Which values are read.
* `not_readable_control`: One that is not.
-/

namespace MzzPlork

namespace Wire

open JsonText JsonParse EventChannel

section Strings

/-- A string of the client in UTF-16. -/
def units (t : Bytes) : JsString := (decodeUtf8 t).getD []

theorem units_eq (t : Bytes) (s : JsString) (h : Coded t s) : units t = s := by
  rw [units, decodeUtf8_eq t s h, Option.getD_some]

theorem units_ascii (s : String) (h : s.toList.all (fun c => c.toNat < 128) = true) :
    units (ascii s) = js s := units_eq _ _ (EventChannel.coded_ascii s h)

theorem units_textBytes (cs : List Char) : units (textBytes cs) = textUnits cs :=
  units_eq _ _ ⟨cs, rfl, rfl⟩

/-- Different strings stay different. -/
theorem units_injective (t t' : Bytes) (ht : IsUtf8 t) (ht' : IsUtf8 t')
    (h : units t = units t') : t = t' := by
  rcases ht with ⟨cs, rfl⟩
  rcases ht' with ⟨cs', rfl⟩
  rw [units_textBytes, units_textBytes] at h
  rw [← utf8_of_spelt _ _ (Rfc8259.spelt_textUnits cs), h,
    utf8_of_spelt _ _ (Rfc8259.spelt_textUnits cs')]

/-- A string that the client's escapes are enough for. -/
def Writable (s : Bytes) : Prop := ∀ b ∈ s, Rfc8259.IsLegal b

theorem writable_of_all (s : Bytes)
    (h : s.all (fun b => 32 ≤ b || b = 9 || b = 10 || b = 13) = true) : Writable s := by
  intro b hb
  have hbyte := List.all_eq_true.mp h b hb
  simp only [Bool.or_eq_true, decide_eq_true_eq, or_assoc] at hbyte
  exact hbyte

theorem escapeJsonString_append (s t : Bytes) :
    escapeJsonString (s ++ t) = escapeJsonString s ++ escapeJsonString t := List.flatMap_append

theorem escapeChar_raw (b : UInt8) (h : b ≠ 34 ∧ b ≠ 92 ∧ b ≠ 10 ∧ b ≠ 9 ∧ b ≠ 13) :
    JsonText.escapeChar b = [b] := by
  rcases h with ⟨h34, h92, h10, h9, h13⟩
  unfold JsonText.escapeChar
  split <;> first | rfl | contradiction

theorem escapeJsonString_raw (s : Bytes)
    (h : ∀ b ∈ s, b ≠ 34 ∧ b ≠ 92 ∧ b ≠ 10 ∧ b ≠ 9 ∧ b ≠ 13) : escapeJsonString s = s := by
  induction s with
  | nil => rfl
  | cons b s ih =>
      rw [escapeJsonString, List.flatMap_cons, escapeChar_raw b (h b List.mem_cons_self),
        ← escapeJsonString, ih (fun x hx => h x (List.mem_cons_of_mem b hx))]
      rfl

/-- The bytes of a character that has no escape. -/
theorem escapeJsonString_char (c : Char)
    (h : c.toNat ≠ 34 ∧ c.toNat ≠ 92 ∧ c.toNat ≠ 10 ∧ c.toNat ≠ 9 ∧ c.toNat ≠ 13) :
    escapeJsonString (String.utf8EncodeChar c) = String.utf8EncodeChar c := by
  rcases h with ⟨h34, h92, h10, h9, h13⟩
  refine escapeJsonString_raw _ (fun b hb => ⟨utf8EncodeChar_ne c 34 (by decide) h34 b hb,
    utf8EncodeChar_ne c 92 (by decide) h92 b hb, utf8EncodeChar_ne c 10 (by decide) h10 b hb,
    utf8EncodeChar_ne c 9 (by decide) h9 b hb, utf8EncodeChar_ne c 13 (by decide) h13 b hb⟩)

/-- A character with a short escape. -/
theorem literal_short (c : Char) (esc b : UInt8) (s : JsString) (t : Bytes)
    (hc : c.toNat = b.toNat) (hb : b.toNat < 128) (he : JsonText.unescape esc = some b)
    (htext : JsonText.escapeChar b = [92, esc]) (ht : Rfc8259.Literal s t) :
    Rfc8259.Literal (unitsOf c ++ s) (escapeJsonString (String.utf8EncodeChar c) ++ t) := by
  have hbyte : b.toNat.toUInt8 = b := UInt8.ofNat_toNat
  rw [unitsOf_ascii c (by omega), utf8EncodeChar_ascii c (by omega), hc, hbyte, escapeJsonString,
    List.flatMap_singleton, htext]
  exact Rfc8259.Literal.escape esc b s t he ht

theorem literal_char (c : Char) (s : JsString) (t : Bytes)
    (hc : Writable (String.utf8EncodeChar c)) (ht : Rfc8259.Literal s t) :
    Rfc8259.Literal (unitsOf c ++ s) (escapeJsonString (String.utf8EncodeChar c) ++ t) := by
  by_cases h34 : c.toNat = 34
  · exact literal_short c 34 34 s t h34 (by decide) rfl rfl ht
  by_cases h92 : c.toNat = 92
  · exact literal_short c 92 92 s t h92 (by decide) rfl rfl ht
  by_cases h10 : c.toNat = 10
  · exact literal_short c 110 10 s t h10 (by decide) rfl rfl ht
  by_cases h9 : c.toNat = 9
  · exact literal_short c 116 9 s t h9 (by decide) rfl rfl ht
  by_cases h13 : c.toNat = 13
  · exact literal_short c 114 13 s t h13 (by decide) rfl rfl ht
  have hctl : 32 ≤ c.toNat := by
    by_contra hlt
    have hbyte := hc c.toNat.toUInt8 (by
      rw [utf8EncodeChar_ascii c (by omega)]
      exact List.mem_singleton_self _)
    rw [Rfc8259.IsLegal, UInt8.le_iff_toNat_le, ← UInt8.toNat_inj, ← UInt8.toNat_inj,
      ← UInt8.toNat_inj, Nat.toUInt8, UInt8.toNat_ofNat', Nat.mod_eq_of_lt (by omega)] at hbyte
    simp only [UInt8.reduceToNat] at hbyte
    omega
  rw [escapeJsonString_char c ⟨h34, h92, h10, h9, h13⟩]
  exact Rfc8259.Literal.char c s t hctl h34 h92 ht

/-- A string is written as a literal of the standard. -/
theorem literal_escapeJsonString_units (s : Bytes) (hs : IsUtf8 s) (hw : Writable s) :
    Rfc8259.Literal (units s) (escapeJsonString s) := by
  rcases hs with ⟨cs, rfl⟩
  rw [units_textBytes]
  induction cs with
  | nil => exact Rfc8259.Literal.nil
  | cons c cs ih =>
      have hsplit : textBytes (c :: cs) = String.utf8EncodeChar c ++ textBytes cs :=
        List.flatMap_cons
      rw [hsplit] at hw ⊢
      rw [escapeJsonString_append]
      exact literal_char c _ _ (fun b hb => hw b (List.mem_append_left _ hb))
        (ih (fun b hb => hw b (List.mem_append_right _ hb)))

/-- What is written tells about the string. -/
theorem writable_of_escapeJsonString (s : Bytes)
    (h : ∀ b ∈ escapeJsonString s, Rfc8259.IsLegal b) : Writable s := by
  intro b hb
  by_cases hshort : b = 34 ∨ b = 92 ∨ b = 10 ∨ b = 9 ∨ b = 13
  · rcases hshort with rfl | rfl | rfl | rfl | rfl <;> unfold Rfc8259.IsLegal <;> decide
  · simp only [not_or] at hshort
    refine h b (List.mem_flatMap.mpr ⟨b, hb, ?_⟩)
    rw [escapeChar_raw b hshort]
    exact List.mem_singleton_self b

end Strings

section Values

/-- An integer is written as a number of the standard. -/
theorem numeral_integerText (n : Int) : Rfc8259.Numeral n (integerText n) := by
  have hmk : ∀ whole, AreDigits whole → whole ≠ [] → (whole.head? = some 0 → whole = [0]) →
      Nat.ofDigits 10 whole.reverse = n.natAbs → natText n.natAbs = digitsText whole →
      Rfc8259.Numeral n (integerText n) := by
    intro whole hw hne hzero hval htext
    have h := Rfc8259.Numeral.mk (decide (n < 0)) whole [] 0 [] hw hne hzero
      (fun _ hd => absurd hd List.not_mem_nil) Rfc8259.Exponent.absent
    rw [List.append_nil, List.append_nil, hval, List.length_nil, Int.natCast_zero, sub_zero,
      zpow_zero, mul_one, signed_natAbs, fractionText, if_pos rfl, List.append_nil] at h
    rw [integerText_eq, htext]
    exact h
  by_cases hn : n.natAbs = 0
  · refine hmk [0] (areDigits_replicate 1) (List.cons_ne_nil 0 []) (fun _ => rfl) ?_ ?_
    · rw [hn]
      rfl
    · rw [natText, if_pos hn]
  · refine hmk (Nat.digits 10 n.natAbs).reverse ?_ ?_ ?_ ?_ ?_
    · exact fun d hd => Nat.digits_lt_base (by decide) (List.mem_reverse.mp hd)
    · exact fun hc => hn (Nat.digits_eq_nil_iff_eq_zero.mp (List.reverse_eq_nil_iff.mp hc))
    · intro hhead
      rw [List.head?_reverse] at hhead
      have hlast := Nat.getLast_digit_ne_zero 10 hn
      rw [List.getLast?_eq_some_getLast (Nat.digits_ne_nil_iff_ne_zero.mpr hn)] at hhead
      exact absurd (Option.some.inj hhead) hlast
    · rw [List.reverse_reverse, Nat.ofDigits_digits]
    · rw [natText, if_neg hn]

theorem numberText_of_isSafeInteger (q : Rat) (h : IsSafeInteger q) :
    numberText q = integerText q.num := if_pos (JsonText.isLongLong_of_isSafeInteger q h)

theorem numeral_numberText_of_isSafeInteger (q : Rat) (h : IsSafeInteger q) :
    Rfc8259.Numeral q (numberText q) := by
  have hnum := numeral_integerText q.num
  rwa [num_of_isLongLong q (JsonText.isLongLong_of_isSafeInteger q h),
    ← numberText_of_isSafeInteger q h] at hnum

/-- A value whose strings are texts, whose numbers are integers and whose objects are maps. -/
def Proper (v : ClientValue) : Prop := v.Everywhere IsUtf8 IsSafeInteger IsMap

/-- The text of a value is one that denotes it. -/
theorem spells_units (v : ClientValue) (hv : Proper v)
    (hw : v.Everywhere Writable (fun _ => True) (fun _ => True)) :
    Spells Rfc8259.lexicon (.value (v.transform units id id)) (stringify v) :=
  spells_transform Rfc8259.lexicon units id
    (fun s hs => literal_escapeJsonString_units s hs.1 hs.2)
    (fun q hq => numeral_numberText_of_isSafeInteger q hq.1) v (v.everywhere_and hv hw)

theorem mem_itemsText (b : UInt8) (v : ClientValue) (items : List ClientValue) (hv : v ∈ items)
    (hb : b ∈ stringify v) : b ∈ itemsText items := by
  induction items with
  | nil => exact absurd hv List.not_mem_nil
  | cons w items ih =>
      rw [itemsText]
      rcases List.mem_cons.mp hv with rfl | hv
      · exact List.mem_append_left _ hb
      · rw [List.isEmpty_eq_false_iff.mpr (List.ne_nil_of_mem hv), if_neg Bool.false_ne_true]
        exact List.mem_append_right _ (List.mem_append_right _ (ih hv))

theorem mem_fieldsText (b : UInt8) (e : Bytes × ClientValue) (fields : ClientObject)
    (he : e ∈ fields) (hb : b ∈ escapeJsonString e.1 ∨ b ∈ stringify e.2) :
    b ∈ fieldsText fields := by
  induction fields with
  | nil => exact absurd he List.not_mem_nil
  | cons d fields ih =>
      rw [fieldsText]
      rcases List.mem_cons.mp he with rfl | he
      · refine List.mem_append_left _ ?_
        rcases hb with hb | hb
        · refine List.mem_append_left _ (List.mem_append_left _ ?_)
          exact List.mem_append_left _ (List.mem_append_right _ hb)
        · exact List.mem_append_right _ hb
      · rw [List.isEmpty_eq_false_iff.mpr (List.ne_nil_of_mem he), if_neg Bool.false_ne_true]
        exact List.mem_append_right _ (List.mem_append_right _ (ih he))

/-- What the text of a value tells about its strings. -/
theorem writable_of_stringify (v : ClientValue) (h : ∀ b ∈ stringify v, Rfc8259.IsLegal b) :
    v.Everywhere Writable (fun _ => True) (fun _ => True) := by
  induction v using Json.tree_induction with
  | null => trivial
  | bool b => trivial
  | num q => trivial
  | str s =>
      exact writable_of_escapeJsonString s (fun b hb =>
        h b (List.mem_append_left _ (List.mem_append_right _ hb)))
  | arr items ih =>
      rw [stringify] at h
      refine (Json.everywhere_arr _ _ _ items).mpr (fun v hv => ih v hv (fun b hb => ?_))
      exact h b (List.mem_append_left _ (List.mem_append_right _ (mem_itemsText b v items hv hb)))
  | obj fields ih =>
      rw [stringify] at h
      have hfields : ∀ b ∈ fieldsText fields, Rfc8259.IsLegal b := fun b hb =>
        h b (List.mem_append_left _ (List.mem_append_right _ hb))
      refine (Json.everywhere_obj _ _ _ fields).mpr ⟨trivial, fun e he => ⟨?_, ?_⟩⟩
      · exact writable_of_escapeJsonString e.1 (fun b hb =>
          hfields b (mem_fieldsText b e fields he (Or.inl hb)))
      · exact ih e he (fun b hb => hfields b (mem_fieldsText b e fields he (Or.inr hb)))

end Values

section Messages

variable (toNumber : JsString → JsNumber) (syntaxErrorText : JsString → JsString)

/-- What the language makes of an integer. -/
def ReadsIntegers : Prop :=
  ∀ n : Int, n.natAbs < 2 ^ 53 → toNumber (wide (integerText n)) = .finite n

/-- The value as the server has it. -/
def served (v : ClientValue) : JsValue := v.transform units JsNumber.finite id

theorem assignAll_append (o fields : List (JsString × JsValue))
    (h : ((o ++ fields).map Prod.fst).Nodup) : assignAll o fields = o ++ fields := by
  induction fields generalizing o with
  | nil => exact (List.append_nil o).symm
  | cons e fields ih =>
      have hfresh : e.1 ∉ o.map Prod.fst := by
        rw [List.map_append, List.map_cons] at h
        exact fun hmem => (List.nodup_append.mp h).2.2 _ hmem _ List.mem_cons_self rfl
      have hassoc : o ++ e :: fields = (o ++ [e]) ++ fields := by
        rw [List.append_assoc, List.singleton_append]
      have htail := ih (o ++ [e]) (by rwa [← hassoc])
      rw [hassoc, ← htail]
      exact congrArg (fun o => assignAll o fields) (setField_fresh o e.1 e.2 hfresh)

/-- The members of a map, in UTF-16, assigned one after the other. -/
theorem assignAll_units (fields : ClientObject) (h : Bytes × ClientValue → JsValue)
    (hmap : IsMap (fields.map Prod.fst)) (hutf : ∀ e ∈ fields, IsUtf8 e.1) :
    assignAll [] (fields.map (fun e => (units e.1, h e)))
      = fields.map (fun e => (units e.1, h e)) := by
  refine assignAll_append [] _ ?_
  rw [List.nil_append, List.map_map,
    show (Prod.fst ∘ fun e : Bytes × ClientValue => (units e.1, h e)) = units ∘ Prod.fst from rfl,
    ← List.map_map]
  refine List.Nodup.map_on (fun a ha b hb hab => ?_)
    (hmap.imp (fun {a b} hlt (heq : a = b) => List.lt_irrefl b (heq ▸ hlt)))
  rcases List.mem_map.mp ha with ⟨e, he, rfl⟩
  rcases List.mem_map.mp hb with ⟨e', he', rfl⟩
  exact units_injective _ _ (hutf e he) (hutf e' he') hab

/-- The text of a value is read as the value. -/
theorem spells_served (hN : ReadsIntegers toNumber) (v : ClientValue) (hv : Proper v)
    (hw : v.Everywhere Writable (fun _ => True) (fun _ => True)) :
    Spells (readerLexicon toNumber) (.value (served v)) (stringify v) := by
  have hspells := spells_transform (readerLexicon toNumber) units JsNumber.finite
    (fun s hs => literal_escapeJsonString_units s hs.1 hs.2)
    (fun q hq => ⟨⟨q, numeral_numberText_of_isSafeInteger q hq.1⟩, by
      have hnum := hN q.num hq.1.2
      rwa [num_of_isLongLong q (JsonText.isLongLong_of_isSafeInteger q hq.1),
        ← numberText_of_isSafeInteger q hq.1] at hnum⟩)
    v (v.everywhere_and hv hw)
  rw [served, ← Json.transform_congr units JsNumber.finite (o := assignAll [])
    (fun fields h hmap hutf => assignAll_units fields h hmap hutf) v hv]
  exact hspells

/-- A message type that needs no escapes. -/
def IsName (type : Bytes) : Prop := IsUtf8 type ∧ ∀ b ∈ type, 32 ≤ b ∧ b ≠ 34 ∧ b ≠ 92

theorem isName_ascii (k : String) (h : k.toList.all (fun c => c.toNat < 128) = true)
    (hplain : (ascii k).all (fun b => 32 ≤ b && b != 34 && b != 92) = true) :
    IsName (ascii k) := by
  refine ⟨(coded_ascii k h).isUtf8, fun b hb => ?_⟩
  have hbyte := List.all_eq_true.mp hplain b hb
  simp only [Bool.and_eq_true, decide_eq_true_eq, bne_iff_ne] at hbyte
  exact ⟨hbyte.1.1, hbyte.1.2, hbyte.2⟩

/-- A character of a name. -/
theorem name_char (c : Char) (h : ∀ b ∈ String.utf8EncodeChar c, 32 ≤ b ∧ b ≠ 34 ∧ b ≠ 92) :
    32 ≤ c.toNat ∧ c.toNat ≠ 34 ∧ c.toNat ≠ 92 := by
  by_cases hascii : c.toNat < 128
  · rw [utf8EncodeChar_ascii c hascii] at h
    have hbyte := h _ (List.mem_singleton_self _)
    rw [UInt8.le_iff_toNat_le, ne_eq, ne_eq, ← UInt8.toNat_inj, ← UInt8.toNat_inj, Nat.toUInt8,
      UInt8.toNat_ofNat', Nat.mod_eq_of_lt (by omega)] at hbyte
    exact hbyte
  · omega

theorem literal_name (type : Bytes) (h : IsName type) : Rfc8259.Literal (units type) type := by
  rcases h with ⟨⟨cs, rfl⟩, hbytes⟩
  rw [units_textBytes]
  induction cs with
  | nil => exact Rfc8259.Literal.nil
  | cons c cs ih =>
      have hsplit : textBytes (c :: cs) = String.utf8EncodeChar c ++ textBytes cs :=
        List.flatMap_cons
      rw [hsplit] at hbytes ⊢
      rcases name_char c (fun b hb => hbytes b (List.mem_append_left _ hb)) with
        ⟨hctl, hquote, hback⟩
      exact Rfc8259.Literal.char c _ _ hctl hquote hback
        (ih (fun b hb => hbytes b (List.mem_append_right _ hb)))

/-- The line leads to one event, in whichever chunks it comes. -/
def Delivered (line : Bytes) (event : FramerEvent) : Prop :=
  ∃ s, decodeUtf8 line = some s ∧ ∀ (f : MessageFramer) (chunks : List JsString), f.buffer = [] →
    chunks.flatten = s → chunks.foldl (MessageFramer.onData toNumber syntaxErrorText) f
      = ⟨[], f.emitted ++ [event]⟩

theorem head_of_coded (b : UInt8) (hb : b.toNat < 128) (t : Bytes) (s : JsString)
    (h : Coded (b :: t) s) : ∃ s', s = b.toUInt16 :: s' := by
  have hdecode := decodeUtf8_eq _ s h
  rw [show b :: t = [b] ++ t from rfl, decodeUtf8_coded [b] t _ (coded_byte b hb)] at hdecode
  rcases Option.map_eq_some_iff.mp hdecode with ⟨s', -, heq⟩
  exact ⟨s', heq.symm⟩

theorem trim_ne_nil (s : JsString) (u : UInt16) (hu : u ∈ s) (h : isTrimmed u = false) :
    trim s ≠ [] := by
  intro hnil
  rw [trim, List.reverse_eq_nil_iff, List.dropWhile_eq_nil_iff] at hnil
  have hmem : u ∈ s.dropWhile isTrimmed := by
    have hsplit := List.takeWhile_append_dropWhile (p := isTrimmed) (l := s)
    rw [← hsplit] at hu
    rcases List.mem_append.mp hu with htake | hdrop
    · exact Bool.noConfusion (h.symm.trans (List.mem_takeWhile_imp htake))
    · exact hdrop
  exact Bool.noConfusion (h.symm.trans (hnil u (List.mem_reverse.mpr hmem)))

/-- A line of its own. -/
theorem delivered_line (t : Bytes) (s : JsString) (hcoded : Coded t s) (hline : OneLine t)
    (hblank : trim s ≠ []) :
    Delivered toNumber syntaxErrorText (t ++ [10]) (lineEvent toNumber syntaxErrorText s) := by
  have hfree : 10 ∉ s := fun hmem => hline 10 (mem_of_coded 10 (by decide) t s hcoded hmem) rfl
  refine ⟨s ++ [10], decodeUtf8_eq _ _ (coded_append t [10] s [10] hcoded
    (coded_ascii "\n" rfl)), ?_⟩
  rintro ⟨buffer, emitted⟩ chunks rfl hflat
  have hframes := Delimited.frames_piece 10 s [] hfree
  rw [MessageFramer.foldl_onData_eq toNumber syntaxErrorText _ List.not_mem_nil, hflat,
    List.nil_append, hframes, MessageFramer.flatMap_lineEvents, List.filter_cons,
    if_pos (decide_eq_true hblank)]
  rfl

/-- A message. The line has the members in the order they are written in. -/
theorem delivered_sendLine (type payload : Bytes) (v : JsValue) (htype : IsName type)
    (hline : OneLine payload) (htruthy : v.truthy = true)
    (hv : Spells (readerLexicon toNumber) (.value v) payload) :
    Delivered toNumber syntaxErrorText (sendLine type payload) (.message (units type) v) := by
  have hne : payload ≠ [] := by
    refine Spells.ne_nil (L := readerLexicon toNumber) (fun n t hn => ?_) hv
    rcases hn.1 with ⟨q, hq⟩
    exact (Rfc8259.numeral_client q t hq).1
  have htypeKey := literal_name (ascii "type") (isName_ascii "type" rfl rfl)
  have hpayloadKey := literal_name (ascii "payload") (isName_ascii "payload" rfl rfl)
  rw [units_eq _ _ (coded_ascii "type" rfl)] at htypeKey
  rw [units_eq _ _ (coded_ascii "payload" rfl)] at hpayloadKey
  have hspells := spells_lineText (L := readerLexicon toNumber) (js "type") (js "payload")
    (units type) v type payload htypeKey hpayloadKey (literal_name type htype) hv
  -- Every text is read, so it is enough that the line is one.
  rcases jsonParse_text toNumber _ [] _ [] (fun _ hb => absurd hb List.not_mem_nil)
    (fun _ hb => absurd hb List.not_mem_nil) hspells with ⟨s, hcoded, hparse⟩
  rw [List.append_nil, List.nil_append] at hcoded
  have hevent : lineEvent toNumber syntaxErrorText s = .message (units type) v := by
    have hfields : (readerLexicon toNumber).object
        [(js "type", Json.str (units type)), (js "payload", v)]
        = [(js "type", Json.str (units type)), (js "payload", v)] := rfl
    rw [hfields] at hparse
    rw [lineEvent, hparse]
    exact congrArg (FramerEvent.message (units type)) (if_pos htruthy)
  have hname : OneLine type := by
    rintro b hb rfl
    exact absurd (htype.2 10 hb).1 (by decide)
  -- The line is not blank, as it begins with a brace.
  rw [sendLine_eq type payload hne, ← hevent]
  refine delivered_line toNumber syntaxErrorText _ s hcoded
    (oneLine_lineText type payload hname hline) ?_
  rcases head_of_coded 123 (by decide) _ s hcoded with ⟨s', rfl⟩
  exact trim_ne_nil _ 123 List.mem_cons_self rfl

/-- A value that the server reads as it is, by itself and in a message. -/
structure Readable (v : ClientValue) : Prop where
  text : Rfc8259.IsText (v.transform units id id) (stringify v)
  line : OneLine (stringify v)
  message : ∀ fields, v = .obj fields → ∀ type, IsName type →
    Delivered toNumber syntaxErrorText (sendLine type (stringify v))
      (.message (units type) (served v))

/-- The escapes are enough for a value that asks for no others. -/
theorem readable_of_writable (hN : ReadsIntegers toNumber) (v : ClientValue) (hv : Proper v)
    (hw : v.Everywhere Writable (fun _ => True) (fun _ => True)) :
    Readable toNumber syntaxErrorText v := by
  have hline : OneLine (stringify v) := oneLine_of_line _ _ (spells_stringify v)
  refine ⟨⟨[], stringify v, [], (List.append_nil _).symm, Lexicon.blank_nil _,
    Lexicon.blank_nil _, spells_units v hv hw⟩, hline, ?_⟩
  rintro fields rfl type htype
  exact delivered_sendLine toNumber syntaxErrorText type _ _ htype hline rfl
    (spells_served toNumber hN (.obj fields) hv hw)

/-- Which values are read. -/
theorem readable_iff (hN : ReadsIntegers toNumber) (v : ClientValue) (hv : Proper v) :
    Readable toNumber syntaxErrorText v
      ↔ v.Everywhere Writable (fun _ => True) (fun _ => True) :=
  ⟨fun h => writable_of_stringify v (Rfc8259.legal_of_isText _ _ h.text),
    readable_of_writable toNumber syntaxErrorText hN v hv⟩

/-- Numbers without rounding. -/
def decimal (s : JsString) : JsNumber := .finite ((numberOf (s.map UInt16.toUInt8)).getD 0)

theorem readsIntegers_decimal : ReadsIntegers decimal := by
  intro n _
  have hback : (wide (integerText n)).map UInt16.toUInt8 = integerText n := by
    rw [wide, List.map_map]
    exact List.map_id'' (fun b => UInt8.toUInt8_toUInt16 b) _
  rw [decimal, hback, numberOf_integerText, Option.getD_some]

/-- The three control characters that have an escape, and a letter of two bytes. -/
def escapedValue : ClientValue :=
  .obj [([97, 9], .arr [.str [195, 169, 10, 13, 34], .num (-42), .null])]

theorem readable_escaped : Readable decimal (fun _ => []) escapedValue :=
  (readable_iff decimal (fun _ => []) readsIntegers_decimal escapedValue
    ⟨by decide, ⟨[Char.ofNat 97, Char.ofNat 9], by decide⟩,
      ⟨⟨[Char.ofNat 233, Char.ofNat 10, Char.ofNat 13, Char.ofNat 34], by decide⟩,
        ⟨rfl, by decide⟩, trivial, trivial⟩, trivial⟩).mpr
    ⟨trivial, writable_of_all _ rfl, ⟨writable_of_all _ rfl, trivial, trivial, trivial⟩, trivial⟩

/-- A control character without one. -/
def controlValue : ClientValue := .obj [(ascii "text", .str [1])]

theorem not_readable_control :
    ¬ ∀ (toNumber : JsString → JsNumber) (syntaxErrorText : JsString → JsString),
      ReadsIntegers toNumber → ∀ v, Proper v → Readable toNumber syntaxErrorText v := by
  intro h
  have hread := h decimal (fun _ => []) readsIntegers_decimal controlValue
    ⟨List.pairwise_singleton _ _, ⟨"text".toList, by decide⟩, ⟨[Char.ofNat 1], by decide⟩, trivial⟩
  have hlegal := Rfc8259.legal_of_isText _ _ hread.text 1 (by decide)
  unfold Rfc8259.IsLegal at hlegal
  exact absurd hlegal (by decide)

end Messages

end Wire

end MzzPlork
