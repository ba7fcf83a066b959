import MzzPlork.Core.Protocol
import MzzPlork.Theory.Writing

/-!
# What the Server Writes

`JSON.stringify` and the socket's UTF-8 turn a value into a text of the
grammar on one line, as long as its strings are well-formed and its numbers
are integers of a magnitude below 2^53. The text stands for the value with its
strings in UTF-8.

UTF-8 is applied to the whole text, and a pair of surrogates is two code units
of it. What is shown of each piece is therefore how it comes out in front of
anything else.

## Main definitions

* `Spelt`: A piece of the text and its bytes.
* `Plain`: The values that the server writes faithfully.
* `clientOf`: A value as the client has it.

## Theorems

* `spelt_quoteUnits`: A string.
* `spelt_numberUnits`: A number.
* `spelt_jsonStringify`: A value.
* `onWire_clientOf`: Writing such a value again does not change it.
* `utf8_injective`, `lookup_clientOf`: Different keys stay different.
-/

namespace MzzPlork

namespace Wire

open JsonText

section Characters

theorem chars_unit (u : UInt16) (s : JsString) (hu : (isHigh u || isLow u) = false) :
    chars (u :: s) = unitChar u :: chars s := by
  have hhigh : isHigh u = false := (Bool.or_eq_false_iff.mp hu).1
  cases s with
  | nil => rfl
  | cons u' s => rw [chars, hhigh, Bool.false_and, if_neg Bool.false_ne_true]

theorem chars_pair (u u' : UInt16) (s : JsString) (h : (isHigh u && isLow u') = true) :
    chars (u :: u' :: s) = pairChar u u' :: chars s := by
  rw [chars, if_pos h]

theorem toNat_ofNat (n : Nat) (h : n.isValidChar) : (Char.ofNat n).toNat = n := by
  rw [Char.ofNat, dif_pos h]
  rfl

/-- A code unit that is no surrogate is a character by itself. -/
theorem toNat_unitChar (u : UInt16) (hu : (isHigh u || isLow u) = false) :
    (unitChar u).toNat = u.toNat := by
  rw [unitChar, hu, if_neg Bool.false_ne_true]
  refine toNat_ofNat u.toNat ?_
  have hlt := u.toNat_lt
  simp only [isHigh, isLow, Bool.or_eq_false_iff, Bool.and_eq_false_iff, decide_eq_false_iff_not,
    UInt16.le_iff_toNat_le, UInt16.lt_iff_toNat_lt, UInt16.reduceToNat] at hu
  simp only [Nat.isValidChar]
  omega

theorem toNat_pairChar (u u' : UInt16) (h : (isHigh u && isLow u') = true) :
    (pairChar u u').toNat
      = 0x10000 + (u.toNat - 0xD800) * 0x400 + (u'.toNat - 0xDC00) := by
  refine toNat_ofNat _ ?_
  simp only [isHigh, isLow, Bool.and_eq_true, decide_eq_true_eq, UInt16.le_iff_toNat_le,
    UInt16.lt_iff_toNat_lt, UInt16.reduceToNat] at h
  simp only [Nat.isValidChar]
  omega

/-- ASCII is one byte. -/
theorem utf8EncodeChar_ascii (c : Char) (h : c.toNat < 128) :
    String.utf8EncodeChar c = [c.toNat.toUInt8] := by
  have hle : c.val.toNat ≤ 127 := Nat.le_of_lt_succ h
  rw [String.utf8EncodeChar]
  simp only [hle, if_true]
  rfl

/-- Everything else has no byte of ASCII. -/
theorem utf8EncodeChar_high (c : Char) (h : 128 ≤ c.toNat) :
    ∀ b ∈ String.utf8EncodeChar c, 128 ≤ b.toNat := by
  have hle : ¬ c.val.toNat ≤ 127 := Nat.not_le_of_lt h
  rw [String.utf8EncodeChar]
  simp only [hle, if_false]
  split_ifs <;> simp only [List.forall_mem_cons, List.not_mem_nil, false_implies, implies_true,
    and_true, UInt8.toNat_ofNat'] <;> omega

theorem utf8EncodeChar_raw (c : Char) (h : 128 ≤ c.toNat) :
    ∀ b ∈ String.utf8EncodeChar c, b ≠ 34 ∧ b ≠ 92 ∧ b ≠ 10 := by
  intro b hb
  have hhigh := utf8EncodeChar_high c h b hb
  refine ⟨?_, ?_, ?_⟩ <;> rintro rfl <;> exact absurd hhigh (by decide)

end Characters

section Pieces

/-- A piece of a text and its bytes, whatever follows. -/
def Spelt (s : JsString) (t : Bytes) : Prop := ∀ r, utf8 (s ++ r) = t ++ utf8 r

theorem spelt_nil : Spelt [] [] := fun _ => rfl

theorem spelt_append (s s' : JsString) (t t' : Bytes) (h : Spelt s t) (h' : Spelt s' t') :
    Spelt (s ++ s') (t ++ t') := by
  intro r
  rw [List.append_assoc, h, h', List.append_assoc]

theorem utf8_of_spelt (s : JsString) (t : Bytes) (h : Spelt s t) : utf8 s = t := by
  have hnil := h []
  rwa [List.append_nil, show utf8 [] = [] from rfl, List.append_nil] at hnil

theorem spelt_unit (u : UInt16) (hu : (isHigh u || isLow u) = false) :
    Spelt [u] (String.utf8EncodeChar (unitChar u)) := by
  intro r
  rw [List.singleton_append, utf8, chars_unit u r hu, List.flatMap_cons]
  rfl

theorem spelt_pair (u u' : UInt16) (h : (isHigh u && isLow u') = true) :
    Spelt [u, u'] (String.utf8EncodeChar (pairChar u u')) := by
  intro r
  rw [List.cons_append, List.singleton_append, utf8, chars_pair u u' r h, List.flatMap_cons]
  rfl

theorem not_surrogate_ascii (u : UInt16) (h : u.toNat < 128) : (isHigh u || isLow u) = false := by
  simp only [isHigh, isLow, Bool.or_eq_false_iff, Bool.and_eq_false_iff, decide_eq_false_iff_not,
    UInt16.le_iff_toNat_le, UInt16.lt_iff_toNat_lt, UInt16.reduceToNat]
  omega

/-- A code unit of ASCII. -/
theorem spelt_ascii_unit (u : UInt16) (h : u.toNat < 128) : Spelt [u] [u.toUInt8] := by
  have hu := not_surrogate_ascii u h
  have hchar := toNat_unitChar u hu
  have hspelt := spelt_unit u hu
  rw [utf8EncodeChar_ascii (unitChar u) (by rw [hchar]; exact h), hchar] at hspelt
  exact hspelt

/-- ASCII text, such as the literals of the writer. -/
theorem spelt_ascii (s : JsString) (h : s.all (fun u => u.toNat < 128) = true) :
    Spelt s (s.map UInt16.toUInt8) := by
  induction s with
  | nil => exact spelt_nil
  | cons u s ih =>
      rw [List.all_cons, Bool.and_eq_true, decide_eq_true_eq] at h
      exact spelt_append [u] s [u.toUInt8] _ (spelt_ascii_unit u h.1) (ih h.2)

end Pieces

section Strings

/-- A piece of a spelling. -/
def Extends (s t : Bytes) : Prop := OneLine t ∧ ∀ s' t', Body s' t' → Body (s ++ s') (t ++ t')

theorem extends_append (s s' t t' : Bytes) (h : Extends s t) (h' : Extends s' t') :
    Extends (s ++ s') (t ++ t') := by
  refine ⟨List.forall_mem_append.mpr ⟨h.1, h'.1⟩, fun s'' t'' ht => ?_⟩
  rw [List.append_assoc, List.append_assoc]
  exact h.2 _ _ (h'.2 s'' t'' ht)

/-- Bytes that stand for themselves. -/
theorem extends_raw (t : Bytes) (h : ∀ b ∈ t, b ≠ 34 ∧ b ≠ 92 ∧ b ≠ 10) : Extends t t := by
  induction t with
  | nil => exact ⟨fun _ hb => absurd hb List.not_mem_nil, fun _ _ ht => ht⟩
  | cons b t ih =>
      rcases h b List.mem_cons_self with ⟨h34, h92, h10⟩
      rcases ih (fun x hx => h x (List.mem_cons_of_mem b hx)) with ⟨hline, hbody⟩
      exact ⟨List.forall_mem_cons.mpr ⟨h10, hline⟩,
        fun s' t' ht => Body.raw b _ _ h34 h92 (hbody s' t' ht)⟩

theorem extends_escape (esc b : UInt8) (h : unescape esc = some b) (hesc : esc ≠ 10) :
    Extends [b] [92, esc] :=
  ⟨List.forall_mem_cons.mpr ⟨by decide, List.forall_mem_singleton.mpr hesc⟩,
    fun s' t' ht => Body.escape esc b s' t' h ht⟩

theorem extends_unicode (hex : Bytes) (hh : hex.length = 4) (hline : OneLine hex) :
    Extends [codeUnit hex] (92 :: 117 :: hex) :=
  ⟨List.forall_mem_cons.mpr ⟨by decide, List.forall_mem_cons.mpr ⟨by decide, hline⟩⟩,
    fun s' t' ht => Body.unicode hex s' t' hh ht⟩

/-- A character outside of ASCII. -/
theorem extends_high (c : Char) (h : 128 ≤ c.toNat) :
    Extends (String.utf8EncodeChar c) (String.utf8EncodeChar c) :=
  extends_raw _ (utf8EncodeChar_raw c h)

/-- The escapes of the control characters. -/
theorem unicodeEscape_control : ∀ n : Fin 32,
    ∃ hex, (unicodeEscape n.val.toUInt16).map UInt16.toUInt8 = 92 :: 117 :: hex ∧
      hex.length = 4 ∧ hex.all (· != 10) = true ∧ codeUnit hex = n.val.toUInt8 ∧
      (unicodeEscape n.val.toUInt16).all (fun u => u.toNat < 128) = true := by
  intro n
  refine ⟨((unicodeEscape n.val.toUInt16).map UInt16.toUInt8).drop 2, ?_⟩
  revert n
  decide

theorem byte_ne (u : UInt16) (b : UInt8) (h : u.toNat < 128) (hne : u ≠ b.toUInt16) :
    u.toNat.toUInt8 ≠ b := by
  rintro rfl
  refine hne (UInt16.toNat_inj.mp ?_)
  rw [UInt8.toNat_toUInt16, Nat.toUInt8, UInt8.toNat_ofNat']
  omega

/-- A code unit outside of a pair is written so that it is read back. -/
theorem spelt_quoteUnit (u : UInt16) (hu : (isHigh u || isLow u) = false) :
    ∃ t, Extends (String.utf8EncodeChar (unitChar u)) t ∧ Spelt (quoteUnit u) t := by
  unfold quoteUnit
  split
  · exact ⟨[92, 98], extends_escape 98 8 rfl (by decide), spelt_ascii (js "\\b") rfl⟩
  · exact ⟨[92, 116], extends_escape 116 9 rfl (by decide), spelt_ascii (js "\\t") rfl⟩
  · exact ⟨[92, 110], extends_escape 110 10 rfl (by decide), spelt_ascii (js "\\n") rfl⟩
  · exact ⟨[92, 102], extends_escape 102 12 rfl (by decide), spelt_ascii (js "\\f") rfl⟩
  · exact ⟨[92, 114], extends_escape 114 13 rfl (by decide), spelt_ascii (js "\\r") rfl⟩
  · exact ⟨[92, 34], extends_escape 34 34 rfl (by decide), spelt_ascii (js "\\\"") rfl⟩
  · exact ⟨[92, 92], extends_escape 92 92 rfl (by decide), spelt_ascii (js "\\\\") rfl⟩
  · next _ _ h10 _ _ h34 h92 =>
      rw [Bool.or_assoc, hu, Bool.or_false]
      have hchar := toNat_unitChar u hu
      by_cases hctl : u < 32
      · rw [if_pos (decide_eq_true hctl)]
        have hlt : u.toNat < 32 := UInt16.lt_iff_toNat_lt.mp hctl
        rcases unicodeEscape_control ⟨u.toNat, hlt⟩ with ⟨hex, htext, hlen, hline, hcode, hascii⟩
        rw [show u.toNat.toUInt16 = u from UInt16.ofNat_toNat] at htext hascii
        rw [utf8EncodeChar_ascii _ (by rw [hchar]; omega), hchar, ← hcode]
        refine ⟨92 :: 117 :: hex, extends_unicode hex hlen (oneLine_of_all hex hline), ?_⟩
        rw [← htext]
        exact spelt_ascii _ hascii
      · rw [if_neg (by rw [decide_eq_true_eq]; exact hctl)]
        refine ⟨_, ?_, spelt_unit u hu⟩
        by_cases hlow : u.toNat < 128
        · rw [utf8EncodeChar_ascii _ (by rw [hchar]; exact hlow), hchar]
          exact extends_raw _ (List.forall_mem_singleton.mpr
            ⟨byte_ne u 34 hlow h34, byte_ne u 92 hlow h92, byte_ne u 10 hlow h10⟩)
        · exact extends_high _ (by rw [hchar]; omega)

theorem high_pairChar (u u' : UInt16) (h : (isHigh u && isLow u') = true) :
    128 ≤ (pairChar u u').toNat := by
  rw [toNat_pairChar u u' h]
  omega

/-- A string is written so that it is read back. -/
theorem spelt_quoteUnits (s : JsString) (h : isWellFormed s = true) :
    ∃ t, Extends (utf8 s) t ∧ Spelt (quoteUnits s) t := by
  fun_induction isWellFormed s with
  | case1 => exact ⟨[], extends_raw [] (fun _ hb => absurd hb List.not_mem_nil), spelt_nil⟩
  | case2 u =>
      have hu : (isHigh u || isLow u) = false := by rwa [Bool.not_eq_true'] at h
      rw [utf8_of_spelt _ _ (spelt_unit u hu), quoteUnits]
      exact spelt_quoteUnit u hu
  | case3 u u' s hpair ih =>
      rcases ih h with ⟨t, ht, hs⟩
      have hutf : utf8 (u :: u' :: s) = String.utf8EncodeChar (pairChar u u') ++ utf8 s :=
        spelt_pair u u' hpair s
      rw [quoteUnits, if_pos hpair, hutf]
      exact ⟨_, extends_append _ _ _ t (extends_high _ (high_pairChar u u' hpair)) ht,
        spelt_append [u, u'] _ _ t (spelt_pair u u' hpair) hs⟩
  | case4 u u' s hpair ih =>
      rw [Bool.and_eq_true, Bool.not_eq_true'] at h
      rcases ih h.2 with ⟨t, ht, hs⟩
      rcases spelt_quoteUnit u h.1 with ⟨tu, htu, hsu⟩
      have hutf : utf8 (u :: u' :: s) = String.utf8EncodeChar (unitChar u) ++ utf8 (u' :: s) :=
        spelt_unit u h.1 (u' :: s)
      rw [quoteUnits, if_neg hpair, hutf]
      exact ⟨tu ++ t, extends_append _ _ tu t htu ht, spelt_append _ _ tu t hsu hs⟩

/-- A string with its quotes. -/
theorem spelt_quote (s : JsString) (h : isWellFormed s = true) :
    ∃ t, lineLexicon.literal (utf8 s) t ∧ Spelt (quote s) (34 :: t ++ [34]) := by
  rcases spelt_quoteUnits s h with ⟨t, ⟨hline, hbody⟩, hs⟩
  have hlit := hbody [] [] Body.nil
  rw [List.append_nil, List.append_nil] at hlit
  refine ⟨t, ⟨hlit, hline⟩, ?_⟩
  exact spelt_append _ _ (34 :: t) [34] (spelt_append _ _ [34] t (spelt_ascii (js "\"") rfl) hs)
    (spelt_ascii (js "\"") rfl)

end Strings

section Values

/-- The number itself. An infinite one has none. -/
def rational (n : JsNumber) : Rat :=
  match n with
  | .finite q => q
  | .infinite _ => 0

/-- The values with well-formed strings and integers of a magnitude below 2^53. -/
def Plain (v : JsValue) : Prop :=
  v.Everywhere (fun s => isWellFormed s = true) (fun n => isSafeInteger n = true) (fun _ => True)

instance (v : JsValue) : Decidable (Plain v) := by
  unfold Plain
  infer_instance

/-- A value as the client has it: its strings in UTF-8, its objects as maps. -/
def clientOf (v : JsValue) : ClientValue := v.transform utf8 rational (setAll [])

/-- The bytes of an ASCII text, as code units. -/
theorem spelt_units (t : Bytes) (h : ∀ b ∈ t, b.toNat < 128) : Spelt (t.map UInt8.toUInt16) t := by
  have hall : (t.map UInt8.toUInt16).all (fun u => u.toNat < 128) = true := by
    refine List.all_eq_true.mpr (fun u hu => decide_eq_true ?_)
    rcases List.mem_map.mp hu with ⟨b, hb, rfl⟩
    rw [UInt8.toNat_toUInt16]
    exact h b hb
  have hs := spelt_ascii (t.map UInt8.toUInt16) hall
  have hback : (t.map UInt8.toUInt16).map UInt16.toUInt8 = t := by
    rw [List.map_map]
    exact List.map_id'' (fun b => UInt8.toUInt8_toUInt16 b) t
  rwa [hback] at hs

theorem ascii_of_isNumberByte (b : UInt8) (h : isNumberByte b = true) : b.toNat < 128 := by
  simp only [isNumberByte, isDigit, Bool.or_eq_true, Bool.and_eq_true, decide_eq_true_eq,
    UInt8.le_iff_toNat_le, ← UInt8.toNat_inj, UInt8.reduceToNat] at h
  omega

/-- An integer of a magnitude below 2^53 is in the range of `long long`. -/
theorem isLongLong_of_isSafeInteger (n : JsNumber) (h : isSafeInteger n = true) :
    isLongLong (rational n) = true := by
  cases n with
  | infinite negative => exact Bool.noConfusion h
  | finite q =>
      rcases of_decide_eq_true h with ⟨hden, hnum⟩
      refine decide_eq_true ⟨hden, ?_, ?_⟩ <;> simp only [rational] <;> omega

/-- A number is written as on the client. -/
theorem spelt_numberUnits (fmt : NumberFormat) (n : JsNumber) (h : isSafeInteger n = true) :
    ∃ t, lineLexicon.numeral (rational n) t ∧ Spelt (numberUnits fmt n) t := by
  have hint := isLongLong_of_isSafeInteger n h
  have hnum := numeral_numberText (rational n)
  rw [wireNumber, if_pos hint, numberText, if_pos hint] at hnum
  refine ⟨integerText (rational n).num, hnum, ?_⟩
  cases n with
  | infinite negative => exact Bool.noConfusion h
  | finite q =>
      rw [numberUnits, if_pos h]
      exact spelt_units _ (fun b hb => ascii_of_isNumberByte b (hnum.2.1 b hb))

theorem spelt_stringifyItems (fmt : NumberFormat) (v : JsValue) (items : List JsValue)
    (h : ∀ w ∈ v :: items, ∃ t, Spells lineLexicon (.value (clientOf w)) t ∧
      Spelt (jsonStringify fmt w) t) :
    ∃ t, Spells lineLexicon (.items ((v :: items).map clientOf)) t ∧
      Spelt (stringifyItems fmt (v :: items)) t := by
  rcases h v List.mem_cons_self with ⟨t, ht, hs⟩
  induction items generalizing v t with
  | nil =>
      rw [stringifyItems, List.isEmpty_nil, if_pos rfl, List.append_nil]
      exact ⟨t, Spells.item_compact ht, hs⟩
  | cons w items ih =>
      rcases h w (List.mem_cons_of_mem v List.mem_cons_self) with ⟨tw, htw, hsw⟩
      rcases ih w (fun x hx => h x (List.mem_cons_of_mem v hx)) tw htw hsw with ⟨ts, hts, hss⟩
      rw [stringifyItems, List.isEmpty_cons, if_neg Bool.false_ne_true]
      exact ⟨t ++ 44 :: ts, Spells.items_compact ht hts, spelt_append _ _ t _ hs
        (spelt_append (js ",") _ [44] ts (spelt_ascii (js ",") rfl) hss)⟩

/-- A member of an object. -/
theorem spelt_member (fmt : NumberFormat) (k : JsString) (v : JsValue) (kt t : Bytes)
    (hk : Spelt (quote k) (34 :: kt ++ [34])) (ht : Spelt (jsonStringify fmt v) t) :
    Spelt (quote k ++ js ":" ++ jsonStringify fmt v) (34 :: kt ++ [34, 58] ++ t) := by
  have h := spelt_append _ _ _ t (spelt_append _ (js ":") _ [58] hk (spelt_ascii (js ":") rfl))
    ht
  rwa [List.append_assoc (34 :: kt)] at h

theorem spelt_stringifyFields (fmt : NumberFormat) (f : JsString × JsValue)
    (fields : List (JsString × JsValue)) (hk : ∀ e ∈ f :: fields, isWellFormed e.1 = true)
    (h : ∀ e ∈ f :: fields, ∃ t, Spells lineLexicon (.value (clientOf e.2)) t ∧
      Spelt (jsonStringify fmt e.2) t) :
    ∃ t, Spells lineLexicon (.members ((f :: fields).map (fun e => (utf8 e.1, clientOf e.2)))) t ∧
      Spelt (stringifyFields fmt (f :: fields)) t := by
  rcases h f List.mem_cons_self with ⟨t, ht, hs⟩
  rcases spelt_quote f.1 (hk f List.mem_cons_self) with ⟨kt, hkt, hks⟩
  induction fields generalizing f kt t with
  | nil =>
      rw [stringifyFields, List.isEmpty_nil, if_pos rfl, List.append_nil]
      exact ⟨_, Spells.member_compact hkt ht, spelt_member fmt f.1 f.2 kt t hks hs⟩
  | cons e fields ih =>
      have he := List.mem_cons_of_mem f (List.mem_cons_self (a := e) (l := fields))
      rcases h e he with ⟨te, hte, hse⟩
      rcases spelt_quote e.1 (hk e he) with ⟨ke, hke, hkse⟩
      rcases ih e (fun x hx => hk x (List.mem_cons_of_mem f hx))
        (fun x hx => h x (List.mem_cons_of_mem f hx)) te hte hse ke hke hkse with ⟨ts, hts, hss⟩
      rw [stringifyFields, List.isEmpty_cons, if_neg Bool.false_ne_true]
      exact ⟨_, Spells.members_compact hkt ht hts, spelt_append _ _ _ _
        (spelt_member fmt f.1 f.2 kt t hks hs)
        (spelt_append (js ",") _ [44] ts (spelt_ascii (js ",") rfl) hss)⟩

/-- A value is written so that it is read back. -/
theorem spelt_jsonStringify (fmt : NumberFormat) (v : JsValue) (hv : Plain v) :
    ∃ t, Spells lineLexicon (.value (clientOf v)) t ∧ Spelt (jsonStringify fmt v) t := by
  induction v using Json.tree_induction with
  | null => exact ⟨_, Spells.null, spelt_ascii (js "null") rfl⟩
  | bool b =>
      cases b with
      | true => exact ⟨_, Spells.true, spelt_ascii (js "true") rfl⟩
      | false => exact ⟨_, Spells.false, spelt_ascii (js "false") rfl⟩
  | num n =>
      rcases spelt_numberUnits fmt n hv with ⟨t, ht, hs⟩
      exact ⟨t, Spells.num _ t ht, hs⟩
  | str s =>
      rcases spelt_quote s hv with ⟨t, ht, hs⟩
      exact ⟨_, Spells.str _ t ht, hs⟩
  | arr items ih =>
      rw [Plain, Json.everywhere_arr] at hv
      rw [clientOf, Json.transform_arr, jsonStringify]
      -- An array without items has a text of its own.
      cases items with
      | nil => exact ⟨_, Spells.emptyArr [] lineLexicon.blank_nil, spelt_ascii (js "[]") rfl⟩
      | cons v items =>
          rcases spelt_stringifyItems fmt v items (fun w hw => ih w hw (hv w hw)) with ⟨t, ht, hs⟩
          exact ⟨_, Spells.arr _ t ht, spelt_append _ _ (91 :: t) [93]
            (spelt_append _ _ [91] t (spelt_ascii (js "[") rfl) hs)
            (spelt_ascii (js "]") rfl)⟩
  | obj fields ih =>
      rw [Plain, Json.everywhere_obj] at hv
      rw [clientOf, Json.transform_obj, jsonStringify]
      cases fields with
      | nil =>
          exact ⟨_, Spells.emptyObj [] lineLexicon.blank_nil, spelt_ascii (js "\x7b\x7d") rfl⟩
      | cons f fields =>
          rcases spelt_stringifyFields fmt f fields (fun e he => (hv.2 e he).1)
            (fun e he => ih e he (hv.2 e he).2) with ⟨t, ht, hs⟩
          exact ⟨_, Spells.obj _ t ht, spelt_append _ _ (123 :: t) [125]
            (spelt_append _ _ [123] t (spelt_ascii (js "\x7b") rfl) hs)
            (spelt_ascii (js "\x7d") rfl)⟩

/-- Writing such a value again does not change it. -/
theorem onWire_clientOf (v : JsValue) (hv : Plain v) : onWire (clientOf v) = clientOf v :=
  onWire_of_everywhere _ (Json.everywhere_transform utf8 rational (setAll []) (fun _ _ => trivial)
    (fun n hn => Or.inl (isLongLong_of_isSafeInteger n hn)) isMap_fields mem_fields v hv)

end Values

section Keys

theorem unitsOf_unitChar (u : UInt16) (hu : (isHigh u || isLow u) = false) :
    unitsOf (unitChar u) = [u] := by
  rw [unitsOf, toNat_unitChar u hu, if_pos u.toNat_lt, show u.toNat.toUInt16 = u from
    UInt16.ofNat_toNat]

theorem unitsOf_pairChar (u u' : UInt16) (h : (isHigh u && isLow u') = true) :
    unitsOf (pairChar u u') = [u, u'] := by
  rw [unitsOf, toNat_pairChar u u' h, if_neg (by omega)]
  simp only [isHigh, isLow, Bool.and_eq_true, decide_eq_true_eq, UInt16.le_iff_toNat_le,
    UInt16.lt_iff_toNat_lt, UInt16.reduceToNat] at h
  have hhigh : 0xD800 + (0x10000 + (u.toNat - 0xD800) * 0x400 + (u'.toNat - 0xDC00) - 0x10000)
      / 0x400 = u.toNat := by omega
  have hlow : 0xDC00 + (0x10000 + (u.toNat - 0xD800) * 0x400 + (u'.toNat - 0xDC00)) % 0x400
      = u'.toNat := by omega
  rw [hhigh, hlow]
  exact congrArg₂ (fun a b => [a, b]) UInt16.ofNat_toNat UInt16.ofNat_toNat

/-- A character is one code unit that is no half of a pair, or it is a pair. -/
theorem unitsOf_cases (c : Char) :
    (∃ u, unitsOf c = [u] ∧ u.toNat = c.toNat ∧ (isHigh u || isLow u) = false ∧ unitChar u = c) ∨
      (0x10000 ≤ c.toNat ∧ ∃ u u', unitsOf c = [u, u'] ∧ (isHigh u && isLow u') = true ∧
        pairChar u u' = c) := by
  have hvalid : c.toNat < 0xD800 ∨ 0xDFFF < c.toNat ∧ c.toNat < 0x110000 := c.valid
  by_cases hone : c.toNat < 0x10000
  · have hnat : c.toNat.toUInt16.toNat = c.toNat := by
      rw [Nat.toUInt16, UInt16.toNat_ofNat', Nat.mod_eq_of_lt hone]
    have hplain : (isHigh c.toNat.toUInt16 || isLow c.toNat.toUInt16) = false := by
      simp only [isHigh, isLow, Bool.or_eq_false_iff, Bool.and_eq_false_iff,
        decide_eq_false_iff_not, UInt16.le_iff_toNat_le, UInt16.lt_iff_toNat_lt,
        UInt16.reduceToNat, hnat]
      omega
    refine Or.inl ⟨_, if_pos hone, hnat, hplain, ?_⟩
    rw [unitChar, hplain, if_neg Bool.false_ne_true, hnat, Char.ofNat_toNat]
  · have hhigh : (0xD800 + (c.toNat - 0x10000) / 0x400).toUInt16.toNat
        = 0xD800 + (c.toNat - 0x10000) / 0x400 := by
      rw [Nat.toUInt16, UInt16.toNat_ofNat', Nat.mod_eq_of_lt (by omega)]
    have hlow : (0xDC00 + c.toNat % 0x400).toUInt16.toNat = 0xDC00 + c.toNat % 0x400 := by
      rw [Nat.toUInt16, UInt16.toNat_ofNat', Nat.mod_eq_of_lt (by omega)]
    refine Or.inr ⟨Nat.le_of_not_lt hone, _, _, if_neg hone, ?_, ?_⟩
    · simp only [isHigh, isLow, Bool.and_eq_true, decide_eq_true_eq, UInt16.le_iff_toNat_le,
        UInt16.lt_iff_toNat_lt, UInt16.reduceToNat, hhigh, hlow]
      omega
    · have hsum : 0x10000 + (0xD800 + (c.toNat - 0x10000) / 0x400 - 0xD800) * 0x400
          + (0xDC00 + c.toNat % 0x400 - 0xDC00) = c.toNat := by omega
      rw [pairChar, hhigh, hlow, hsum, Char.ofNat_toNat]

/-- A well-formed string is made of its characters. -/
theorem flatMap_chars (s : JsString) (h : isWellFormed s = true) :
    (chars s).flatMap unitsOf = s := by
  fun_induction isWellFormed s with
  | case1 => rfl
  | case2 u =>
      rw [Bool.not_eq_true'] at h
      rw [chars, List.flatMap_singleton, unitsOf_unitChar u h]
  | case3 u u' s hpair ih =>
      rw [chars_pair u u' s hpair, List.flatMap_cons, unitsOf_pairChar u u' hpair, ih h]
      rfl
  | case4 u u' s hpair ih =>
      rw [Bool.and_eq_true, Bool.not_eq_true'] at h
      rw [chars_unit u _ h.1, List.flatMap_cons, unitsOf_unitChar u h.1, ih h.2]
      rfl

/-- Different strings have different bytes. -/
theorem utf8_injective (s s' : JsString) (hs : isWellFormed s = true)
    (hs' : isWellFormed s' = true) (h : utf8 s = utf8 s') : s = s' := by
  have hbytes : (chars s).utf8Encode = (chars s').utf8Encode := congrArg List.toByteArray h
  have hstrings : String.ofList (chars s) = String.ofList (chars s') :=
    String.toByteArray_inj.mp (by rw [String.toByteArray_ofList, String.toByteArray_ofList, hbytes])
  rw [← flatMap_chars s hs, ← flatMap_chars s' hs', String.ofList_injective hstrings]

theorem lookup_map_utf8 (fields : List (JsString × JsValue)) (k : JsString)
    (hk : isWellFormed k = true) (h : ∀ e ∈ fields, isWellFormed e.1 = true) :
    (fields.map (fun e => (utf8 e.1, clientOf e.2))).lookup (utf8 k)
      = (fields.lookup k).map clientOf := by
  induction fields with
  | nil => rfl
  | cons e fields ih =>
      have htail := ih (fun x hx => h x (List.mem_cons_of_mem e hx))
      rw [List.map_cons, List.lookup_cons, List.lookup_cons, htail]
      by_cases heq : k = e.1
      · rw [beq_iff_eq.mpr heq, beq_iff_eq.mpr (congrArg utf8 heq)]
        rfl
      · rw [beq_eq_false_iff_ne.mpr heq, beq_eq_false_iff_ne.mpr
          (fun hc => heq (utf8_injective k e.1 hk (h e List.mem_cons_self) hc))]

/-- The client finds the value of a property under its key, and nothing else. -/
theorem lookup_clientOf (fields : List (JsString × JsValue)) (hv : Plain (.obj fields))
    (hnodup : (fields.map Prod.fst).Nodup) (k : JsString) (hk : isWellFormed k = true) :
    (ClientValue.objectOrEmpty (clientOf (.obj fields))).lookup (utf8 k)
      = (fields.lookup k).map clientOf := by
  rw [Plain, Json.everywhere_obj] at hv
  have hwell : ∀ e ∈ fields, isWellFormed e.1 = true := fun e he => (hv.2 e he).1
  have hkeys : ((fields.map (fun e => (utf8 e.1, clientOf e.2))).map Prod.fst).Nodup := by
    rw [List.map_map]
    refine List.Nodup.of_map (f := fun b => b) ?_
    rw [List.map_id', show (Prod.fst ∘ fun e : JsString × JsValue => (utf8 e.1, clientOf e.2))
      = utf8 ∘ Prod.fst from rfl, ← List.map_map]
    refine List.Nodup.map_on ?_ hnodup
    intro a ha b hb hab
    rcases List.mem_map.mp ha with ⟨e, he, rfl⟩
    rcases List.mem_map.mp hb with ⟨e', he', rfl⟩
    exact utf8_injective _ _ (hwell e he) (hwell e' he') hab
  rw [clientOf, Json.transform_obj, ClientValue.objectOrEmpty]
  refine (lookup_setAll [] _ hkeys (utf8 k)).trans ?_
  rw [show ((([] : ClientObject).lookup (utf8 k)) = none) from rfl, Option.or_none]
  exact lookup_map_utf8 fields k hk hwell

end Keys

end Wire

end MzzPlork
