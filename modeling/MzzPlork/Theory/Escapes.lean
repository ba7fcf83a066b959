import MzzPlork.Theory.Rfc8259

/-!
# What the Client Makes of Escaped Code Units

The client's parser accepts every text of RFC 8259. Where a text names a code
unit by its number, the parser keeps the low byte of it, so that such a string
comes out in UTF-8 only if all its numbered code units are ASCII.

That no other text is decoded is shown by a measure. The strings and keys of
what the parser returns have as many bytes as those of the value in UTF-8, less
at least one for an escape of another code unit. The numbers, which are rounded
to doubles, do not count in it.

## Main definitions

* `wideEscape`: Whether a text names a code unit outside of ASCII.
* `unitSize`: The bytes of UTF-8 a code unit accounts for.
* `decoded`: The value of a text, with its strings in UTF-8.
* `Decodes`: What the client makes of a phrase.
* `Doubles`: A value whose numbers are all doubles.
* `Decoded`: The parser returns the value of a text.

## Theorems

* `exists_body`: A string.
* `decodes_of_spells`: Every phrase.
* `decoded_iff`: Which texts are decoded.
* `not_decoded_accent`: One that is not.
-/

namespace MzzPlork

namespace Rfc8259

open JsonText Wire

section Scanning

/-- Four digits of a code unit outside of ASCII. -/
def isWide : Bytes → Bool
  | [a, b, c, d] => (fourDigits a b c d).any (128 ≤ ·)
  | _ => false

/-- Whether a code unit outside of ASCII is written by its number. A backslash
    is the first byte of an escape, and is never the last byte of a text. -/
def wideEscape : Bytes → Bool
  | [] => false
  | [_] => false
  | b :: esc :: t =>
    if b = 92 then (esc = 117 && isWide (t.take 4)) || wideEscape t else wideEscape (esc :: t)

theorem wideEscape_cons (b : UInt8) (t : Bytes) (h : b ≠ 92) :
    wideEscape (b :: t) = wideEscape t := by
  cases t with
  | nil => rfl
  | cons esc t => rw [wideEscape, if_neg h]

/-- What a piece of a text adds, whatever follows. -/
def Scans (t : Bytes) (wide : Bool) : Prop := ∀ r, wideEscape (t ++ r) = (wide || wideEscape r)

theorem wideEscape_of_scans (t : Bytes) (wide : Bool) (h : Scans t wide) :
    wideEscape t = wide := by
  have hnil := h []
  rwa [List.append_nil, wideEscape, Bool.or_false] at hnil

theorem scans_nil : Scans [] false := fun _ => (Bool.false_or _).symm

theorem scans_append (t t' : Bytes) (wide wide' : Bool) (h : Scans t wide)
    (h' : Scans t' wide') : Scans (t ++ t') (wide || wide') := by
  intro r
  rw [List.append_assoc, h, h', Bool.or_assoc]

/-- Bytes that are no backslash. -/
theorem scans_raw (t : Bytes) (h : ∀ b ∈ t, b ≠ 92) : Scans t false := by
  induction t with
  | nil => exact scans_nil
  | cons b t ih =>
      intro r
      have htail := ih (fun x hx => h x (List.mem_cons_of_mem b hx)) r
      rw [List.cons_append, wideEscape_cons b _ (h b List.mem_cons_self), htail]

theorem scans_byte (b : UInt8) (h : b ≠ 92) : Scans [b] false :=
  scans_raw [b] (List.forall_mem_singleton.mpr h)

/-- A piece that can be looked at by itself. -/
def Splits (t : Bytes) : Prop := Scans t (wideEscape t)

theorem splits_of_scans (t : Bytes) (wide : Bool) (h : Scans t wide) : Splits t := by
  rw [Splits, wideEscape_of_scans t wide h]
  exact h

theorem splits_append (t t' : Bytes) (h : Splits t) (h' : Splits t') : Splits (t ++ t') :=
  splits_of_scans _ _ (scans_append t t' _ _ h h')

/-- An escape that is no number. -/
theorem wideEscape_escape (esc b : UInt8) (t : Bytes) (h : unescape esc = some b) :
    wideEscape (92 :: esc :: t) = wideEscape t := by
  have hesc : esc ≠ 117 := by
    rintro rfl
    exact absurd h.symm (Option.some_ne_none b)
  rw [wideEscape, if_pos rfl, decide_eq_false hesc, Bool.false_and, Bool.false_or]

theorem hexDigit_ne (b : UInt8) (n : Nat) (h : hexDigit b = some n) : b ≠ 92 := by
  rintro rfl
  exact absurd h.symm (Option.some_ne_none n)

theorem hexDigit_lt (b : UInt8) (n : Nat) (h : hexDigit b = some n) : n < 16 := by
  have hcases := hexDigit_cases b n h
  omega

/-- The number of a code unit. -/
theorem wideEscape_unicode (a b c d : UInt8) (n : Nat) (t : Bytes)
    (hn : fourDigits a b c d = some n) :
    wideEscape (92 :: 117 :: a :: b :: c :: d :: t) = (decide (128 ≤ n) || wideEscape t) := by
  rcases exists_hexDigits a b c d n hn with ⟨na, nb, nc, nd, ha, hb, hc, hd, -⟩
  rw [wideEscape, if_pos rfl, decide_eq_true rfl, Bool.true_and,
    wideEscape_cons a _ (hexDigit_ne a na ha), wideEscape_cons b _ (hexDigit_ne b nb hb),
    wideEscape_cons c _ (hexDigit_ne c nc hc), wideEscape_cons d _ (hexDigit_ne d nd hd)]
  refine congrArg (· || wideEscape t) ?_
  rw [show (a :: b :: c :: d :: t).take 4 = [a, b, c, d] from rfl, isWide, hn, Option.any_some]

theorem splits_literal (s : JsString) (t : Bytes) (h : Literal s t) : Splits t := by
  induction h with
  | nil => exact splits_of_scans [] false scans_nil
  | char c s t _ _ hback _ ih =>
      have hraw := EventChannel.utf8EncodeChar_ne c 92 (by decide) hback
      exact splits_append _ t (splits_of_scans _ _ (scans_raw _ hraw)) ih
  | escape esc b s t he _ ih =>
      intro r
      rw [List.cons_append, List.cons_append, wideEscape_escape esc b _ he,
        wideEscape_escape esc b t he, ih]
  | unicode a b c d n s t hn _ ih =>
      intro r
      have hshape : 92 :: 117 :: a :: b :: c :: d :: t ++ r
          = 92 :: 117 :: a :: b :: c :: d :: (t ++ r) := rfl
      rw [hshape, wideEscape_unicode a b c d n _ hn, wideEscape_unicode a b c d n t hn, ih,
        Bool.or_assoc]

theorem scans_numeral (q : Rat) (t : Bytes) (h : Numeral q t) : Scans t false :=
  scans_raw t (fun b hb => ne_of_isNumberByte b 92 ((numeral_client q t h).2.1 b hb) (by decide))

theorem space_ne (b : UInt8) (h : lexicon.space b) : b ≠ 92 := by
  rcases h with rfl | rfl | rfl | rfl <;> decide

theorem scans_blank (w : Bytes) (h : lexicon.Blank w) : Scans w false :=
  scans_raw w (fun b hb => space_ne b (h b hb))

theorem splits_of_spells (p : Phrase JsString Rat) (t : Bytes) (h : Spells lexicon p t) :
    Splits t := by
  refine Spells.append_closed (L := lexicon) Splits (splits_of_scans [] false scans_nil)
    splits_append (fun b hb => splits_of_scans _ _ (scans_byte b ?_)) splits_literal
    (fun q t ht => splits_of_scans t _ (scans_numeral q t ht))
    (fun b hb => splits_of_scans _ _ (scans_byte b (space_ne b hb))) h
  exact bne_iff_ne.mp (List.all_eq_true.mp
    (show Spells.punctuation.all (· != 92) = true from rfl) b hb)

end Scanning

section Strings

theorem hexDigit_plain (b : UInt8) (n : Nat) (h : hexDigit b = some n) :
    isSpace b = false ∧ b ≠ 45 ∧ b ≠ 43 ∧ b ≠ 120 ∧ b ≠ 88 := by
  have hcases := hexDigit_cases b n h
  simp only [isSpace, Bool.or_eq_false_iff, Bool.and_eq_false_iff, decide_eq_false_iff_not, ne_eq,
    UInt8.le_iff_toNat_le, ← UInt8.toNat_inj, UInt8.reduceToNat]
  omega

/-- `strtol` reads the four digits as they are. -/
theorem codeUnit_fourDigits (a b c d : UInt8) (n : Nat) (h : fourDigits a b c d = some n) :
    codeUnit [a, b, c, d] = n.toUInt8 := by
  rcases exists_hexDigits a b c d n h with ⟨na, nb, nc, nd, ha, hb, hc, hd, hn⟩
  rcases hexDigit_plain a na ha with ⟨hspace, hminus, hplus, -, -⟩
  rcases hexDigit_plain b nb hb with ⟨-, -, -, hx, hX⟩
  have hdrop : [a, b, c, d].dropWhile isSpace = [a, b, c, d] := by
    rw [List.dropWhile_cons, hspace, if_neg Bool.false_ne_true]
  have hsign : signOf [a, b, c, d] = (false, [a, b, c, d]) := by
    rw [signOf]
    · exact fun _ h => hminus (List.cons.inj h).1
    · exact fun _ h => hplus (List.cons.inj h).1
  have hbefore : dropHexPrefix [a, b, c, d] = [a, b, c, d] := by
    rw [dropHexPrefix]
    · exact fun _ h => hx (List.cons.inj (List.cons.inj h).2).1
    · exact fun _ h => hX (List.cons.inj (List.cons.inj h).2).1
  have hvalue : hexValue 0 [a, b, c, d] = n := by
    simp only [hexValue, ha, hb, hc, hd]
    omega
  have hstrtol : strtol16 [a, b, c, d] = n := by
    simp only [strtol16, hdrop, hsign, hbefore, hvalue, Bool.false_eq_true, if_false]
  refine UInt8.toNat_inj.mp ?_
  rw [codeUnit, hstrtol, Nat.toUInt8, UInt8.toNat_ofNat', UInt8.toNat_ofNat']
  omega

/-- The bytes of UTF-8 a code unit accounts for, half of the character where it
    is half of a pair. -/
def unitSize (u : UInt16) : Nat :=
  if u.toNat < 0x80 then 1 else if u.toNat < 0x800 ∨ (isHigh u || isLow u) = true then 2 else 3

/-- The bytes of a string. -/
def unitsSize (s : JsString) : Nat := (s.map unitSize).sum

theorem unitsSize_append (s s' : JsString) :
    unitsSize (s ++ s') = unitsSize s + unitsSize s' := by
  rw [unitsSize, List.map_append, List.sum_append]
  rfl

theorem unitSize_wide (u : UInt16) (h : 128 ≤ u.toNat) : 2 ≤ unitSize u := by
  rw [unitSize, if_neg (by omega)]
  split <;> decide

/-- Half of a pair. -/
theorem unitSize_half (u : UInt16) (h : (isHigh u || isLow u) = true) : unitSize u = 2 := by
  have hge : 0xD800 ≤ u.toNat := by
    simp only [isHigh, isLow, Bool.or_eq_true, Bool.and_eq_true, decide_eq_true_eq,
      UInt16.le_iff_toNat_le, UInt16.lt_iff_toNat_lt, UInt16.reduceToNat] at h
    omega
  rw [unitSize, if_neg (by omega), if_pos (Or.inr h)]

theorem unitsSize_unitsOf (c : Char) :
    unitsSize (unitsOf c) = (String.utf8EncodeChar c).length := by
  have hval : c.val.toNat = c.toNat := rfl
  rcases unitsOf_cases c with ⟨u, hunits, hnat, hplain, -⟩ | ⟨hge, u, u', hunits, hpair, -⟩
  · have hlt := u.toNat_lt
    rw [hunits, unitsSize, List.map_singleton, List.sum_singleton, unitSize, hnat, hplain,
      String.utf8EncodeChar, hval]
    simp only [Bool.false_eq_true, or_false]
    split_ifs <;> first | rfl | omega
  · rw [Bool.and_eq_true] at hpair
    rw [hunits, unitsSize, List.map_cons, List.map_singleton, List.sum_cons, List.sum_singleton,
      unitSize_half u (by rw [hpair.1, Bool.true_or]),
      unitSize_half u' (by rw [hpair.2, Bool.or_true]), String.utf8EncodeChar, hval]
    split_ifs <;> first | rfl | omega

theorem unitsSize_textUnits (cs : List Char) :
    unitsSize (cs.flatMap unitsOf) = (cs.flatMap String.utf8EncodeChar).length := by
  induction cs with
  | nil => rfl
  | cons c cs ih =>
      rw [List.flatMap_cons, List.flatMap_cons, unitsSize_append, List.length_append,
        unitsSize_unitsOf, ih]

theorem length_utf8 (s : JsString) (h : isWellFormed s = true) :
    (utf8 s).length = unitsSize s := by
  have hsize := unitsSize_textUnits (chars s)
  rw [flatMap_chars s h] at hsize
  exact hsize.symm

theorem body_raw (u s t : Bytes) (hu : ∀ b ∈ u, b ≠ 34 ∧ b ≠ 92) (h : Body s t) :
    Body (u ++ s) (u ++ t) := by
  induction u with
  | nil => exact h
  | cons b u ih =>
      rcases hu b List.mem_cons_self with ⟨hquote, hback⟩
      exact Body.raw b _ _ hquote hback (ih (fun x hx => hu x (List.mem_cons_of_mem b hx)))

theorem ascii_of_unescape (esc b : UInt8) (h : unescape esc = some b) : b.toNat < 128 :=
  of_decide_eq_true (unescape_all (fun _ b => b.toNat < 128) rfl esc b h)

/-- What the client makes of a string: its UTF-8, or less than that. -/
theorem exists_body (s : JsString) (t : Bytes) (h : Literal s t) :
    ∃ s', Body s' t ∧ (wideEscape t = false → Spelt s s') ∧
      s'.length + (wideEscape t).toNat ≤ unitsSize s := by
  induction h with
  | nil => exact ⟨[], Body.nil, fun _ => spelt_nil, le_refl _⟩
  | char c s t _ hquote hback _ ih =>
      rcases ih with ⟨s', hbody, hspelt, hsize⟩
      have hraw : ∀ b ∈ String.utf8EncodeChar c, b ≠ 34 ∧ b ≠ 92 := fun b hb =>
        ⟨EventChannel.utf8EncodeChar_ne c 34 (by decide) hquote b hb,
          EventChannel.utf8EncodeChar_ne c 92 (by decide) hback b hb⟩
      have hscan : wideEscape (String.utf8EncodeChar c ++ t) = wideEscape t := by
        rw [scans_raw _ (fun b hb => (hraw b hb).2), Bool.false_or]
      refine ⟨_, body_raw _ s' t hraw hbody, fun hw => ?_, ?_⟩
      · rw [hscan] at hw
        exact spelt_append _ s _ s' (spelt_unitsOf c) (hspelt hw)
      · rw [hscan, List.length_append, unitsSize_append, unitsSize_unitsOf]
        omega
  | escape esc b s t he _ ih =>
      rcases ih with ⟨s', hbody, hspelt, hsize⟩
      have hb := ascii_of_unescape esc b he
      refine ⟨b :: s', Body.escape esc b s' t he hbody, fun hw => ?_, ?_⟩
      · rw [wideEscape_escape esc b t he] at hw
        have hunit := spelt_ascii_unit b.toUInt16 (by rwa [UInt8.toNat_toUInt16])
        rw [UInt8.toUInt8_toUInt16] at hunit
        exact spelt_append [b.toUInt16] s [b] s' hunit (hspelt hw)
      · have hone : unitSize b.toUInt16 = 1 := if_pos (by rwa [UInt8.toNat_toUInt16])
        rw [wideEscape_escape esc b t he, List.length_cons, unitsSize, List.map_cons,
          List.sum_cons, hone, ← unitsSize]
        omega
  | unicode a b c d n s t hn _ ih =>
      rcases ih with ⟨s', hbody, hspelt, hsize⟩
      rcases exists_hexDigits a b c d n hn with ⟨na, nb, nc, nd, ha, hb, hc, hd, hvalue⟩
      -- Four digits are a code unit, of which the client keeps the low byte.
      have hlt : n < 65536 := by
        have := hexDigit_lt a na ha
        have := hexDigit_lt b nb hb
        have := hexDigit_lt c nc hc
        have := hexDigit_lt d nd hd
        omega
      have hnat : n.toUInt16.toNat = n := by
        rw [Nat.toUInt16, UInt16.toNat_ofNat', Nat.mod_eq_of_lt hlt]
      refine ⟨_, Body.unicode [a, b, c, d] s' t rfl hbody, fun hw => ?_, ?_⟩
      · rw [wideEscape_unicode a b c d n t hn, Bool.or_eq_false_iff, decide_eq_false_iff_not] at hw
        have hunit := spelt_ascii_unit n.toUInt16 (by omega)
        have hbyte : n.toUInt16.toUInt8 = n.toUInt8 := by
          refine UInt8.toNat_inj.mp ?_
          rw [UInt16.toNat_toUInt8, hnat, Nat.toUInt8, UInt8.toNat_ofNat']
        rw [hbyte, ← codeUnit_fourDigits a b c d n hn] at hunit
        exact spelt_append [n.toUInt16] s _ s' hunit (hspelt hw.2)
      · rw [wideEscape_unicode a b c d n t hn, List.length_cons, unitsSize, List.map_cons,
          List.sum_cons, ← unitsSize]
        by_cases hwide : 128 ≤ n
        · have htwo := unitSize_wide n.toUInt16 (by omega)
          rw [decide_eq_true hwide, Bool.true_or, Bool.toNat_true]
          omega
        · have hone : unitSize n.toUInt16 = 1 := if_pos (by omega)
          rw [decide_eq_false hwide, Bool.false_or, hone]
          omega

end Strings

section Sizes

theorem sizeFields_set_le (o : ClientObject) (k : Bytes) (v : ClientValue) :
    Json.sizeFields List.length (o.set k v)
      ≤ Json.sizeFields List.length o + (k.length + v.size List.length) := by
  induction o with
  | nil => exact le_of_eq (Nat.zero_add _).symm
  | cons e o ih =>
      rw [ClientObject.set]
      split_ifs with hlt heq
      · rw [Json.sizeFields, Nat.add_comm]
      · rw [Json.sizeFields, Json.sizeFields]
        omega
      · rw [Json.sizeFields, Json.sizeFields]
        omega

/-- A key that is not there yet. -/
theorem sizeFields_set (o : ClientObject) (k : Bytes) (v : ClientValue)
    (h : k ∉ o.map Prod.fst) :
    Json.sizeFields List.length (o.set k v)
      = Json.sizeFields List.length o + (k.length + v.size List.length) := by
  induction o with
  | nil => exact (Nat.zero_add _).symm
  | cons e o ih =>
      rw [List.map_cons, List.mem_cons, not_or] at h
      rw [ClientObject.set, if_neg h.1]
      split_ifs with hlt
      · rw [Json.sizeFields, Nat.add_comm]
      · rw [Json.sizeFields, Json.sizeFields, ih h.2]
        omega

theorem sizeFields_setAll_le (o fields : ClientObject) :
    Json.sizeFields List.length (setAll o fields)
      ≤ Json.sizeFields List.length o + Json.sizeFields List.length fields := by
  induction fields generalizing o with
  | nil => exact Nat.le_add_right _ _
  | cons e fields ih =>
      have hset := sizeFields_set_le o e.1 e.2
      have hrest := ih (o.set e.1 e.2)
      rw [Json.sizeFields]
      exact Nat.le_trans hrest (by omega)

/-- Where no key is assigned twice. -/
theorem sizeFields_setAll (o fields : ClientObject)
    (hfresh : ∀ k ∈ fields.map Prod.fst, k ∉ o.map Prod.fst)
    (h : (fields.map Prod.fst).Nodup) :
    Json.sizeFields List.length (setAll o fields)
      = Json.sizeFields List.length o + Json.sizeFields List.length fields := by
  induction fields generalizing o with
  | nil => exact (Nat.add_zero _).symm
  | cons e fields ih =>
      rcases List.nodup_cons.mp h with ⟨he, hnodup⟩
      have hset := sizeFields_set o e.1 e.2 (hfresh e.1 List.mem_cons_self)
      have hnext : ∀ k ∈ fields.map Prod.fst, k ∉ (o.set e.1 e.2).map Prod.fst := by
        intro k hk hmem
        rcases List.mem_map.mp hmem with ⟨d, hd, rfl⟩
        rcases mem_set o e.1 e.2 d hd with rfl | hd
        · exact he hk
        · exact hfresh d.1 (List.mem_cons_of_mem _ hk) (List.mem_map_of_mem hd)
      have hrest := ih (o.set e.1 e.2) hnext hnodup
      rw [Json.sizeFields]
      exact hrest.trans (by omega)

end Sizes

section Phrases

/-- The value of a text, with its strings in UTF-8 and its objects as maps. -/
def decoded (v : Json JsString Rat) : ClientValue := v.transform utf8 id (setAll [])

/-- The members of an object, likewise. -/
def decodedFields (fields : List (JsString × Json JsString Rat)) : ClientObject :=
  fields.map (fun e => (utf8 e.1, decoded e.2))

theorem decoded_arr (vs : List (Json JsString Rat)) :
    decoded (.arr vs) = .arr (vs.map decoded) := Json.transform_arr _ _ _ vs

theorem decoded_obj (fields : List (JsString × Json JsString Rat)) :
    decoded (.obj fields) = .obj (setAll [] (decodedFields fields)) :=
  Json.transform_obj _ _ _ fields

theorem nodup_utf8 (ks : List JsString) (hk : ∀ k ∈ ks, isWellFormed k = true) (h : ks.Nodup) :
    (ks.map utf8).Nodup :=
  h.map_on (fun a ha b hb hab => utf8_injective a b (hk a ha) (hk b hb) hab)

/-- A value without lone surrogates, whose objects repeat no name. -/
def Tidy (v : Json JsString Rat) : Prop :=
  v.Everywhere (fun s => isWellFormed s = true) (fun _ => True) List.Nodup

/-- What the client makes of a phrase. -/
def Decodes : Phrase JsString Rat → Bytes → Prop
  | .value v, t => ∃ v', Spells clientLexicon (.value v') t ∧
      (wideEscape t = false → v' = decoded v) ∧
      (Tidy v → v'.size List.length + (wideEscape t).toNat ≤ (decoded v).size List.length)
  | .items vs, t => ∃ vs', Spells clientLexicon (.items vs') t ∧
      (wideEscape t = false → vs' = vs.map decoded) ∧
      ((∀ v ∈ vs, Tidy v) → Json.sizeItems List.length vs' + (wideEscape t).toNat
        ≤ Json.sizeItems List.length (vs.map decoded))
  | .members fields, t => ∃ fields', Spells clientLexicon (.members fields') t ∧
      (wideEscape t = false → fields' = decodedFields fields) ∧
      ((∀ e ∈ fields, isWellFormed e.1 = true ∧ Tidy e.2) →
        Json.sizeFields List.length fields' + (wideEscape t).toNat
          ≤ Json.sizeFields List.length (decodedFields fields))

theorem client_blank (w : Bytes) (h : lexicon.Blank w) : clientLexicon.Blank w := by
  intro b hb
  rcases h b hb with rfl | rfl | rfl | rfl <;> rfl

theorem toNat_or_le (a b : Bool) : (a || b).toNat ≤ a.toNat + b.toNat := by
  cases a <;> cases b <;> decide

theorem scans_between (b b' : UInt8) (t : Bytes) (wide : Bool) (hb : b ≠ 92) (hb' : b' ≠ 92)
    (h : Scans t wide) : Scans (b :: t ++ [b']) wide := by
  have hscans := scans_append _ [b'] _ _ (scans_append [b] t _ _ (scans_byte b hb) h)
    (scans_byte b' hb')
  rwa [Bool.false_or, Bool.or_false] at hscans

theorem scans_padded (w t w' : Bytes) (wide : Bool) (hw : lexicon.Blank w)
    (hw' : lexicon.Blank w') (h : Scans t wide) : Scans (w ++ t ++ w') wide := by
  have hscans := scans_append _ w' _ _ (scans_append w t _ _ (scans_blank w hw) h)
    (scans_blank w' hw')
  rwa [Bool.false_or, Bool.or_false] at hscans

theorem scans_cons (b : UInt8) (t : Bytes) (wide : Bool) (hb : b ≠ 92) (h : Scans t wide) :
    Scans (b :: t) wide := by
  have hscans := scans_append [b] t _ _ (scans_byte b hb) h
  rwa [Bool.false_or] at hscans

theorem scans_member (u kt u' w t w' : Bytes) (wide wide' : Bool) (hu : lexicon.Blank u)
    (hk : Scans kt wide) (hu' : lexicon.Blank u') (hw : lexicon.Blank w) (ht : Scans t wide')
    (hw' : lexicon.Blank w') :
    Scans (u ++ (34 :: kt ++ [34]) ++ u' ++ 58 :: (w ++ t ++ w')) (wide || wide') :=
  scans_append _ _ _ _
    (scans_padded u _ u' _ hu hu' (scans_between 34 34 kt _ (by decide) (by decide) hk))
    (scans_cons 58 _ _ (by decide) (scans_padded w t w' _ hw hw' ht))

theorem decodes_str (s : JsString) (t : Bytes) (ht : Literal s t) :
    Decodes (.value (.str s)) (34 :: t ++ [34]) := by
  rcases exists_body s t ht with ⟨s', hbody, hspelt, hsize⟩
  have hscan := wideEscape_of_scans _ _
    (scans_between 34 34 t _ (by decide) (by decide) (splits_literal s t ht))
  refine ⟨.str s', Spells.str s' t hbody, fun hw => ?_, fun htidy => ?_⟩
  · rw [hscan] at hw
    exact congrArg Json.str (utf8_of_spelt s s' (hspelt hw)).symm
  · have hlength := length_utf8 s htidy
    have hdecoded : (decoded (.str s)).size List.length = (utf8 s).length := rfl
    rw [hscan, Json.size, hdecoded, hlength]
    exact hsize

theorem decodes_arr (vs : List (Json JsString Rat)) (t : Bytes)
    (ht : Spells lexicon (.items vs) t) (ih : Decodes (.items vs) t) :
    Decodes (.value (.arr vs)) (91 :: t ++ [93]) := by
  rcases ih with ⟨vs', hspells, heq, hsize⟩
  have hscan := wideEscape_of_scans _ _
    (scans_between 91 93 t _ (by decide) (by decide) (splits_of_spells _ t ht))
  refine ⟨.arr vs', Spells.arr vs' t hspells, fun hw => ?_, fun htidy => ?_⟩
  · rw [hscan] at hw
    rw [heq hw, decoded_arr]
  · rw [Tidy, Json.everywhere_arr] at htidy
    rw [hscan, decoded_arr, Json.size, Json.size]
    exact hsize htidy

theorem decodes_obj (fields : List (JsString × Json JsString Rat)) (t : Bytes)
    (ht : Spells lexicon (.members fields) t) (ih : Decodes (.members fields) t) :
    Decodes (.value (.obj fields)) (123 :: t ++ [125]) := by
  rcases ih with ⟨fields', hspells, heq, hsize⟩
  have hscan := wideEscape_of_scans _ _
    (scans_between 123 125 t _ (by decide) (by decide) (splits_of_spells _ t ht))
  refine ⟨.obj (setAll [] fields'), Spells.obj fields' t hspells, fun hw => ?_, fun htidy => ?_⟩
  · rw [hscan] at hw
    rw [heq hw, decoded_obj]
  · rw [Tidy, Json.everywhere_obj] at htidy
    have hkeys : ((decodedFields fields).map Prod.fst).Nodup := by
      rw [decodedFields, List.map_map, show (Prod.fst ∘ fun e : JsString × Json JsString Rat =>
        (utf8 e.1, decoded e.2)) = utf8 ∘ Prod.fst from rfl, ← List.map_map]
      exact nodup_utf8 _ (List.forall_mem_map.mpr (fun e he => (htidy.2 e he).1)) htidy.1
    have hexact := sizeFields_setAll [] (decodedFields fields)
      (fun _ _ => List.not_mem_nil) hkeys
    have hle := sizeFields_setAll_le [] fields'
    have hmembers := hsize htidy.2
    rw [hscan, decoded_obj, Json.size, Json.size]
    omega

theorem decodes_item (v : Json JsString Rat) (w t w' : Bytes) (hw : lexicon.Blank w)
    (ht : Spells lexicon (.value v) t) (hw' : lexicon.Blank w') (ih : Decodes (.value v) t) :
    Decodes (.items [v]) (w ++ t ++ w') := by
  rcases ih with ⟨v', hspells, heq, hsize⟩
  have hscan := wideEscape_of_scans _ _ (scans_padded w t w' _ hw hw' (splits_of_spells _ t ht))
  refine ⟨[v'], Spells.item v' w t w' (client_blank w hw) hspells (client_blank w' hw'),
    fun hwide => ?_, fun htidy => ?_⟩
  · rw [hscan] at hwide
    rw [heq hwide]
    rfl
  · have hvalue := hsize (htidy v List.mem_cons_self)
    rw [hscan]
    simp only [List.map_cons, List.map_nil, Json.sizeItems]
    omega

theorem decodes_items (v : Json JsString Rat) (vs : List (Json JsString Rat)) (w t w' ts : Bytes)
    (hw : lexicon.Blank w) (ht : Spells lexicon (.value v) t) (hw' : lexicon.Blank w')
    (hts : Spells lexicon (.items vs) ts) (ih : Decodes (.value v) t)
    (ihs : Decodes (.items vs) ts) : Decodes (.items (v :: vs)) (w ++ t ++ w' ++ 44 :: ts) := by
  rcases ih with ⟨v', hspells, heq, hsize⟩
  rcases ihs with ⟨vs', hspellss, heqs, hsizes⟩
  have hscan := wideEscape_of_scans _ _ (scans_append _ _ _ _
    (scans_padded w t w' _ hw hw' (splits_of_spells _ t ht))
    (scans_cons 44 ts _ (by decide) (splits_of_spells _ ts hts)))
  refine ⟨v' :: vs', Spells.items v' vs' w t w' ts (client_blank w hw) hspells
    (client_blank w' hw') hspellss, fun hwide => ?_, fun htidy => ?_⟩
  · rw [hscan, Bool.or_eq_false_iff] at hwide
    rw [heq hwide.1, heqs hwide.2]
    rfl
  · have hvalue := hsize (htidy v List.mem_cons_self)
    have hrest := hsizes (fun x hx => htidy x (List.mem_cons_of_mem v hx))
    have hor := toNat_or_le (wideEscape t) (wideEscape ts)
    rw [hscan, List.map_cons, Json.sizeItems, Json.sizeItems]
    omega

theorem decodes_member (k : JsString) (v : Json JsString Rat) (u kt u' w t w' : Bytes)
    (hu : lexicon.Blank u) (hk : Literal k kt) (hu' : lexicon.Blank u') (hw : lexicon.Blank w)
    (ht : Spells lexicon (.value v) t) (hw' : lexicon.Blank w') (ih : Decodes (.value v) t) :
    Decodes (.members [(k, v)]) (u ++ (34 :: kt ++ [34]) ++ u' ++ 58 :: (w ++ t ++ w')) := by
  rcases ih with ⟨v', hspells, heq, hsize⟩
  rcases exists_body k kt hk with ⟨k', hbody, hspelt, hksize⟩
  have hscan := wideEscape_of_scans _ _ (scans_member u kt u' w t w' _ _ hu
    (splits_literal k kt hk) hu' hw (splits_of_spells _ t ht) hw')
  refine ⟨[(k', v')], Spells.member k' v' u kt u' w t w' (client_blank u hu) hbody
    (client_blank u' hu') (client_blank w hw) hspells (client_blank w' hw'),
    fun hwide => ?_, fun htidy => ?_⟩
  · rw [hscan, Bool.or_eq_false_iff] at hwide
    rw [heq hwide.2, ← utf8_of_spelt k k' (hspelt hwide.1)]
    rfl
  · rcases htidy (k, v) List.mem_cons_self with ⟨hwell, hv⟩
    have hvalue := hsize hv
    have hlength := length_utf8 k hwell
    have hor := toNat_or_le (wideEscape kt) (wideEscape t)
    rw [hscan, decodedFields]
    simp only [List.map_cons, List.map_nil, Json.sizeFields]
    omega

theorem decodes_members (k : JsString) (v : Json JsString Rat)
    (fields : List (JsString × Json JsString Rat)) (u kt u' w t w' ts : Bytes)
    (hu : lexicon.Blank u) (hk : Literal k kt) (hu' : lexicon.Blank u') (hw : lexicon.Blank w)
    (ht : Spells lexicon (.value v) t) (hw' : lexicon.Blank w')
    (hts : Spells lexicon (.members fields) ts) (ih : Decodes (.value v) t)
    (ihs : Decodes (.members fields) ts) :
    Decodes (.members ((k, v) :: fields))
      (u ++ (34 :: kt ++ [34]) ++ u' ++ 58 :: (w ++ t ++ w') ++ 44 :: ts) := by
  rcases ih with ⟨v', hspells, heq, hsize⟩
  rcases ihs with ⟨fields', hspellss, heqs, hsizes⟩
  rcases exists_body k kt hk with ⟨k', hbody, hspelt, hksize⟩
  have hscan := wideEscape_of_scans _ _ (scans_append _ _ _ _
    (scans_member u kt u' w t w' _ _ hu (splits_literal k kt hk) hu' hw
      (splits_of_spells _ t ht) hw')
    (scans_cons 44 ts _ (by decide) (splits_of_spells _ ts hts)))
  refine ⟨(k', v') :: fields', Spells.members k' v' fields' u kt u' w t w' ts (client_blank u hu)
    hbody (client_blank u' hu') (client_blank w hw) hspells (client_blank w' hw') hspellss,
    fun hwide => ?_, fun htidy => ?_⟩
  -- Without a wide escape in any of the three parts, all of them are decoded.
  · rw [hscan, Bool.or_eq_false_iff, Bool.or_eq_false_iff] at hwide
    rw [heq hwide.1.2, ← utf8_of_spelt k k' (hspelt hwide.1.1), heqs hwide.2]
    rfl
  -- The sizes add up, and what is lost in a part is lost in the sum.
  · rcases htidy (k, v) List.mem_cons_self with ⟨hwell, hv⟩
    have hvalue := hsize hv
    have hrest := hsizes (fun x hx => htidy x (List.mem_cons_of_mem _ hx))
    have hlength := length_utf8 k hwell
    have hor := toNat_or_le (wideEscape kt) (wideEscape t)
    have hor' := toNat_or_le (wideEscape kt || wideEscape t) (wideEscape ts)
    rw [hscan, decodedFields, List.map_cons, Json.sizeFields, Json.sizeFields, ← decodedFields]
    dsimp only
    omega

/-- Every text of the standard is read by the client, as some value. -/
theorem decodes_of_spells (p : Phrase JsString Rat) (t : Bytes) (h : Spells lexicon p t) :
    Decodes p t := by
  induction h with
  | null => exact ⟨.null, Spells.null, fun _ => rfl, fun _ => Nat.le_refl 0⟩
  | true => exact ⟨.bool true, Spells.true, fun _ => rfl, fun _ => Nat.le_refl 0⟩
  | false => exact ⟨.bool false, Spells.false, fun _ => rfl, fun _ => Nat.le_refl 0⟩
  | num q t ht =>
      refine ⟨.num q, Spells.num q t (numeral_client q t ht), fun _ => rfl, fun _ => ?_⟩
      rw [wideEscape_of_scans t _ (scans_numeral q t ht)]
      exact Nat.le_refl 0
  | str s t ht => exact decodes_str s t ht
  | emptyArr w hw =>
      refine ⟨.arr [], Spells.emptyArr w (client_blank w hw), fun _ => rfl, fun _ => ?_⟩
      rw [wideEscape_of_scans _ _
        (scans_between 91 93 w _ (by decide) (by decide) (scans_blank w hw))]
      exact Nat.le_refl 0
  | arr vs t ht ih => exact decodes_arr vs t ht ih
  | emptyObj w hw =>
      refine ⟨.obj (setAll [] []), Spells.emptyObj w (client_blank w hw), fun _ => rfl,
        fun _ => ?_⟩
      rw [wideEscape_of_scans _ _
        (scans_between 123 125 w _ (by decide) (by decide) (scans_blank w hw))]
      exact Nat.le_refl 0
  | obj fields t ht ih => exact decodes_obj fields t ht ih
  | item v w t w' hw ht hw' ih => exact decodes_item v w t w' hw ht hw' ih
  | items v vs w t w' ts hw ht hw' hts ih ihs =>
      exact decodes_items v vs w t w' ts hw ht hw' hts ih ihs
  | member k v u kt u' w t w' hu hk hu' hw ht hw' ih =>
      exact decodes_member k v u kt u' w t w' hu hk hu' hw ht hw' ih
  | members k v fields u kt u' w t w' ts hu hk hu' hw ht hw' hts ih ihs =>
      exact decodes_members k v fields u kt u' w t w' ts hu hk hu' hw ht hw' hts ih ihs

/-- A value whose numbers are all doubles. -/
def Doubles {σ : Type} (v : Json σ Rat) : Prop :=
  v.Everywhere (fun _ => True) binary64.Has (fun _ => True)

/-- The parser returns the value of a text, the numbers included. -/
def Decoded (v : Json JsString Rat) (t : Bytes) : Prop :=
  ∃ c, parseDoubles t = .ok c ((decoded v).transform id Double.finite id)

/-- The doubles are the numbers that reading does not change. -/
theorem ofRat_eq_finite_iff (q : Rat) : Double.ofRat q = .finite q ↔ binary64.Has q := by
  refine Iff.trans ?_ (BinaryFormat.round_eq_self_iff q)
  unfold Double.ofRat
  generalize binary64.round q = r
  cases r with
  | none => simp only [reduceCtorEq]
  | some r => simp only [Double.finite.injEq, Option.some.injEq]

/-- A value that has only doubles is read as it is. -/
theorem transform_ofRat_eq_iff (v : ClientValue) :
    v.transform id Double.ofRat id = v.transform id Double.finite id ↔ Doubles v := by
  rw [Json.transform_num_eq_iff, Doubles]
  simp only [ofRat_eq_finite_iff]

theorem doubles_decoded (v : Json JsString Rat) (h : Doubles v) : Doubles (decoded v) :=
  Json.everywhere_transform utf8 id (setAll []) (fun _ _ => trivial) (fun _ hq => hq)
    (fun _ => trivial) (fun _ e he => (mem_setAll [] _ e he).resolve_left List.not_mem_nil) v h

/-- Where no name is repeated, no number is lost. -/
theorem doubles_of_decoded (v : Json JsString Rat) (hv : Tidy v) (h : Doubles (decoded v)) :
    Doubles v := by
  refine Json.everywhere_of_transform utf8 id (setAll []) (fun _ hq => hq)
    (fun fields value hnames hkeys e he => ?_) v hv h
  refine mem_setAll_of_mem [] _ ?_ _ (List.mem_map_of_mem he)
  rw [List.map_map, show (Prod.fst ∘ fun e : JsString × Json JsString Rat =>
    (utf8 e.1, value e)) = utf8 ∘ Prod.fst from rfl, ← List.map_map]
  exact nodup_utf8 _ (List.forall_mem_map.mpr hkeys) hnames

/-- White space ends a number. -/
theorem ends_of_blank (w : Bytes) (h : lexicon.Blank w) : Ends w := by
  intro b hb
  rcases h b (List.mem_of_mem_head? hb) with rfl | rfl | rfl | rfl <;> rfl

/-- What the client makes of a text. It leaves no more than white space. -/
theorem exists_parse (v : Json JsString Rat) (t : Bytes) (ht : IsText v t) :
    ∃ c v', parse t = .ok c v' ∧ lexicon.Blank c.rest ∧ (wideEscape t = false → v' = decoded v) ∧
      (Tidy v → v'.size List.length + (wideEscape t).toNat ≤ (decoded v).size List.length) := by
  rcases ht with ⟨w, u, w', rfl, hw, hw', hu⟩
  rcases decodes_of_spells _ u hu with ⟨v', hspells, heq, hsize⟩
  have hscan := wideEscape_of_scans _ _ (scans_padded w u w' _ hw hw' (splits_of_spells _ u hu))
  have hrest : (⟨w ++ u ++ w', 0⟩ : Cursor).rest = w ++ (u ++ w') := List.append_assoc _ _ _
  have hrest' := Cursor.rest_advance_append _ w _ hrest
  have hread := reads_of_spells (.value v') u hspells (3 * (w ++ u ++ w').length + 3)
    ((⟨w ++ u ++ w', 0⟩ : Cursor).advance w.length) w'
    (by simp only [List.length_append]; omega) hrest' (ends_of_blank w' hw')
  have hafter := Cursor.rest_advance_append _ u w' hrest'
  have hparse : parse (w ++ u ++ w')
      = .ok (((⟨w ++ u ++ w', 0⟩ : Cursor).advance w.length).advance u.length) v' := by
    rw [parse, parseValue_blank _ _ w _ hrest (client_blank w hw), hread]
  rw [hscan]
  exact ⟨_, v', hparse, hafter.symm ▸ hw', heq, hsize⟩

/-- Which texts are decoded. A text without a wide escape is, but for the
    rounding of its numbers to doubles. Where no object repeats a name, nothing
    else is read as it was meant than texts of doubles without a wide escape. -/
theorem decoded_iff (v : Json JsString Rat) (t : Bytes) (ht : IsText v t)
    (hv : v.Everywhere (fun s => isWellFormed s = true) (fun _ => True) (fun _ => True)) :
    (wideEscape t = false →
        ∃ c, parseDoubles t = .ok c ((decoded v).transform id Double.ofRat id)) ∧
      (wideEscape t = false ∧ Doubles v → Decoded v t) ∧
      (v.Everywhere (fun _ => True) (fun _ => True) List.Nodup →
        (Decoded v t ↔ wideEscape t = false ∧ Doubles v)) := by
  rcases exists_parse v t ht with ⟨c, v', hparse, -, heq, hsize⟩
  have hdoubles : parseDoubles t = .ok c (v'.transform id Double.ofRat id) := by
    rw [parseDoubles, hparse]
    rfl
  have hnarrow : wideEscape t = false ∧ Doubles v → Decoded v t := by
    rintro ⟨hw, hd⟩
    refine ⟨c, ?_⟩
    rw [hdoubles, heq hw, (transform_ofRat_eq_iff _).mpr (doubles_decoded v hd)]
  refine ⟨fun hw => ⟨c, heq hw ▸ hdoubles⟩, hnarrow, fun hnames => ⟨?_, hnarrow⟩⟩
  rintro ⟨c', hdecoded⟩
  have htidy : Tidy v := v.everywhere_mono (fun _ h => h.1) (fun _ _ => trivial) (fun _ h => h.2)
    (v.everywhere_and hv hnames)
  have hsame := (Outcome.ok.inj (hdoubles.symm.trans hdecoded)).2
  -- The strings are of one size, so there is no wide escape.
  have hle := hsize htidy
  have hlength := congrArg (Json.size List.length) hsame
  rw [Json.size_transform, Json.size_transform] at hlength
  cases hw : wideEscape t with
  | false =>
      rw [heq hw, transform_ofRat_eq_iff] at hsame
      exact ⟨rfl, doubles_of_decoded v htidy hsame⟩
  | true =>
      rw [hw, Bool.toNat_true] at hle
      omega

/-- An accented letter as it is and a letter by its number, and a half. -/
def plainText : Bytes :=
  [32, 91, 34, 195, 169, 92, 117, 48, 48, 52, 49, 34, 44, 48, 46, 53, 93, 10]

theorem isText_plainText : IsText (.arr [.str [0xE9, 65], .num (1 / 2)]) plainText := by
  have hletter : Literal [65] [92, 117, 48, 48, 52, 49] :=
    Literal.unicode 48 48 52 49 65 [] [] rfl Literal.nil
  have hliteral : Literal [0xE9, 65] [195, 169, 92, 117, 48, 48, 52, 49] :=
    Literal.char (Char.ofNat 0xE9) [65] _ (by decide) (by decide) (by decide) hletter
  have hhalf : Numeral (1 / 2) [48, 46, 53] := by
    have h := Numeral.mk false [0] [5] 0 [] (by unfold AreDigits; decide) (List.cons_ne_nil 0 [])
      (fun _ => rfl) (by unfold AreDigits; decide) Exponent.absent
    have hvalue : signed false (((Nat.ofDigits 10 ([0] ++ [5]).reverse : Nat) : Rat) *
        10 ^ ((0 : Int) - (([5] : List Nat).length : Int))) = 1 / 2 := by
      rw [signed, if_neg Bool.false_ne_true]
      norm_num [Nat.ofDigits]
    rw [hvalue] at h
    exact h
  have hitems := Spells.items_compact (Spells.str (L := lexicon) _ _ hliteral)
    (Spells.item_compact (Spells.num _ _ hhalf))
  exact ⟨[32], _, [10], rfl, List.forall_mem_singleton.mpr (Or.inl rfl),
    List.forall_mem_singleton.mpr (Or.inr (Or.inr (Or.inl rfl))), Spells.arr _ _ hitems⟩

theorem decoded_plainText : Decoded (.arr [.str [0xE9, 65], .num (1 / 2)]) plainText :=
  ((decoded_iff _ plainText isText_plainText ⟨rfl, trivial, trivial⟩).2.2
    ⟨trivial, trivial, trivial⟩).mpr
    ⟨rfl, trivial, ⟨1, -1, by decide, by decide, by decide, by norm_num⟩, trivial⟩

/-- The accented letter by its number. -/
def accentText : Bytes := [34, 92, 117, 48, 48, 101, 57, 34]

theorem not_decoded_accent :
    ¬ ∀ (v : Json JsString Rat) (t : Bytes), IsText v t →
      v.Everywhere (fun s => isWellFormed s = true) (fun _ => True) (fun _ => True) →
      Decoded v t := by
  intro h
  have hliteral : Literal [0xE9] [92, 117, 48, 48, 101, 57] :=
    Literal.unicode 48 48 101 57 0xE9 [] [] rfl Literal.nil
  have htext : IsText (.str [0xE9]) accentText :=
    ⟨[], accentText, [], rfl, lexicon.blank_nil, lexicon.blank_nil,
      Spells.str _ [92, 117, 48, 48, 101, 57] hliteral⟩
  rcases h (.str [0xE9]) accentText htext rfl with ⟨c, hdecoded⟩
  have hparse : parseDoubles accentText = .ok ⟨accentText, 8⟩ (.str [0xE9]) := rfl
  have hsame := Json.str.inj (Outcome.ok.inj (hparse.symm.trans hdecoded)).2
  exact absurd hsame (by decide)

end Phrases

end Rfc8259

end MzzPlork
