import MzzPlork.Theory.EventText

/-!
# JSON Texts as RFC 8259 Has Them

The grammar of the standard, on texts in UTF-8, and what a text denotes: a
string is its UTF-16 code units, so that an escaped half of a surrogate pair is
one of them, and an object is its members as they are written.

The client's parser reads the numbers of this grammar as what they denote. Its
strings are another matter.

## Main definitions

* `fourDigits`: The code unit an escape names.
* `Literal`: What stands between the quotes of a string.
* `Exponent`, `Numeral`: The spellings of a number.
* `lexicon`: The dialect.
* `IsText`: One value, with white space around it.

## Theorems

* `numeral_client`: Numbers are read by the client.
* `legal_of_spells`, `legal_of_isText`: The bytes that occur.
* `spelt_unitsOf`: A character in UTF-16 and UTF-8.
-/

namespace MzzPlork

namespace Rfc8259

open JsonText

section Grammar

/-- The code unit four hexadecimal digits stand for. -/
def fourDigits (a b c d : UInt8) : Option Nat := do
  let a ← hexDigit a
  let b ← hexDigit b
  let c ← hexDigit c
  let d ← hexDigit d
  some (4096 * a + 256 * b + 16 * c + d)

/-- What stands between the quotes of a string: characters that need no escape,
    the short escapes, and code units by their number. -/
inductive Literal : JsString → Bytes → Prop where
  | nil : Literal [] []
  | char (c : Char) (s : JsString) (t : Bytes) (hctl : 32 ≤ c.toNat) (hquote : c.toNat ≠ 34)
      (hback : c.toNat ≠ 92) (ht : Literal s t) :
      Literal (Wire.unitsOf c ++ s) (String.utf8EncodeChar c ++ t)
  | escape (esc b : UInt8) (s : JsString) (t : Bytes) (he : unescape esc = some b)
      (ht : Literal s t) : Literal (b.toUInt16 :: s) (92 :: esc :: t)
  | unicode (a b c d : UInt8) (n : Nat) (s : JsString) (t : Bytes)
      (hn : fourDigits a b c d = some n) (ht : Literal s t) :
      Literal (n.toUInt16 :: s) (92 :: 117 :: a :: b :: c :: d :: t)

/-- An exponent, if there is one. -/
inductive Exponent : Int → Bytes → Prop where
  | absent : Exponent 0 []
  | unsigned (mark : UInt8) (ds : List Nat) (hmark : IsMark mark) (hd : AreDigits ds)
      (hne : ds ≠ []) : Exponent ((Nat.ofDigits 10 ds.reverse : Nat) : Int) (mark :: digitsText ds)
  | plus (mark : UInt8) (ds : List Nat) (hmark : IsMark mark) (hd : AreDigits ds)
      (hne : ds ≠ []) :
      Exponent ((Nat.ofDigits 10 ds.reverse : Nat) : Int) (mark :: 43 :: digitsText ds)
  | minus (mark : UInt8) (ds : List Nat) (hmark : IsMark mark) (hd : AreDigits ds)
      (hne : ds ≠ []) :
      Exponent (-((Nat.ofDigits 10 ds.reverse : Nat) : Int)) (mark :: 45 :: digitsText ds)

/-- A number: a sign, an integer without leading zeros, a fraction of one digit
    or more, and an exponent. -/
inductive Numeral : Rat → Bytes → Prop where
  | mk (negative : Bool) (whole fraction : List Nat) (e : Int) (x : Bytes)
      (hw : AreDigits whole) (hne : whole ≠ []) (hzero : whole.head? = some 0 → whole = [0])
      (hf : AreDigits fraction) (hx : Exponent e x) :
      Numeral (signed negative ((Nat.ofDigits 10 (whole ++ fraction).reverse : Nat) *
          10 ^ (e - (fraction.length : Int))))
        (signText negative ++ (digitsText whole ++ (fractionText fraction ++ x)))

/-- The dialect of the standard. -/
def lexicon : Lexicon JsString Rat where
  literal := Literal
  numeral := Numeral
  space := fun b => b = 32 ∨ b = 9 ∨ b = 10 ∨ b = 13
  object := id

/-- A text: one value, with white space around it. -/
def IsText (v : Json JsString Rat) (t : Bytes) : Prop :=
  ∃ w u w', t = w ++ u ++ w' ∧ lexicon.Blank w ∧ lexicon.Blank w' ∧ Spells lexicon (.value v) u

end Grammar

section Digits

/-- The digits of a code unit. -/
theorem exists_hexDigits (a b c d : UInt8) (n : Nat) (h : fourDigits a b c d = some n) :
    ∃ na nb nc nd, hexDigit a = some na ∧ hexDigit b = some nb ∧ hexDigit c = some nc ∧
      hexDigit d = some nd ∧ n = 4096 * na + 256 * nb + 16 * nc + nd := by
  rcases Option.bind_eq_some_iff.mp h with ⟨na, ha, h⟩
  rcases Option.bind_eq_some_iff.mp h with ⟨nb, hb, h⟩
  rcases Option.bind_eq_some_iff.mp h with ⟨nc, hc, h⟩
  rcases Option.bind_eq_some_iff.mp h with ⟨nd, hd, h⟩
  exact ⟨na, nb, nc, nd, ha, hb, hc, hd, (Option.some.inj h).symm⟩

/-- The three kinds of hexadecimal digits. -/
theorem hexDigit_cases (b : UInt8) (n : Nat) (h : hexDigit b = some n) :
    (48 ≤ b.toNat ∧ b.toNat ≤ 57 ∧ n = b.toNat - 48) ∨
      (97 ≤ b.toNat ∧ b.toNat ≤ 102 ∧ n = b.toNat - 87) ∨
      (65 ≤ b.toNat ∧ b.toNat ≤ 70 ∧ n = b.toNat - 55) := by
  simp only [hexDigit, isDigit, Bool.and_eq_true, decide_eq_true_eq, UInt8.le_iff_toNat_le,
    UInt8.reduceToNat] at h
  split_ifs at h <;> simp only [Option.some.injEq] at h <;> omega

/-- What holds of each of the short escapes. -/
theorem unescape_all (P : UInt8 → UInt8 → Bool)
    (hP : [(34, 34), (92, 92), (47, 47), (110, 10), (116, 9), (114, 13), (98, 8), (102, 12)].all
      (fun e => P e.1 e.2) = true)
    (esc b : UInt8) (h : unescape esc = some b) : P esc b = true := by
  -- There are eight of them, so a check of each is a check of all.
  have hmem : (esc, b) ∈ [((34 : UInt8), (34 : UInt8)), (92, 92), (47, 47), (110, 10), (116, 9),
      (114, 13), (98, 8), (102, 12)] := by
    unfold unescape at h
    split at h
    any_goals
      rw [← Option.some.inj h]
      decide
    exact absurd h (by simp only [reduceCtorEq, not_false_eq_true])
  exact List.all_eq_true.mp hP _ hmem

end Digits

section Numbers

theorem exponentOf_exponent (e : Int) (x : Bytes) (h : Exponent e x) :
    exponentOf x = some e ∧ (∀ b ∈ x.head?, isDigit b = false ∧ b ≠ 46) ∧ NumberBytes x := by
  have hmark : ∀ mark, IsMark mark → (isDigit mark = false ∧ mark ≠ 46) ∧
      isNumberByte mark = true := by
    rintro mark (rfl | rfl) <;> exact ⟨⟨rfl, by decide⟩, rfl⟩
  cases h with
  | absent =>
      exact ⟨rfl, fun _ hb => absurd hb (Option.not_mem_none _),
        fun _ hb => absurd hb List.not_mem_nil⟩
  | unsigned mark ds hm hd hne =>
      refine ⟨exponentOf_unsigned mark hm ds hd hne, ?_, ?_⟩
      · rintro _ ⟨⟩
        exact (hmark mark hm).1
      · exact List.forall_mem_cons.mpr ⟨(hmark mark hm).2, numberBytes_digitsText ds hd⟩
  | plus mark ds hm hd hne =>
      refine ⟨exponentOf_digits mark hm false ds hd hne, ?_, ?_⟩
      · rintro _ ⟨⟩
        exact (hmark mark hm).1
      · exact List.forall_mem_cons.mpr ⟨(hmark mark hm).2,
          List.forall_mem_cons.mpr ⟨rfl, numberBytes_digitsText ds hd⟩⟩
  | minus mark ds hm hd hne =>
      refine ⟨exponentOf_digits mark hm true ds hd hne, ?_, ?_⟩
      · rintro _ ⟨⟩
        exact (hmark mark hm).1
      · exact List.forall_mem_cons.mpr ⟨(hmark mark hm).2,
          List.forall_mem_cons.mpr ⟨rfl, numberBytes_digitsText ds hd⟩⟩

/-- A number is read by the client as what it denotes. -/
theorem numeral_client (q : Rat) (t : Bytes) (h : Numeral q t) : clientLexicon.numeral q t := by
  cases h with
  | mk negative whole fraction e x hw hne hzero hf hx =>
      rcases exponentOf_exponent e x hx with ⟨hvalue, hmark, hbytes⟩
      refine ⟨fun hnil => ?_, ?_,
        numberOf_literal negative whole fraction x e hw hne hf hvalue hmark⟩
      · have hdigits := (List.append_eq_nil_iff.mp (List.append_eq_nil_iff.mp hnil).2).1
        exact hne (List.map_eq_nil_iff.mp hdigits)
      · exact numberBytes_append _ _ (numberBytes_signText negative)
          (numberBytes_append _ _ (numberBytes_digitsText whole hw)
            (numberBytes_append _ _ (numberBytes_fractionText fraction hf) hbytes))

end Numbers

section Characters

open Wire

/-- A character in UTF-16 comes out in UTF-8 as the character. -/
theorem spelt_unitsOf (c : Char) : Spelt (unitsOf c) (String.utf8EncodeChar c) := by
  rcases unitsOf_cases c with ⟨u, hunits, -, hplain, hchar⟩ | ⟨-, u, u', hunits, hpair, hchar⟩
  · rw [hunits, ← hchar]
    exact spelt_unit u hplain
  · rw [hunits, ← hchar]
    exact spelt_pair u u' hpair

theorem spelt_textUnits (cs : List Char) :
    Spelt (EventChannel.textUnits cs) (EventChannel.textBytes cs) := by
  induction cs with
  | nil => exact spelt_nil
  | cons c cs ih => exact spelt_append _ _ _ _ (spelt_unitsOf c) ih

end Characters

section Bytes

/-- The bytes of a text: no control characters but white space. -/
def IsLegal (b : UInt8) : Prop := 32 ≤ b ∨ b = 9 ∨ b = 10 ∨ b = 13

theorem legal_char (c : Char) (hctl : 32 ≤ c.toNat) :
    ∀ b ∈ String.utf8EncodeChar c, 32 ≤ b := by
  intro b hb
  rw [UInt8.le_iff_toNat_le]
  -- The bytes of a longer character all have their highest bit.
  by_cases hascii : c.toNat < 128
  · rw [Wire.utf8EncodeChar_ascii c hascii] at hb
    rw [List.mem_singleton.mp hb, Nat.toUInt8, UInt8.toNat_ofNat', Nat.mod_eq_of_lt (by omega)]
    exact hctl
  · have hhigh := Wire.utf8EncodeChar_high c (by omega) b hb
    simp only [UInt8.reduceToNat]
    omega

theorem legal_unescape (esc b : UInt8) (h : unescape esc = some b) : 32 ≤ esc :=
  of_decide_eq_true (unescape_all (fun esc _ => 32 ≤ esc) rfl esc b h)

theorem legal_hexDigit (b : UInt8) (n : Nat) (h : hexDigit b = some n) : 32 ≤ b := by
  have hcases := hexDigit_cases b n h
  simp only [UInt8.le_iff_toNat_le, UInt8.reduceToNat]
  omega

theorem legal_fourDigits (a b c d : UInt8) (n : Nat) (h : fourDigits a b c d = some n) :
    ∀ x ∈ [a, b, c, d], 32 ≤ x := by
  rcases exists_hexDigits a b c d n h with ⟨na, nb, nc, nd, ha, hb, hc, hd, -⟩
  simp only [List.forall_mem_cons, List.not_mem_nil, false_implies, implies_true, and_true]
  exact ⟨legal_hexDigit a na ha, legal_hexDigit b nb hb, legal_hexDigit c nc hc,
    legal_hexDigit d nd hd⟩

theorem legal_literal (s : JsString) (t : Bytes) (h : Literal s t) : ∀ b ∈ t, 32 ≤ b := by
  induction h with
  | nil => exact fun _ hb => absurd hb List.not_mem_nil
  | char c s t hctl _ _ _ ih => exact List.forall_mem_append.mpr ⟨legal_char c hctl, ih⟩
  | escape esc b s t he _ ih =>
      exact List.forall_mem_cons.mpr ⟨by decide,
        List.forall_mem_cons.mpr ⟨legal_unescape esc b he, ih⟩⟩
  | unicode a b c d n s t hn _ ih =>
      have hdigits := legal_fourDigits a b c d n hn
      exact List.forall_mem_cons.mpr ⟨by decide, List.forall_mem_cons.mpr ⟨by decide,
        List.forall_mem_append.mpr ⟨hdigits, ih⟩⟩⟩

/-- What occurs in a text. -/
theorem legal_of_spells (p : Phrase JsString Rat) (t : Bytes) (h : Spells lexicon p t) :
    ∀ b ∈ t, IsLegal b := by
  refine Spells.forall_mem (L := lexicon) IsLegal ?_ ?_ ?_ ?_ h
  · intro b hb
    exact Or.inl (of_decide_eq_true (List.all_eq_true.mp
      (show Spells.punctuation.all (fun b => 32 ≤ b) = true from rfl) b hb))
  · exact fun s t ht b hb => Or.inl (legal_literal s t ht b hb)
  -- A number has digits, signs, points and exponent marks only.
  · intro q t ht b hb
    have hbyte := (numeral_client q t ht).2.1 b hb
    refine Or.inl ?_
    simp only [isNumberByte, isDigit, Bool.or_eq_true, Bool.and_eq_true, decide_eq_true_eq,
      UInt8.le_iff_toNat_le, ← UInt8.toNat_inj, UInt8.reduceToNat] at hbyte ⊢
    omega
  · rintro b (hb | hb | hb | hb)
    · exact Or.inl (by rw [hb]; decide)
    · exact Or.inr (Or.inl hb)
    · exact Or.inr (Or.inr (Or.inl hb))
    · exact Or.inr (Or.inr (Or.inr hb))

theorem legal_of_isText (v : Json JsString Rat) (t : Bytes) (h : IsText v t) :
    ∀ b ∈ t, IsLegal b := by
  rcases h with ⟨w, u, w', rfl, hw, hw', hu⟩
  have hlegal : ∀ b, lexicon.space b → IsLegal b := by
    rintro b (rfl | rfl | rfl | rfl) <;> unfold IsLegal <;> decide
  exact List.forall_mem_append.mpr ⟨List.forall_mem_append.mpr
    ⟨fun b hb => hlegal b (hw b hb), legal_of_spells _ u hu⟩, fun b hb => hlegal b (hw' b hb)⟩

end Bytes

end Rfc8259

end MzzPlork
