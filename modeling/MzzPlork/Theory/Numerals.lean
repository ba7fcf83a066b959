import Mathlib.Data.List.TakeWhile
import Mathlib.Data.Nat.Digits.Lemmas
import Mathlib.Tactic.Ring
import MzzPlork.Base.SignificantDigits
import MzzPlork.Core.JsonText

/-!
# Numbers as the Client Writes and Reads Them

`numberOf` reads back what the writer makes of a number: an integer of the range
of `long long` unchanged, and any other number rounded to six significant
digits. So a number survives the client's writer exactly when it is such an
integer or has no more than six significant digits.

## Main definitions

* `sixRound`: A number rounded to six significant digits.
* `wireNumber`: What is left of a number once it has been written.
* `Representable`: The numbers that survive.

## Theorems

* `numberOf_literal`: A literal denotes what its digits say.
* `numberOf_numberText`: What is read back.
* `wireNumber_wireNumber`: Writing twice loses no more than writing once.
* `wireNumber_eq_iff`: Which numbers survive.
-/

namespace MzzPlork

namespace JsonText

section Digits

/-- Decimal digits. -/
def AreDigits (ds : List Nat) : Prop := ∀ d ∈ ds, d < 10

theorem areDigits_append (ds es : List Nat) (hd : AreDigits ds) (he : AreDigits es) :
    AreDigits (ds ++ es) := List.forall_mem_append.mpr ⟨hd, he⟩

theorem areDigits_replicate (n : Nat) : AreDigits (List.replicate n 0) := by
  intro d hd
  rw [List.eq_of_mem_replicate hd]
  decide

theorem areDigits_take (n : Nat) (ds : List Nat) (hd : AreDigits ds) : AreDigits (ds.take n) :=
  fun d h => hd d (List.mem_of_mem_take h)

theorem areDigits_drop (n : Nat) (ds : List Nat) (hd : AreDigits ds) : AreDigits (ds.drop n) :=
  fun d h => hd d (List.mem_of_mem_drop h)

theorem digitsText_append (ds es : List Nat) :
    digitsText (ds ++ es) = digitsText ds ++ digitsText es := List.map_append

theorem toNat_digit (d : Nat) (hd : d < 10) : (48 + d).toUInt8.toNat = 48 + d := by
  rw [Nat.toUInt8, UInt8.toNat_ofNat']
  omega

theorem isDigit_digitsText (ds : List Nat) (hd : AreDigits ds) :
    ∀ b ∈ digitsText ds, isDigit b = true := by
  intro b hb
  rcases List.mem_map.mp hb with ⟨d, hm, rfl⟩
  simp only [isDigit, Bool.and_eq_true, decide_eq_true_eq, UInt8.le_iff_toNat_le,
    toNat_digit d (hd d hm), UInt8.reduceToNat]
  have := hd d hm
  omega

/-- The number a list of digits denotes. -/
theorem decimalValue_digitsText (ds : List Nat) (hd : AreDigits ds) :
    decimalValue (digitsText ds) = Nat.ofDigits 10 ds.reverse := by
  -- The bytes are folded from the front, as the digits are.
  have hfold : ∀ acc, (digitsText ds).foldl (fun acc b => 10 * acc + (b.toNat - 48)) acc
      = ds.foldl (fun acc d => 10 * acc + d) acc := by
    induction ds with
    | nil => exact fun _ => rfl
    | cons d ds ih =>
        intro acc
        have htail := ih (fun e he => hd e (List.mem_cons_of_mem d he)) (10 * acc + d)
        rw [digitsText, List.map_cons, List.foldl_cons, List.foldl_cons,
          toNat_digit d (hd d List.mem_cons_self), Nat.add_sub_cancel_left]
        exact htail
  rw [decimalValue, hfold 0, Nat.ofDigits_eq_foldr, List.foldr_reverse]
  simp only [Nat.cast_id, Nat.add_comm]

/-- Zeros in front add nothing. -/
theorem ofDigits_reverse_zeros (n : Nat) (ds : List Nat) :
    Nat.ofDigits 10 (List.replicate n 0 ++ ds).reverse = Nat.ofDigits 10 ds.reverse := by
  rw [List.reverse_append, List.reverse_replicate, Nat.ofDigits_append_replicate_zero]

/-- A zero at the end multiplies by ten. -/
theorem ofDigits_replicate_append (n : Nat) (ds : List Nat) :
    Nat.ofDigits 10 (List.replicate n 0 ++ ds) = 10 ^ n * Nat.ofDigits 10 ds := by
  rw [Nat.ofDigits_append, List.length_replicate, Nat.ofDigits_replicate_zero, Nat.zero_add]

/-- A number in decimal is a non-empty list of digits. -/
theorem exists_natText (n : Nat) :
    ∃ ds, natText n = digitsText ds ∧ ds ≠ [] ∧ AreDigits ds ∧ Nat.ofDigits 10 ds.reverse = n := by
  by_cases hn : n = 0
  · refine ⟨[0], ?_, List.cons_ne_nil 0 [], areDigits_replicate 1, ?_⟩
    · rw [natText, if_pos hn]
    · rw [hn]
      rfl
  · refine ⟨(Nat.digits 10 n).reverse, ?_, ?_, ?_, ?_⟩
    · rw [natText, if_neg hn]
    · exact fun hc => hn (Nat.digits_eq_nil_iff_eq_zero.mp (List.reverse_eq_nil_iff.mp hc))
    · exact fun d hd => Nat.digits_lt_base (by decide) (List.mem_reverse.mp hd)
    · rw [List.reverse_reverse, Nat.ofDigits_digits]

end Digits

section Literals

/-- A number under a sign. -/
def signed (negative : Bool) (q : Rat) : Rat := if negative then -q else q

/-- A minus sign or none. -/
def signText (negative : Bool) : Bytes := if negative then [45] else []

/-- The head of a list of digits. -/
theorem digitsText_head (ds : List Nat) (hd : AreDigits ds) (hne : ds ≠ []) (r : Bytes) :
    ∃ b t, digitsText ds ++ r = b :: t ∧ isDigit b = true := by
  cases ds with
  | nil => exact absurd rfl hne
  | cons d ds =>
      exact ⟨_, _, rfl, isDigit_digitsText (d :: ds) hd _ List.mem_cons_self⟩

theorem ne_of_isDigit (b b' : UInt8) (h : isDigit b = true) (h' : isDigit b' = false) : b ≠ b' := by
  rintro rfl
  exact Bool.noConfusion (h.symm.trans h')

/-- A sign in front of something that starts with a digit. -/
theorem signOf_signText (negative : Bool) (b : UInt8) (t : Bytes) (hb : isDigit b = true) :
    signOf (signText negative ++ b :: t) = (negative, b :: t) := by
  cases negative with
  | true => rfl
  | false =>
      rw [signText, if_neg Bool.false_ne_true, List.nil_append, signOf]
      · exact fun _ h => ne_of_isDigit b 45 hb (by decide) (List.cons.inj h).1
      · exact fun _ h => ne_of_isDigit b 43 hb (by decide) (List.cons.inj h).1

/-- Digits end where no digit follows. -/
theorem takeWhile_digitsText (ds : List Nat) (hd : AreDigits ds) (r : Bytes)
    (hr : ∀ b ∈ r.head?, isDigit b = false) :
    (digitsText ds ++ r).takeWhile isDigit = digitsText ds ∧
      (digitsText ds ++ r).dropWhile isDigit = r := by
  have hall := isDigit_digitsText ds hd
  rw [List.takeWhile_append_of_pos hall, List.dropWhile_append_of_pos hall]
  cases r with
  | nil => exact ⟨List.append_nil _, rfl⟩
  | cons b r =>
      have hb := hr b rfl
      rw [List.takeWhile_cons, hb, List.dropWhile_cons, hb]
      exact ⟨List.append_nil _, rfl⟩

/-- What can follow the digits of a literal: nothing, or an exponent. -/
def IsExponent (x : Bytes) (e : Int) : Prop := exponentOf x = some e ∧ ∀ b ∈ x.head?, b = 101

theorem isExponent_nil : IsExponent [] 0 :=
  ⟨rfl, fun _ hb => absurd hb (Option.not_mem_none _)⟩

/-- A mark is neither a digit nor a decimal point. -/
theorem IsExponent.mark {x : Bytes} {e : Int} (h : IsExponent x e) :
    ∀ b ∈ x.head?, isDigit b = false ∧ b ≠ 46 := by
  intro b hb
  rw [h.2 b hb]
  exact ⟨rfl, by decide⟩

theorem fractionOf_fractionText (ds : List Nat) (hd : AreDigits ds) (x : Bytes)
    (hx : ∀ b ∈ x.head?, isDigit b = false ∧ b ≠ 46) :
    fractionOf (fractionText ds ++ x) = (digitsText ds, x) ∧
      ∀ b ∈ (fractionText ds ++ x).head?, isDigit b = false := by
  have hend : ∀ b ∈ x.head?, isDigit b = false := fun b hb => (hx b hb).1
  by_cases hds : ds = []
  · rw [hds, fractionText, if_pos rfl, List.nil_append]
    refine ⟨?_, hend⟩
    rw [fractionOf]
    · rfl
    · rintro t rfl
      exact absurd rfl (hx 46 rfl).2
  · rw [fractionText, if_neg hds, List.cons_append, fractionOf]
    rcases takeWhile_digitsText ds hd x hend with ⟨htake, hdrop⟩
    rw [htake, hdrop]
    refine ⟨rfl, ?_⟩
    rintro _ ⟨⟩
    rfl

/-- A literal denotes what its digits say. -/
theorem numberOf_literal (negative : Bool) (whole fraction : List Nat) (x : Bytes) (e : Int)
    (hw : AreDigits whole) (hne : whole ≠ []) (hf : AreDigits fraction)
    (hx : exponentOf x = some e) (hmark : ∀ b ∈ x.head?, isDigit b = false ∧ b ≠ 46) :
    numberOf (signText negative ++ (digitsText whole ++ (fractionText fraction ++ x)))
      = some (signed negative
          ((Nat.ofDigits 10 (whole ++ fraction).reverse : Nat) *
            10 ^ (e - (fraction.length : Int)))) := by
  rcases digitsText_head whole hw hne (fractionText fraction ++ x) with ⟨b, t, hbt, hb⟩
  rcases fractionOf_fractionText fraction hf x hmark with ⟨hfrac, hend⟩
  rcases takeWhile_digitsText whole hw _ hend with ⟨htake, hdrop⟩
  have hnil : ¬ (digitsText whole = [] ∧ digitsText fraction = []) :=
    fun h => hne (List.map_eq_nil_iff.mp h.1)
  have hlen : (digitsText fraction).length = fraction.length := List.length_map _
  rw [hbt] at htake hdrop
  rw [hbt, numberOf, signOf_signText negative b t hb]
  simp only [htake, hdrop, hfrac, hnil, if_false, hx, Option.map_some, hlen,
    ← digitsText_append, decimalValue_digitsText _ (areDigits_append _ _ hw hf), signed]

/-- The mark of an exponent, in either case. -/
def IsMark (b : UInt8) : Prop := b = 101 ∨ b = 69

/-- An exponent with a sign. -/
theorem exponentOf_digits (mark : UInt8) (hmark : IsMark mark) (negative : Bool) (ds : List Nat)
    (hd : AreDigits ds) (hne : ds ≠ []) :
    exponentOf (mark :: (if negative then 45 else 43) :: digitsText ds)
      = some (if negative then -((Nat.ofDigits 10 ds.reverse : Nat) : Int)
          else (Nat.ofDigits 10 ds.reverse : Nat)) := by
  have hall : (digitsText ds).all isDigit = true := List.all_eq_true.mpr (isDigit_digitsText ds hd)
  have hnil : digitsText ds ≠ [] := fun h => hne (List.map_eq_nil_iff.mp h)
  have hsign : signOf ((if negative then 45 else 43) :: digitsText ds)
      = (negative, digitsText ds) := by cases negative <;> rfl
  have he : (decide (mark = 101) || decide (mark = 69)) = true := by
    rcases hmark with rfl | rfl <;> rfl
  simp only [exponentOf, hsign, hall, decide_eq_true hnil, he, Bool.and_true, if_true,
    decimalValue_digitsText ds hd]

/-- An exponent without one. -/
theorem exponentOf_unsigned (mark : UInt8) (hmark : IsMark mark) (ds : List Nat)
    (hd : AreDigits ds) (hne : ds ≠ []) :
    exponentOf (mark :: digitsText ds) = some ((Nat.ofDigits 10 ds.reverse : Nat) : Int) := by
  have hall : (digitsText ds).all isDigit = true := List.all_eq_true.mpr (isDigit_digitsText ds hd)
  have hnil : digitsText ds ≠ [] := fun h => hne (List.map_eq_nil_iff.mp h)
  rcases digitsText_head ds hd hne [] with ⟨b, t, hbt, hb⟩
  have hsign : signOf (digitsText ds) = (false, digitsText ds) := by
    rw [List.append_nil] at hbt
    rw [hbt]
    exact signOf_signText false b t hb
  have he : (decide (mark = 101) || decide (mark = 69)) = true := by
    rcases hmark with rfl | rfl <;> rfl
  simp only [exponentOf, hsign, hall, decide_eq_true hnil, he, Bool.and_true, if_true,
    decimalValue_digitsText ds hd, Bool.false_eq_true, if_false]

/-- The padding is one more digit in front, and does not change the number. -/
theorem exists_paddedText (n : Nat) :
    ∃ ds, (if n < 10 then digitsText [0] else []) ++ natText n = digitsText ds ∧ ds ≠ [] ∧
      AreDigits ds ∧ Nat.ofDigits 10 ds.reverse = n := by
  rcases exists_natText n with ⟨ds, hds, hne, hd, hval⟩
  by_cases hlt : n < 10
  · refine ⟨[0] ++ ds, ?_, List.cons_ne_nil 0 ds, areDigits_append _ _ (areDigits_replicate 1) hd,
      (ofDigits_reverse_zeros 1 ds).trans hval⟩
    rw [if_pos hlt, hds, digitsText_append]
  · exact ⟨ds, by rw [if_neg hlt, hds, List.nil_append], hne, hd, hval⟩

/-- The exponent is read back. -/
theorem isExponent_exponentText (e : Int) : IsExponent (exponentText e) e := by
  rcases exists_paddedText e.natAbs with ⟨ds, htext, hne, hd, hval⟩
  -- A mark, a sign and two digits at least.
  have hshape : exponentText e
      = 101 :: (if decide (e < 0) then 45 else 43) :: digitsText ds := by
    rw [exponentText, List.append_assoc, htext]
    by_cases he : e < 0
    · rw [if_pos he, if_pos (decide_eq_true he)]
      rfl
    · rw [if_neg he, if_neg (by rw [decide_eq_true_eq]; exact he)]
      rfl
  rw [hshape]
  refine ⟨?_, by rintro _ ⟨⟩; rfl⟩
  rw [exponentOf_digits 101 (Or.inl rfl) _ ds hd hne, hval]
  by_cases he : e < 0
  · rw [if_pos (decide_eq_true he)]
    exact congrArg some (by omega)
  · rw [if_neg (by rw [decide_eq_true_eq]; exact he)]
    exact congrArg some (by omega)

end Literals

section Integers

/-- The bytes of literals. -/
abbrev NumberBytes (t : Bytes) : Prop := ∀ b ∈ t, isNumberByte b = true

theorem numberBytes_append (s t : Bytes) (hs : NumberBytes s) (ht : NumberBytes t) :
    NumberBytes (s ++ t) := List.forall_mem_append.mpr ⟨hs, ht⟩

theorem numberBytes_digitsText (ds : List Nat) (hd : AreDigits ds) :
    NumberBytes (digitsText ds) := by
  intro b hb
  rw [isNumberByte, isDigit_digitsText ds hd b hb]
  rfl

theorem numberBytes_natText (n : Nat) : NumberBytes (natText n) := by
  rcases exists_natText n with ⟨ds, hds, -, hd, -⟩
  rw [hds]
  exact numberBytes_digitsText ds hd

theorem numberBytes_signText (negative : Bool) : NumberBytes (signText negative) := by
  cases negative with
  | true => exact List.all_eq_true.mp rfl
  | false => exact List.all_eq_true.mp rfl

theorem numberBytes_fractionText (ds : List Nat) (hd : AreDigits ds) :
    NumberBytes (fractionText ds) := by
  by_cases hds : ds = []
  · rw [fractionText, if_pos hds]
    exact fun _ hb => absurd hb List.not_mem_nil
  · rw [fractionText, if_neg hds]
    exact List.forall_mem_cons.mpr ⟨by decide, numberBytes_digitsText ds hd⟩

theorem numberBytes_exponentText (e : Int) : NumberBytes (exponentText e) := by
  have hsign : NumberBytes (if e < 0 then ascii "-" else ascii "+") := by
    by_cases he : e < 0
    · rw [if_pos he]
      exact List.all_eq_true.mp rfl
    · rw [if_neg he]
      exact List.all_eq_true.mp rfl
  have hpad : NumberBytes (if e.natAbs < 10 then digitsText [0] else []) := by
    by_cases he : e.natAbs < 10
    · rw [if_pos he]
      exact List.all_eq_true.mp rfl
    · rw [if_neg he]
      exact List.all_eq_true.mp rfl
  exact numberBytes_append _ _ (numberBytes_append _ _
    (numberBytes_append _ _ (List.all_eq_true.mp rfl) hsign) hpad) (numberBytes_natText _)

/-- An integer under its sign. -/
theorem integerText_eq (n : Int) :
    integerText n = signText (decide (n < 0)) ++ natText n.natAbs := by
  by_cases hn : n < 0
  · rw [integerText, if_pos hn, decide_eq_true hn]
    rfl
  · rw [integerText, if_neg hn, decide_eq_false hn]
    rfl

theorem signed_natAbs (n : Int) : signed (decide (n < 0)) (n.natAbs : Rat) = n := by
  by_cases hn : n < 0
  · rw [signed, if_pos (decide_eq_true hn), Nat.cast_natAbs, abs_of_neg hn, Int.cast_neg, neg_neg]
  · rw [signed, if_neg (by rw [decide_eq_true_eq]; exact hn), Nat.cast_natAbs,
      abs_of_nonneg (Int.not_lt.mp hn)]

theorem numberOf_integerText (n : Int) : numberOf (integerText n) = some (n : Rat) := by
  rcases exists_natText n.natAbs with ⟨ds, hds, hne, hd, hval⟩
  have hread := numberOf_literal (decide (n < 0)) ds [] [] 0 hd hne
    (fun _ h => absurd h List.not_mem_nil) isExponent_nil.1 isExponent_nil.mark
  rw [fractionText, if_pos rfl, List.append_nil, List.append_nil] at hread
  rw [integerText_eq, hds, hread, List.append_nil, hval, List.length_nil, Int.natCast_zero,
    sub_zero, zpow_zero, mul_one, signed_natAbs]

end Integers

section Rounding

/-- The six digits before a carry, as the scaled number. -/
theorem sixDigits_eq (q : Rat) :
    sixDigits q = if roundHalfEven (mantissa 5 q) = 10 ^ 6 then (10 ^ 5, Int.log 10 |q| + 1)
      else (roundHalfEven (mantissa 5 q), Int.log 10 |q|) := rfl

theorem sixDigits_bounds (q : Rat) (hq : q ≠ 0) :
    10 ^ 5 ≤ (sixDigits q).1 ∧ (sixDigits q).1 < 10 ^ 6 := by
  rcases roundHalfEven_bounds (mantissa 5 q) (10 ^ 5) (10 ^ 6)
    (by exact_mod_cast le_mantissa 5 q hq) (by exact_mod_cast mantissa_lt 5 q) with ⟨hlow, hhigh⟩
  rw [sixDigits_eq]
  by_cases hcarry : roundHalfEven (mantissa 5 q) = 10 ^ 6
  · rw [if_pos hcarry]
    exact ⟨Nat.le_refl _, (by decide : 10 ^ 5 < 10 ^ 6)⟩
  · rw [if_neg hcarry]
    exact ⟨hlow, Nat.lt_of_le_of_ne hhigh hcarry⟩

/-- A number rounded to six significant digits. -/
def sixRound (q : Rat) : Rat :=
  signed (decide (q < 0)) ((sixDigits q).1 * 10 ^ ((sixDigits q).2 - 5))

/-- The rounded number has six digits. -/
theorem hasDigits_sixRound (q : Rat) (hq : q ≠ 0) : HasDigits 6 (sixRound q) := by
  have hm : ((sixDigits q).1 : Int) < 10 ^ 6 := by exact_mod_cast (sixDigits_bounds q hq).2
  rw [sixRound, signed]
  by_cases hneg : decide (q < 0) = true
  · rw [if_pos hneg]
    refine ⟨-((sixDigits q).1 : Int), (sixDigits q).2 - 5, ?_, ?_⟩
    · rw [abs_neg, abs_of_nonneg (Int.natCast_nonneg _)]
      exact hm
    · rw [Int.cast_neg, Int.cast_natCast, neg_mul]
  · rw [if_neg hneg]
    refine ⟨((sixDigits q).1 : Int), (sixDigits q).2 - 5, ?_, ?_⟩
    · rw [abs_of_nonneg (Int.natCast_nonneg _)]
      exact hm
    · rw [Int.cast_natCast]

theorem signed_abs (q : Rat) : signed (decide (q < 0)) |q| = q := by
  by_cases hq : q < 0
  · rw [signed, if_pos (decide_eq_true hq), abs_of_neg hq, neg_neg]
  · rw [signed, if_neg (by rw [decide_eq_true_eq]; exact hq), abs_of_nonneg (not_lt.mp hq)]

/-- A number of six digits is not changed. -/
theorem sixRound_of_hasDigits (q : Rat) (hq : q ≠ 0) (h : HasDigits 6 q) : sixRound q = q := by
  rcases mantissa_of_hasDigits 5 q hq h with ⟨n, hn⟩
  have hcarry : ¬ n = 10 ^ 6 := by
    rintro rfl
    have hlt := mantissa_lt 5 q
    rw [hn] at hlt
    norm_num at hlt
  have hscale := mantissa_mul 5 q
  rw [hn] at hscale
  rw [sixRound, sixDigits_eq, hn, roundHalfEven_natCast, if_neg hcarry]
  exact (congrArg (signed (decide (q < 0))) hscale).trans (signed_abs q)

end Rounding

section General

/-- The digits without the zeros at their end. -/
theorem exists_significant (m : Nat) (hlow : 10 ^ 5 ≤ m) (hhigh : m < 10 ^ 6) (ds : List Nat)
    (hds : ds = ((Nat.digits 10 m).dropWhile (· = 0)).reverse) :
    AreDigits ds ∧ ds ≠ [] ∧
      ∃ z, z + ds.length = 6 ∧ m = 10 ^ z * Nat.ofDigits 10 ds.reverse := by
  have hlen : (Nat.digits 10 m).length = 6 := by
    refine Nat.le_antisymm ((Nat.digits_length_le_iff (by decide) m).mpr hhigh) ?_
    exact (Nat.lt_digits_length_iff (by decide) m).mpr hlow
  have hzeros : (Nat.digits 10 m).takeWhile (· = 0)
      = List.replicate ((Nat.digits 10 m).takeWhile (· = 0)).length 0 :=
    List.eq_replicate_of_mem (fun d hd =>
      of_decide_eq_true (List.mem_takeWhile_imp (p := fun d : Nat => decide (d = 0)) hd))
  have hsplit := List.takeWhile_append_dropWhile (p := fun d : Nat => decide (d = 0))
    (l := Nat.digits 10 m)
  have hrev : ds.reverse = (Nat.digits 10 m).dropWhile (· = 0) := by
    rw [hds, List.reverse_reverse]
  have hval : m = 10 ^ ((Nat.digits 10 m).takeWhile (· = 0)).length
      * Nat.ofDigits 10 ds.reverse := by
    rw [hrev, ← ofDigits_replicate_append, ← hzeros, hsplit, Nat.ofDigits_digits]
  refine ⟨?_, ?_, _, ?_, hval⟩
  · intro d hd
    rw [hds] at hd
    exact Nat.digits_lt_base (by decide) (List.dropWhile_subset _ (List.mem_reverse.mp hd))
  · rintro rfl
    rw [List.reverse_nil, Nat.ofDigits_nil, Nat.mul_zero] at hval
    omega
  · rw [← @List.length_reverse _ ds, hrev, ← List.length_append, hsplit, hlen]

/-- Digits with the exponent of the first of them. -/
def scientific (ds : List Nat) (e : Int) : Rat :=
  (Nat.ofDigits 10 ds.reverse : Nat) * 10 ^ (e + 1 - (ds.length : Int))

theorem scientific_eq (m z : Nat) (ds : List Nat) (e : Int) (hz : z + ds.length = 6)
    (hm : m = 10 ^ z * Nat.ofDigits 10 ds.reverse) :
    (m : Rat) * 10 ^ (e - 5) = scientific ds e := by
  rw [hm, scientific, Nat.cast_mul, Nat.cast_pow, Nat.cast_ofNat, mul_comm ((10 : Rat) ^ z),
    mul_assoc, ← zpow_natCast, ← zpow_add₀ (by norm_num)]
  congr 2
  omega

/-- The scientific notation. -/
theorem scientific_split (ds : List Nat) (e : Int) (hne : ds ≠ []) :
    ((Nat.ofDigits 10 (ds.take 1 ++ ds.drop 1).reverse : Nat) : Rat)
        * 10 ^ (e - ((ds.drop 1).length : Int)) = scientific ds e := by
  have hlen := List.length_pos_iff.mpr hne
  rw [List.take_append_drop, List.length_drop, scientific]
  congr 2
  omega

/-- Zeros after the decimal point. -/
theorem scientific_small (ds : List Nat) (e : Int) (he : e < 0) :
    ((Nat.ofDigits 10 ([0] ++ (List.replicate (-e - 1).toNat 0 ++ ds)).reverse : Nat) : Rat)
        * 10 ^ ((0 : Int) - ((List.replicate (-e - 1).toNat 0 ++ ds).length : Int))
      = scientific ds e := by
  rw [show [0] = List.replicate 1 0 from rfl, ofDigits_reverse_zeros, ofDigits_reverse_zeros,
    List.length_append, List.length_replicate, scientific]
  congr 2
  omega

/-- Zeros before the decimal point, or none. -/
theorem scientific_fixed (ds : List Nat) (e : Int) (he : 0 ≤ e) :
    ((Nat.ofDigits 10 (ds.take (e.toNat + 1) ++ List.replicate (e.toNat + 1 - ds.length) 0
          ++ ds.drop (e.toNat + 1)).reverse : Nat) : Rat)
        * 10 ^ ((0 : Int) - ((ds.drop (e.toNat + 1)).length : Int)) = scientific ds e := by
  by_cases hlen : ds.length ≤ e.toNat + 1
  · rw [List.take_of_length_le hlen, List.drop_eq_nil_of_le hlen, List.append_nil,
      List.reverse_append, List.reverse_replicate, ofDigits_replicate_append, List.length_nil,
      Int.natCast_zero, sub_zero, zpow_zero, mul_one, scientific, Nat.cast_mul, Nat.cast_pow,
      Nat.cast_ofNat, mul_comm, ← zpow_natCast]
    congr 2
    omega
  · rw [Nat.sub_eq_zero_of_le (Nat.le_of_not_le hlen), List.replicate_zero, List.append_nil,
      List.take_append_drop, List.length_drop, scientific]
    congr 2
    omega

/-- The notation of a number: digits, a fraction and an exponent that denote
    the rounded number. -/
theorem exists_literal (ds : List Nat) (hd : AreDigits ds) (hne : ds ≠ []) (e : Int) :
    ∃ whole fraction x n, (if e < -4 ∨ 6 ≤ e then
        digitsText (ds.take 1) ++ fractionText (ds.drop 1) ++ exponentText e
      else if e < 0 then digitsText [0] ++ fractionText (List.replicate (-e - 1).toNat 0 ++ ds)
      else digitsText (ds.take (e.toNat + 1) ++ List.replicate (e.toNat + 1 - ds.length) 0)
        ++ fractionText (ds.drop (e.toNat + 1)))
        = digitsText whole ++ (fractionText fraction ++ x) ∧ AreDigits whole ∧ whole ≠ [] ∧
      AreDigits fraction ∧ IsExponent x n ∧ NumberBytes x ∧
      ((Nat.ofDigits 10 (whole ++ fraction).reverse : Nat) : Rat) *
        10 ^ (n - (fraction.length : Int)) = scientific ds e := by
  have htake : ∀ n, 0 < n → ds.take n ≠ [] := fun n hn hc =>
    (List.take_eq_nil_iff.mp hc).elim (Nat.ne_of_gt hn) hne
  by_cases hsci : e < -4 ∨ 6 ≤ e
  · refine ⟨ds.take 1, ds.drop 1, exponentText e, e, ?_, areDigits_take 1 ds hd,
      htake 1 Nat.zero_lt_one, areDigits_drop 1 ds hd, isExponent_exponentText e,
      numberBytes_exponentText e, scientific_split ds e hne⟩
    rw [if_pos hsci, List.append_assoc]
  · rw [if_neg hsci]
    by_cases hneg : e < 0
    · refine ⟨[0], List.replicate (-e - 1).toNat 0 ++ ds, [], 0, ?_, areDigits_replicate 1,
        List.cons_ne_nil 0 [], areDigits_append _ _ (areDigits_replicate _) hd, isExponent_nil,
        fun _ hb => absurd hb List.not_mem_nil, scientific_small ds e hneg⟩
      rw [if_pos hneg, List.append_nil]
    · refine ⟨ds.take (e.toNat + 1) ++ List.replicate (e.toNat + 1 - ds.length) 0,
        ds.drop (e.toNat + 1), [], 0, ?_,
        areDigits_append _ _ (areDigits_take _ ds hd) (areDigits_replicate _), ?_,
        areDigits_drop _ ds hd, isExponent_nil, fun _ hb => absurd hb List.not_mem_nil,
        scientific_fixed ds e (Int.not_lt.mp hneg)⟩
      · rw [if_neg hneg, List.append_nil]
      · exact fun hc => htake (e.toNat + 1) (Nat.succ_pos _) (List.append_eq_nil_iff.mp hc).1

theorem generalText_numeral (q : Rat) (hq : q ≠ 0) :
    numberOf (generalText q) = some (sixRound q) ∧ NumberBytes (generalText q) := by
  rcases sixDigits_bounds q hq with ⟨hlow, hhigh⟩
  rcases exists_significant (sixDigits q).1 hlow hhigh _ rfl with ⟨hd, hne, z, hz, hm⟩
  rcases exists_literal _ hd hne (sixDigits q).2
    with ⟨whole, fraction, x, n, htext, hw, hwne, hf, hx, hxb, hval⟩
  have hsign : (if q < 0 then ascii "-" else []) = signText (decide (q < 0)) := by
    by_cases hneg : q < 0
    · rw [if_pos hneg, decide_eq_true hneg]
      rfl
    · rw [if_neg hneg, decide_eq_false hneg]
      rfl
  have heq : generalText q
      = signText (decide (q < 0)) ++ (digitsText whole ++ (fractionText fraction ++ x)) := by
    rw [← htext, ← hsign]
    rfl
  rw [heq]
  refine ⟨?_, ?_⟩
  · rw [numberOf_literal _ whole fraction x n hw hwne hf hx.1 hx.mark, hval,
      ← scientific_eq (sixDigits q).1 z _ (sixDigits q).2 hz hm]
    rfl
  · exact numberBytes_append _ _ (numberBytes_signText _)
      (numberBytes_append _ _ (numberBytes_digitsText whole hw)
        (numberBytes_append _ _ (numberBytes_fractionText _ hf) hxb))

end General

section Wire

/-- What is left of a number once it has been written. -/
def wireNumber (q : Rat) : Rat := if isLongLong q then q else sixRound q

/-- The numbers that survive the writer. -/
def Representable (q : Rat) : Prop := isLongLong q = true ∨ HasDigits 6 q

theorem num_of_isLongLong (q : Rat) (h : isLongLong q = true) : (q.num : Rat) = q :=
  Rat.coe_int_num_of_den_eq_one (of_decide_eq_true h).1

theorem ne_zero_of_not_isLongLong (q : Rat) (h : ¬ isLongLong q = true) : q ≠ 0 := by
  rintro rfl
  exact h (by decide)

/-- What the parser takes from the writer's text. -/
theorem numberOf_numberText (q : Rat) :
    numberOf (numberText q) = some (wireNumber q) ∧ NumberBytes (numberText q) := by
  by_cases h : isLongLong q = true
  · rw [numberText, if_pos h, wireNumber, if_pos h]
    refine ⟨?_, ?_⟩
    · rw [numberOf_integerText, num_of_isLongLong q h]
    · rw [integerText_eq]
      exact numberBytes_append _ _ (numberBytes_signText _) (numberBytes_natText _)
  · rw [numberText, if_neg h, wireNumber, if_neg h]
    exact generalText_numeral q (ne_zero_of_not_isLongLong q h)

-- The three forms of the text: scientific, a fraction below 1, and a rounded one.
example : numberText (2469135 / 2) = ascii "1.23457e+06" := by decide +kernel
example : numberText (-1 / 8000) = ascii "-0.000125" := by decide +kernel
example : numberText (200 / 3) = ascii "66.6667" := by decide +kernel

theorem numberText_ne_nil (q : Rat) : numberText q ≠ [] := by
  intro hc
  have h := (numberOf_numberText q).1
  rw [hc, show numberOf [] = none by decide] at h
  exact absurd h (by simp only [reduceCtorEq, not_false_eq_true])

theorem representable_wireNumber (q : Rat) : Representable (wireNumber q) := by
  by_cases h : isLongLong q = true
  · rw [wireNumber, if_pos h]
    exact Or.inl h
  · rw [wireNumber, if_neg h]
    exact Or.inr (hasDigits_sixRound q (ne_zero_of_not_isLongLong q h))

theorem wireNumber_of_representable (q : Rat) (h : Representable q) : wireNumber q = q := by
  by_cases hint : isLongLong q = true
  · rw [wireNumber, if_pos hint]
  · rw [wireNumber, if_neg hint]
    exact sixRound_of_hasDigits q (ne_zero_of_not_isLongLong q hint) (h.resolve_left hint)

/-- Writing twice loses no more than writing once. -/
theorem wireNumber_wireNumber (q : Rat) : wireNumber (wireNumber q) = wireNumber q :=
  wireNumber_of_representable _ (representable_wireNumber q)

theorem wireNumber_eq_iff (q : Rat) : wireNumber q = q ↔ Representable q := by
  refine ⟨fun h => ?_, wireNumber_of_representable q⟩
  rw [← h]
  exact representable_wireNumber q

end Wire

end JsonText

end MzzPlork
