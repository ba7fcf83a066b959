import Mathlib.Data.Int.Log
import Mathlib.Data.Rat.Floor
import Mathlib.Tactic.NormNum

/-!
# Binary Floating Point

The numbers of a binary format, and the rounding of a rational number to one.

A number is scaled by the power of two that leaves as many bits before the
point as the format has, or by the least power the format has if that is
greater. The scaled number is rounded to a natural number, the even one of two
that are as near. A carry in the leading bit leads to the next power of two,
which is a number of the format as well unless it is out of range.

## Main definitions

* `roundHalfEven`: The nearest natural number.
* `BinaryFormat`: A number of bits and a range of exponents.
* `BinaryFormat.Has`: The numbers of a format.
* `BinaryFormat.nearest`: A number rounded, however great it is.
* `BinaryFormat.round`: A number rounded, unless it is out of range.

## Theorems

* `has_of_round`: What a number is rounded to is one of the format.
* `round_eq_self_iff`: The numbers that are not changed.
-/

namespace MzzPlork

section Integers

/-- The nearest natural number, the even one of two. -/
def roundHalfEven (q : Rat) : Nat :=
  let n := ⌊q⌋.toNat
  if q - n < 1 / 2 then n
  else if 1 / 2 < q - n then n + 1
  else if n % 2 = 0 then n else n + 1

/-- The whole part, or one more. -/
theorem roundHalfEven_cases (q : Rat) :
    roundHalfEven q = ⌊q⌋.toNat ∨ roundHalfEven q = ⌊q⌋.toNat + 1 := by
  simp only [roundHalfEven]
  split_ifs
  · exact Or.inl rfl
  · exact Or.inr rfl
  · exact Or.inl rfl
  · exact Or.inr rfl

theorem roundHalfEven_natCast (n : Nat) : roundHalfEven n = n := by
  have hhalf : ((n : Rat) - ((⌊(n : Rat)⌋.toNat : Nat) : Rat)) < 1 / 2 := by
    rw [Int.floor_natCast, Int.toNat_natCast, sub_self]
    norm_num
  simp only [roundHalfEven]
  rw [if_pos hhalf, Int.floor_natCast, Int.toNat_natCast]

theorem roundHalfEven_bounds (q : Rat) (a b : Nat) (ha : (a : Rat) ≤ q) (hb : q < b) :
    a ≤ roundHalfEven q ∧ roundHalfEven q ≤ b := by
  have hlow : (a : Int) ≤ ⌊q⌋ := Int.le_floor.mpr (by exact_mod_cast ha)
  have hhigh : ⌊q⌋ < (b : Int) := Int.floor_lt.mpr (by exact_mod_cast hb)
  rcases roundHalfEven_cases q with h | h <;> rw [h] <;> omega

end Integers

/-- A binary format: the bits of a number besides the leading one, and the
    exponents of its last bit. -/
structure BinaryFormat where
  bits : Nat
  least : Int
  greatest : Int
  least_le : least ≤ greatest

namespace BinaryFormat

variable (F : BinaryFormat)

/-- The numbers of a format. -/
def Has (q : Rat) : Prop :=
  ∃ m e : Int, |m| < 2 ^ (F.bits + 1) ∧ F.least ≤ e ∧ e ≤ F.greatest ∧ q = m * 2 ^ e

/-- The exponent of the last bit that is kept of a number. -/
def lastBit (q : Rat) : Int := max F.least (Int.log 2 |q| - (F.bits : Int))

/-- The bits that are kept, as a natural number. -/
def kept (q : Rat) : Nat := roundHalfEven (|q| / 2 ^ F.lastBit q)

/-- A number rounded, however great it is. -/
def nearest (q : Rat) : Rat :=
  if q < 0 then -(F.kept q * 2 ^ F.lastBit q) else F.kept q * 2 ^ F.lastBit q

/-- A number rounded, unless it is out of range. -/
def round (q : Rat) : Option Rat :=
  if |F.nearest q| < 2 ^ ((F.bits : Int) + 1 + F.greatest) then some (F.nearest q) else none

theorem two_zpow_pos (e : Int) : (0 : Rat) < 2 ^ e := zpow_pos (by norm_num) e

theorem abs_nearest (q : Rat) : |F.nearest q| = F.kept q * 2 ^ F.lastBit q := by
  have hpos : (0 : Rat) ≤ F.kept q * 2 ^ F.lastBit q :=
    mul_nonneg (Nat.cast_nonneg _) (two_zpow_pos _).le
  rw [nearest]
  split_ifs
  · rw [abs_neg, abs_of_nonneg hpos]
  · exact abs_of_nonneg hpos

/-- The scaled number has no more bits than the format. -/
theorem scaled_lt (q : Rat) : |q| / 2 ^ F.lastBit q < 2 ^ (F.bits + 1) := by
  have hlog : |q| < ((2 : Nat) : Rat) ^ (Int.log 2 |q| + 1) :=
    Int.lt_zpow_succ_log_self (by norm_num) |q|
  rw [div_lt_iff₀ (two_zpow_pos _), ← zpow_natCast, ← zpow_add₀ (by norm_num)]
  refine lt_of_lt_of_le (by exact_mod_cast hlog) (zpow_le_zpow_right₀ (by norm_num) ?_)
  rw [lastBit]
  omega

/-- It has all of them, unless the exponent is the least one. -/
theorem le_scaled (q : Rat) (hq : q ≠ 0) (h : F.least < F.lastBit q) :
    2 ^ F.bits ≤ |q| / 2 ^ F.lastBit q := by
  have hlog : ((2 : Nat) : Rat) ^ Int.log 2 |q| ≤ |q| :=
    Int.zpow_log_le_self (by norm_num) (abs_pos.mpr hq)
  rw [le_div_iff₀ (two_zpow_pos _), ← zpow_natCast, ← zpow_add₀ (by norm_num)]
  refine le_trans (zpow_le_zpow_right₀ (by norm_num) ?_) (by exact_mod_cast hlog)
  rw [lastBit] at h ⊢
  omega

theorem kept_le (q : Rat) : F.kept q ≤ 2 ^ (F.bits + 1) := by
  have hpos : 0 ≤ |q| / 2 ^ F.lastBit q := div_nonneg (abs_nonneg q) (two_zpow_pos _).le
  exact (roundHalfEven_bounds (|q| / 2 ^ F.lastBit q) 0 (2 ^ (F.bits + 1))
    (by exact_mod_cast hpos) (by exact_mod_cast F.scaled_lt q)).2

theorem le_kept (q : Rat) (hq : q ≠ 0) (h : F.least < F.lastBit q) : 2 ^ F.bits ≤ F.kept q :=
  (roundHalfEven_bounds (|q| / 2 ^ F.lastBit q) (2 ^ F.bits) (2 ^ (F.bits + 1))
    (by exact_mod_cast F.le_scaled q hq h) (by exact_mod_cast F.scaled_lt q)).1

variable {F}

theorem Has.neg {q : Rat} (h : F.Has q) : F.Has (-q) := by
  rcases h with ⟨m, e, hm, hlow, hhigh, rfl⟩
  exact ⟨-m, e, by rwa [abs_neg], hlow, hhigh, by rw [Int.cast_neg, neg_mul]⟩

/-- Few enough bits at an exponent in range. -/
theorem has_natCast_mul (n : Nat) (e : Int) (hn : n < 2 ^ (F.bits + 1)) (hlow : F.least ≤ e)
    (hhigh : e ≤ F.greatest) : F.Has (n * 2 ^ e) :=
  ⟨n, e, by rw [abs_of_nonneg (Int.natCast_nonneg n)]; exact_mod_cast hn, hlow, hhigh,
    by rw [Int.cast_natCast]⟩

/-- A rounded magnitude in range is one of the format. -/
theorem has_kept_mul (q : Rat)
    (h : (F.kept q : Rat) * 2 ^ F.lastBit q < 2 ^ ((F.bits : Int) + 1 + F.greatest)) :
    F.Has (F.kept q * 2 ^ F.lastBit q) := by
  have hlow : F.least ≤ F.lastBit q := le_max_left _ _
  by_cases hq : q = 0
  · have hzero : F.kept q = 0 := by
      rw [kept, hq, abs_zero, zero_div]
      exact_mod_cast roundHalfEven_natCast 0
    rw [hzero]
    exact ⟨0, F.least, by norm_num, le_refl _, F.least_le, by norm_num⟩
  have hbelow : ∀ k : Nat, 2 ^ k ≤ F.kept q →
      (k : Int) + F.lastBit q < (F.bits : Int) + 1 + F.greatest := by
    intro k hk
    refine (zpow_lt_zpow_iff_right₀ (by norm_num : (1 : Rat) < 2)).mp (lt_of_le_of_lt ?_ h)
    rw [zpow_add₀ (by norm_num), zpow_natCast]
    exact mul_le_mul_of_nonneg_right (by exact_mod_cast hk) (two_zpow_pos _).le
  rcases Nat.lt_or_eq_of_le (F.kept_le q) with hlt | hcarry
  · refine has_natCast_mul _ _ hlt hlow ?_
    by_contra hgreat
    have hleast := F.least_le
    have hfull := hbelow F.bits (F.le_kept q hq (by omega))
    omega
  · -- The carry goes into the exponent.
    have hrange := hbelow (F.bits + 1) (Nat.le_of_eq hcarry.symm)
    have hshift : (F.kept q : Rat) * 2 ^ F.lastBit q
        = ((2 ^ F.bits : Nat) : Rat) * 2 ^ (F.lastBit q + 1) := by
      rw [hcarry, zpow_add₀ (by norm_num), zpow_one]
      push_cast
      ring
    rw [hshift]
    refine has_natCast_mul _ _ (Nat.pow_lt_pow_right (by decide) (Nat.lt_succ_self _)) ?_ ?_
    · omega
    · push_cast at hrange
      omega

/-- What a number is rounded to is one of the format. -/
theorem has_of_round (q r : Rat) (h : F.round q = some r) : F.Has r := by
  rw [round, Option.ite_none_right_eq_some, Option.some.injEq, abs_nearest] at h
  rcases h with ⟨hrange, rfl⟩
  have hhas := has_kept_mul q hrange
  rw [nearest]
  split_ifs
  · exact hhas.neg
  · exact hhas

/-- The bits of a number of the format are all kept. -/
theorem nearest_of_has (q : Rat) (h : F.Has q) : F.nearest q = q := by
  by_cases hq : q = 0
  · have hzero : F.kept q = 0 := by
      rw [kept, hq, abs_zero, zero_div]
      exact_mod_cast roundHalfEven_natCast 0
    rw [nearest, hzero, hq]
    norm_num
  rcases h with ⟨m, e, hm, hlow, -, h⟩
  have habs : |q| = (m.natAbs : Rat) * 2 ^ e := by
    rw [h, abs_mul, abs_of_pos (two_zpow_pos e), Nat.cast_natAbs, Int.cast_abs]
  -- The last bit that is kept is none of those behind the last one there is.
  have hlast : F.lastBit q ≤ e := by
    have hlt : |q| < (2 : Rat) ^ ((F.bits : Int) + 1 + e) := by
      rw [habs, zpow_add₀ (by norm_num)]
      refine mul_lt_mul_of_pos_right ?_ (two_zpow_pos e)
      rw [Int.abs_eq_natAbs] at hm
      exact_mod_cast hm
    have hlog : ((2 : Nat) : Rat) ^ Int.log 2 |q| ≤ |q| :=
      Int.zpow_log_le_self (by norm_num) (abs_pos.mpr hq)
    have hexp := (zpow_lt_zpow_iff_right₀ (by norm_num : (1 : Rat) < 2)).mp
      (lt_of_le_of_lt (by exact_mod_cast hlog) hlt)
    rw [lastBit]
    omega
  rcases Int.eq_ofNat_of_zero_le (Int.sub_nonneg_of_le hlast) with ⟨d, hd⟩
  have hscaled : |q| / 2 ^ F.lastBit q = (m.natAbs * 2 ^ d : Nat) := by
    rw [habs, div_eq_iff (two_zpow_pos _).ne', Nat.cast_mul, Nat.cast_pow, Nat.cast_ofNat,
      mul_assoc, ← zpow_natCast, ← zpow_add₀ (by norm_num), ← hd, sub_add_cancel]
  have hkept : (F.kept q : Rat) * 2 ^ F.lastBit q = |q| := by
    rw [kept, hscaled, roundHalfEven_natCast, ← hscaled, div_mul_cancel₀ _ (two_zpow_pos _).ne']
  rw [nearest, hkept]
  split_ifs with hneg
  · rw [abs_of_neg hneg, neg_neg]
  · exact abs_of_nonneg (not_lt.mp hneg)

/-- The numbers that are not changed are those of the format. -/
theorem round_eq_self_iff (q : Rat) : F.round q = some q ↔ F.Has q := by
  refine ⟨has_of_round q q, fun h => ?_⟩
  rw [round, nearest_of_has q h]
  refine if_pos ?_
  rcases h with ⟨m, e, hm, -, hhigh, rfl⟩
  rw [abs_mul, abs_of_pos (two_zpow_pos e)]
  have hlt : |(m : Rat)| < 2 ^ (F.bits + 1) := by exact_mod_cast hm
  calc |(m : Rat)| * 2 ^ e < 2 ^ (F.bits + 1) * 2 ^ e :=
        mul_lt_mul_of_pos_right hlt (two_zpow_pos e)
    _ = 2 ^ ((F.bits : Int) + 1 + e) := by
        rw [zpow_add₀ (by norm_num)]
        norm_cast
    _ ≤ 2 ^ ((F.bits : Int) + 1 + F.greatest) :=
        zpow_le_zpow_right₀ (by norm_num) (by omega)

end BinaryFormat

end MzzPlork
