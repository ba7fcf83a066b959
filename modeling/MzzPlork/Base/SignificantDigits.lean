import Mathlib.Data.Int.Log
import Mathlib.Data.Rat.Floor
import Mathlib.Tactic.NormNum

/-!
# Significant Digits

A number other than 0 is scaled by the power of ten that leaves `p + 1` digits
before the decimal point. A number that has no more significant digits than
that is scaled to a whole number.

## Main definitions

* `HasDigits`: A number with a given number of significant digits at most.
* `mantissa`: A number scaled to a given number of digits.

## Theorems

* `le_mantissa`, `mantissa_lt`: The mantissa has that many digits.
* `mantissa_mul`: Scaling back.
* `mantissa_of_hasDigits`: Where the mantissa is a whole number.
-/

namespace MzzPlork

/-- A number with `p` significant digits at most. -/
def HasDigits (p : Nat) (q : Rat) : Prop := ∃ m k : Int, |m| < 10 ^ p ∧ q = m * 10 ^ k

/-- A number scaled to `p + 1` digits before the decimal point. -/
def mantissa (p : Nat) (q : Rat) : Rat := |q| / 10 ^ (Int.log 10 |q| - (p : Int))

theorem mantissa_mul (p : Nat) (q : Rat) :
    mantissa p q * 10 ^ (Int.log 10 |q| - (p : Int)) = |q| :=
  div_mul_cancel₀ _ (zpow_ne_zero _ (by norm_num))

theorem le_mantissa (p : Nat) (q : Rat) (hq : q ≠ 0) : (10 : Rat) ^ p ≤ mantissa p q := by
  have hlog : ((10 : Nat) : Rat) ^ Int.log 10 |q| ≤ |q| :=
    Int.zpow_log_le_self (by norm_num) (abs_pos.mpr hq)
  rw [mantissa, le_div_iff₀ (zpow_pos (by norm_num) _), ← zpow_natCast, ← zpow_add₀ (by norm_num),
    add_sub_cancel]
  exact_mod_cast hlog

theorem mantissa_lt (p : Nat) (q : Rat) : mantissa p q < (10 : Rat) ^ (p + 1) := by
  have hlog : |q| < ((10 : Nat) : Rat) ^ (Int.log 10 |q| + 1) :=
    Int.lt_zpow_succ_log_self (by norm_num) |q|
  rw [mantissa, div_lt_iff₀ (zpow_pos (by norm_num) _), ← zpow_natCast, ← zpow_add₀ (by norm_num),
    show ((p + 1 : Nat) : Int) + (Int.log 10 |q| - (p : Int)) = Int.log 10 |q| + 1 by omega]
  exact_mod_cast hlog

/-- The exponent of the scaling is not above that of the digits. -/
theorem log_le_of_hasDigits (p : Nat) (q : Rat) (hq : q ≠ 0) (m k : Int) (hm : |m| < 10 ^ (p + 1))
    (h : q = m * 10 ^ k) : Int.log 10 |q| - (p : Int) ≤ k := by
  have habs : |q| = (|m| : Int) * 10 ^ k := by
    rw [h, abs_mul, abs_of_pos (zpow_pos (by norm_num : (0 : Rat) < 10) k), Int.cast_abs]
  have hlt : |q| < (10 : Rat) ^ ((p : Int) + 1 + k) := by
    rw [habs, zpow_add₀ (by norm_num)]
    refine mul_lt_mul_of_pos_right ?_ (zpow_pos (by norm_num) k)
    exact_mod_cast hm
  have hlog : ((10 : Nat) : Rat) ^ Int.log 10 |q| ≤ |q| :=
    Int.zpow_log_le_self (by norm_num) (abs_pos.mpr hq)
  have hexp := (zpow_lt_zpow_iff_right₀ (by norm_num : (1 : Rat) < 10)).mp
    (lt_of_le_of_lt (by exact_mod_cast hlog) hlt)
  omega

theorem mantissa_of_hasDigits (p : Nat) (q : Rat) (hq : q ≠ 0) (h : HasDigits (p + 1) q) :
    ∃ n : Nat, mantissa p q = n := by
  rcases h with ⟨m, k, hm, h⟩
  have hle := log_le_of_hasDigits p q hq m k hm h
  rcases Int.eq_ofNat_of_zero_le (Int.sub_nonneg_of_le hle) with ⟨d, hd⟩
  refine ⟨m.natAbs * 10 ^ d, ?_⟩
  have habs : |q| = (m.natAbs : Rat) * 10 ^ k := by
    rw [h, abs_mul, abs_of_pos (zpow_pos (by norm_num : (0 : Rat) < 10) k), Nat.cast_natAbs,
      Int.cast_abs]
  rw [mantissa, div_eq_iff (zpow_ne_zero _ (by norm_num)), Nat.cast_mul, Nat.cast_pow,
    Nat.cast_ofNat, mul_assoc, ← zpow_natCast, ← zpow_add₀ (by norm_num), ← hd]
  rw [habs]
  congr 2
  omega

end MzzPlork
