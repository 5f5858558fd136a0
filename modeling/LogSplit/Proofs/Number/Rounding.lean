import LogSplit.Number.Decimal
import Mathlib.Algebra.Order.Ring.Nat

/-!
# Rounding to binary64

What a fraction of units is rounded to depends on the value of the fraction alone and not on how it
is written (`nearestMagnitude_congr`), and a binary64 number is rounded to itself
(`nearestMagnitude_unitsOf`).

A decimal is rounded as the fraction it stands for.  The two bounds under which its power of ten is
not computed change nothing: a power that small rounds to zero anyway
(`Decimal.nearestMagnitude_eq`), and a power that large leaves the finite numbers.  So two decimals
of one value are rounded to the same number (`Decimal.SameValue.nearestMagnitude_eq`).
-/

set_option autoImplicit false

namespace LogSplit

/-! ## Fractions -/

theorem roundHalfEven_mul {k : Nat} (hk : 0 < k) (num den : Nat) :
    roundHalfEven (k * num) (k * den) = roundHalfEven num den := by
  have hlow : 2 * (k * (num % den)) < k * den ↔ 2 * (num % den) < den := by
    rw [Nat.mul_left_comm]
    exact Nat.mul_lt_mul_left hk
  have hhigh : k * den < 2 * (k * (num % den)) ↔ den < 2 * (num % den) := by
    rw [Nat.mul_left_comm]
    exact Nat.mul_lt_mul_left hk
  simp only [roundHalfEven, Nat.mul_div_mul_left _ _ hk, Nat.mul_mod_mul_left, hlow, hhigh]

theorem roundHalfEven_mul_self {den : Nat} (hden : 0 < den) (n : Nat) :
    roundHalfEven (n * den) den = n := by
  simp [roundHalfEven, Nat.mul_div_cancel n hden, hden]

theorem nearestMagnitude_mul {k : Nat} (hk : 0 < k) (num den : Nat) :
    nearestMagnitude (k * num) (k * den) = nearestMagnitude num den := by
  simp only [nearestMagnitude, Nat.mul_div_mul_left _ _ hk, Nat.mul_assoc k den,
    roundHalfEven_mul hk]

/-- **Rounding depends on the value alone.** -/
theorem nearestMagnitude_congr {num den num' den' : Nat} (hden : 0 < den) (hden' : 0 < den')
    (h : num * den' = num' * den) : nearestMagnitude num den = nearestMagnitude num' den' :=
  calc nearestMagnitude num den
      = nearestMagnitude (den' * num) (den' * den) := (nearestMagnitude_mul hden' _ _).symm
    _ = nearestMagnitude (den * num') (den * den') := by
        rw [Nat.mul_comm den' num, h, Nat.mul_comm num' den, Nat.mul_comm den' den]
    _ = nearestMagnitude num' den' := nearestMagnitude_mul hden _ _

/-- Less than half a unit is rounded to zero. -/
theorem nearestMagnitude_of_lt {num den : Nat} (h : 2 * num < den) :
    nearestMagnitude num den = 0 := by
  have hzero : num / den = 0 := Nat.div_eq_of_lt (by omega)
  have hrest : num % den = num := Nat.mod_eq_of_lt (by omega)
  simp [nearestMagnitude, roundHalfEven, hzero, hrest, h]

/-- A number with a leading one at `2 ^ 52` and `k` doublings has its leading one at
`2 ^ (52 + k)`. -/
theorem log2_mul_two_pow {n : Nat} (hlow : 2 ^ 52 ≤ n) (hhigh : n < 2 ^ 53) (k : Nat) :
    (n * 2 ^ k).log2 = 52 + k := by
  have hpos : 0 < 2 ^ k := Nat.two_pow_pos k
  refine (Nat.log2_eq_iff (Nat.mul_ne_zero (by omega) hpos.ne')).2 ⟨?_, ?_⟩
  · rw [Nat.pow_add]
    exact Nat.mul_le_mul_right _ hlow
  · rw [Nat.add_right_comm, Nat.pow_add]
    exact Nat.mul_lt_mul_of_pos_right hhigh hpos

/-- **A binary64 number is rounded to itself.** -/
theorem nearestMagnitude_unitsOf (magnitude : Nat) :
    nearestMagnitude (Binary64.unitsOf magnitude) 1 = magnitude := by
  rw [nearestMagnitude, Nat.div_one, Nat.one_mul, Binary64.unitsOf]
  simp only [Nat.pow_eq]
  split
  · rename_i hsmall
    have hspacing : magnitude.log2 - 52 = 0 := by
      by_cases hzero : magnitude = 0
      · simp [hzero]
      · exact Nat.sub_eq_zero_of_le ((Nat.log2_lt hzero).2 hsmall).le
    rw [hspacing]
    simpa using roundHalfEven_mul_self Nat.one_pos magnitude
  · rename_i hlarge
    have hfraction : magnitude % 2 ^ 52 < 2 ^ 52 := Nat.mod_lt _ (Nat.two_pow_pos 52)
    have hfield : 1 ≤ magnitude / 2 ^ 52 := by omega
    have hspacing : ((2 ^ 52 + magnitude % 2 ^ 52) * 2 ^ (magnitude / 2 ^ 52 - 1)).log2 - 52
        = magnitude / 2 ^ 52 - 1 := by
      rw [log2_mul_two_pow (by omega) (by omega)]
      omega
    rw [hspacing, roundHalfEven_mul_self (Nat.two_pow_pos _)]
    omega

/-! ## Decimals -/

namespace Decimal

/-- A power of ten that is not computed because it is too small rounds to zero. -/
theorem nearestMagnitude_of_small {digits power scale : Nat} (hscale : scale.log2 ≤ 1074)
    (h : 400 + digits.log2 < power) :
    LogSplit.nearestMagnitude (digits * scale) (Nat.pow 10 power) = 0 := by
  refine nearestMagnitude_of_lt ?_
  rw [Nat.pow_eq]
  calc 2 * (digits * scale)
      < 2 * (2 ^ (digits.log2 + 1) * 2 ^ (scale.log2 + 1)) :=
        Nat.mul_lt_mul_of_pos_left (Nat.mul_lt_mul'' Nat.lt_log2_self Nat.lt_log2_self) Nat.two_pos
    _ = 2 ^ (digits.log2 + 1 + (scale.log2 + 1) + 1) := by
        rw [← Nat.pow_add, ← Nat.pow_succ']
    _ ≤ 2 ^ (3 * power) := Nat.pow_le_pow_right Nat.two_pos (by omega)
    _ = 8 ^ power := Nat.pow_mul 2 3 power
    _ ≤ 10 ^ power := Nat.pow_le_pow_left (by decide) _

theorem ten_pow_pos (n : Nat) : 0 < Nat.pow 10 n := Nat.pow_pos (by decide)

/-- **A decimal is rounded as the fraction it stands for**, unless its power of ten is beyond the
finite numbers. -/
theorem nearestMagnitude_eq {d : Decimal} (h : d.exponent ≤ maxExponent) :
    d.nearestMagnitude
      = LogSplit.nearestMagnitude (d.digits * Nat.pow 10 d.exponent.toNat * Nat.pow 2 1074)
          (Nat.pow 10 (-d.exponent).toNat) := by
  rw [Decimal.nearestMagnitude]
  by_cases hzero : d.digits = 0
  · have hnone (a b : Nat) : d.digits * a * b = 0 := by rw [hzero, Nat.zero_mul, Nat.zero_mul]
    rw [if_pos hzero, hnone]
    exact (nearestMagnitude_of_lt (ten_pow_pos _)).symm
  rw [if_neg hzero, if_neg (Int.not_lt.2 h)]
  rcases Int.lt_or_le d.exponent 0 with hneg | hnonneg
  · have hpower : Nat.pow 10 d.exponent.toNat = 1 :=
      congrArg (Nat.pow 10) (Int.toNat_of_nonpos hneg.le)
    rw [hpower, Nat.mul_one, if_neg (Int.not_le.2 hneg)]
    split
    · rename_i hsmall
      simp only [maxExponent] at hsmall
      exact (nearestMagnitude_of_small (by decide +kernel) (by omega)).symm
    · rfl
  · have hpower : Nat.pow 10 (-d.exponent).toNat = 1 :=
      congrArg (Nat.pow 10) (Int.toNat_of_nonpos (by omega))
    rw [hpower, if_neg (by simp only [maxExponent]; omega), if_pos hnonneg]

/-- Two decimals stand for the same value, signs aside. -/
def SameValue (d d' : Decimal) : Prop :=
  d.digits * Nat.pow 10 d.exponent.toNat * Nat.pow 10 (-d'.exponent).toNat
    = d'.digits * Nat.pow 10 d'.exponent.toNat * Nat.pow 10 (-d.exponent).toNat

/-- **Decimals of the same value are rounded to the same number**, if it is finite and the power of
ten of the second is none of the large ones. -/
theorem SameValue.nearestMagnitude_eq {d d' : Decimal} (h : SameValue d d')
    (hfinite : d.nearestMagnitude < Binary64.infinityMagnitude) (hd' : d'.exponent ≤ maxExponent) :
    d'.nearestMagnitude = d.nearestMagnitude := by
  by_cases hzero : d.digits = 0
  · have hdigits : d'.digits = 0 := by
      rw [SameValue, hzero, Nat.zero_mul, Nat.zero_mul] at h
      simpa [(ten_pow_pos _).ne'] using h.symm
    rw [Decimal.nearestMagnitude, Decimal.nearestMagnitude, if_pos hzero, if_pos hdigits]
  have hd : d.exponent ≤ maxExponent := by
    refine Int.not_lt.1 fun hlarge => ?_
    rw [Decimal.nearestMagnitude, if_neg hzero, if_pos hlarge] at hfinite
    exact Nat.lt_irrefl _ hfinite
  rw [Decimal.nearestMagnitude_eq hd, Decimal.nearestMagnitude_eq hd']
  refine nearestMagnitude_congr (ten_pow_pos _) (ten_pow_pos _) ?_
  rw [Nat.mul_right_comm, ← h, Nat.mul_right_comm]

end Decimal

end LogSplit
