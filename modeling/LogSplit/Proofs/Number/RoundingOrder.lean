import LogSplit.Proofs.Number.Rounding
import Mathlib.Algebra.Order.Field.Basic
import Mathlib.Algebra.Order.Field.Power
import Mathlib.Algebra.Order.Field.Rat

/-!
# Rounding keeps the order

A fraction that is not larger than another one is not rounded to a larger binary64 number
(`nearestMagnitude_mono`).  Where the numbers are equally spaced this is so because rounding moves a
fraction by half a unit at most: two fractions that were exchanged would have to be the same one.
Between two spacings a power of two is in the way, which is rounded to itself from both sides.

The value of a decimal is a rational number (`Decimal.value`).  From infinity on and around zero
many decimals are rounded to one number, and both zeros are equal, but the order is kept there as
well (`Decimal.rank_nearest_mono`).
-/

set_option autoImplicit false

namespace LogSplit

/-! ## Equally spaced numbers -/

section roundHalfEven

variable {num den num' den' : Nat}

/-- Rounding moves a fraction by half a unit at most. -/
theorem roundHalfEven_error (hden : 0 < den) (num : Nat) :
    2 * (roundHalfEven num den * den) ≤ 2 * num + den ∧
      2 * num ≤ 2 * (roundHalfEven num den * den) + den := by
  have hsplit := Nat.div_add_mod' num den
  have hrest := Nat.mod_lt num hden
  rw [roundHalfEven]
  split
  · omega
  · split
    · rw [Nat.add_one_mul (num / den)]
      omega
    · split
      · omega
      · rw [Nat.add_one_mul (num / den)]
        omega

theorem roundHalfEven_congr (hden : 0 < den) (hden' : 0 < den') (h : num * den' = num' * den) :
    roundHalfEven num den = roundHalfEven num' den' :=
  calc roundHalfEven num den
      = roundHalfEven (den' * num) (den' * den) := (roundHalfEven_mul hden' _ _).symm
    _ = roundHalfEven (den * num') (den * den') := by
        rw [Nat.mul_comm den' num, h, Nat.mul_comm num' den, Nat.mul_comm den' den]
    _ = roundHalfEven num' den' := roundHalfEven_mul hden _ _

/-- **Rounding to whole numbers keeps the order.** -/
theorem roundHalfEven_mono (hden : 0 < den) (hden' : 0 < den') (h : num * den' ≤ num' * den) :
    roundHalfEven num den ≤ roundHalfEven num' den' := by
  refine Nat.le_of_not_lt fun hlt => ?_
  obtain ⟨hlow, -⟩ := roundHalfEven_error hden num
  obtain ⟨-, hhigh⟩ := roundHalfEven_error hden' num'
  -- both fractions are half a unit above the smaller of the two results
  have hnum : (2 * roundHalfEven num' den' + 1) * den ≤ 2 * num := by
    have hstep := Nat.mul_le_mul_right den (Nat.succ_le_of_lt hlt)
    rw [Nat.succ_mul] at hstep
    rw [Nat.add_mul, Nat.one_mul, Nat.mul_assoc]
    omega
  have hnum' : 2 * num' ≤ (2 * roundHalfEven num' den' + 1) * den' := by
    rw [Nat.add_mul, Nat.one_mul, Nat.mul_assoc]
    exact hhigh
  have hback : num' * den ≤ num * den' := by
    refine Nat.le_of_mul_le_mul_left ?_ Nat.two_pos
    calc 2 * (num' * den)
        = 2 * num' * den := (Nat.mul_assoc 2 num' den).symm
      _ ≤ (2 * roundHalfEven num' den' + 1) * den' * den := Nat.mul_le_mul_right den hnum'
      _ = (2 * roundHalfEven num' den' + 1) * den * den' := Nat.mul_right_comm _ _ _
      _ ≤ 2 * num * den' := Nat.mul_le_mul_right den' hnum
      _ = 2 * (num * den') := Nat.mul_assoc 2 num den'
  exact Nat.ne_of_gt hlt (roundHalfEven_congr hden hden' (Nat.le_antisymm h hback))

theorem roundHalfEven_le {n : Nat} (hden : 0 < den) (h : num ≤ n * den) :
    roundHalfEven num den ≤ n := by
  rw [← roundHalfEven_mul_self hden n]
  exact roundHalfEven_mono hden hden (Nat.mul_le_mul_right den h)

theorem le_roundHalfEven {n : Nat} (hden : 0 < den) (h : n * den ≤ num) :
    n ≤ roundHalfEven num den := by
  rw [← roundHalfEven_mul_self hden n]
  exact roundHalfEven_mono hden hden (Nat.mul_le_mul_right den h)

end roundHalfEven

/-! ## All numbers -/

theorem log2_mono {m n : Nat} (h : m ≤ n) : m.log2 ≤ n.log2 := by
  by_cases hm : m = 0
  · rw [hm]
    exact Nat.zero_le _
  · exact (Nat.le_log2 (by omega)).2 (Nat.le_trans (Nat.log2_self_le hm) h)

/-- A fraction is at most `2 ^ 53` times its spacing. -/
theorem roundHalfEven_spacing_le (num : Nat) {den : Nat} (hden : 0 < den) :
    roundHalfEven num (den * Nat.pow 2 (Nat.log2 (num / den) - 52)) ≤ 2 ^ 53 := by
  refine roundHalfEven_le (Nat.mul_pos hden (Nat.two_pow_pos _)) ?_
  have hlt : num / den < 2 ^ ((num / den).log2 - 52 + 53) :=
    Nat.lt_of_lt_of_le Nat.lt_log2_self (Nat.pow_le_pow_right Nat.two_pos (by omega))
  have hnum := (Nat.div_lt_iff_lt_mul hden).1 hlt
  calc num
      ≤ 2 ^ ((num / den).log2 - 52 + 53) * den := hnum.le
    _ = 2 ^ 53 * (den * 2 ^ ((num / den).log2 - 52)) := by
        rw [Nat.pow_add, Nat.mul_comm den, ← Nat.mul_assoc, Nat.mul_comm (2 ^ 53)]

/-- Unless the spacing is the smallest one, a fraction is at least `2 ^ 52` times its spacing. -/
theorem le_roundHalfEven_spacing (num : Nat) {den : Nat} (hden : 0 < den)
    (h : 0 < Nat.log2 (num / den) - 52) :
    2 ^ 52 ≤ roundHalfEven num (den * Nat.pow 2 (Nat.log2 (num / den) - 52)) := by
  refine le_roundHalfEven (Nat.mul_pos hden (Nat.two_pow_pos _)) ?_
  have hne : num / den ≠ 0 := by
    intro hzero
    rw [hzero] at h
    exact absurd h (by decide)
  have hle := (Nat.le_div_iff_mul_le hden).1 (Nat.log2_self_le hne)
  calc 2 ^ 52 * (den * 2 ^ ((num / den).log2 - 52))
      = 2 ^ (52 + ((num / den).log2 - 52)) * den := by
        rw [Nat.pow_add, Nat.mul_comm den, ← Nat.mul_assoc]
    _ = 2 ^ (num / den).log2 * den := by rw [Nat.add_sub_of_le (by omega)]
    _ ≤ num := hle

/-- **Rounding keeps the order of fractions.** -/
theorem nearestMagnitude_mono {num den num' den' : Nat} (hden : 0 < den) (hden' : 0 < den')
    (h : num * den' ≤ num' * den) : nearestMagnitude num den ≤ nearestMagnitude num' den' := by
  have hwhole : num / den ≤ num' / den' := by
    refine (Nat.le_div_iff_mul_le hden').2 (Nat.le_of_mul_le_mul_right ?_ hden)
    calc num / den * den' * den
        = num / den * den * den' := Nat.mul_right_comm _ _ _
      _ ≤ num * den' := Nat.mul_le_mul_right den' (Nat.div_mul_le_self num den)
      _ ≤ num' * den := h
  have hspacing : (num / den).log2 - 52 ≤ (num' / den').log2 - 52 :=
    Nat.sub_le_sub_right (log2_mono hwhole) 52
  rw [nearestMagnitude, nearestMagnitude]
  rcases Nat.eq_or_lt_of_le hspacing with heq | hlt
  · rw [heq]
    have hpos := Nat.two_pow_pos ((num' / den').log2 - 52)
    refine Nat.add_le_add_left (roundHalfEven_mono (Nat.mul_pos hden hpos)
      (Nat.mul_pos hden' hpos) ?_) _
    rw [← Nat.mul_assoc, ← Nat.mul_assoc]
    exact Nat.mul_le_mul_right _ h
  · have hbelow := roundHalfEven_spacing_le num hden
    have habove := le_roundHalfEven_spacing num' hden' (by omega)
    simp only [Nat.pow_eq] at hbelow habove ⊢
    generalize roundHalfEven num _ = below at hbelow ⊢
    generalize roundHalfEven num' _ = above at habove ⊢
    omega

/-! ## Decimals -/

namespace Decimal

/-- The absolute value of a decimal. -/
def size (d : Decimal) : ℚ := d.digits * 10 ^ d.exponent

/-- The value of a decimal. -/
def value (d : Decimal) : ℚ := if d.negative then -d.size else d.size

theorem size_nonneg (d : Decimal) : 0 ≤ d.size :=
  mul_nonneg (Nat.cast_nonneg _) (zpow_nonneg (by norm_num) _)

/-- A size as a fraction. -/
theorem size_eq_div (d : Decimal) :
    d.size = (d.digits * Nat.pow 10 d.exponent.toNat : ℕ)
      / (Nat.pow 10 (-d.exponent).toNat : ℕ) := by
  have hcast (n : Nat) : (Nat.pow 10 n : ℕ) = (10 : ℚ) ^ n := Nat.cast_pow 10 n
  have hpower : (10 : ℚ) ^ d.exponent
      = 10 ^ d.exponent.toNat / 10 ^ (-d.exponent).toNat := by
    conv_lhs => rw [← Int.toNat_sub_toNat_neg d.exponent]
    rw [zpow_sub₀ (by norm_num), zpow_natCast, zpow_natCast]
  rw [size, hpower, ← mul_div_assoc, Nat.cast_mul, hcast, hcast]

theorem digits_eq_zero_of_size {d : Decimal} (h : d.size = 0) : d.digits = 0 := by
  have hpower : (10 : ℚ) ^ d.exponent ≠ 0 := zpow_ne_zero _ (by norm_num)
  exact Nat.cast_eq_zero.1 ((mul_eq_zero.1 h).resolve_right hpower)

/-- The magnitude nearest to a decimal, with its power of ten computed however large it is. -/
def roundedFraction (d : Decimal) : Nat :=
  LogSplit.nearestMagnitude (d.digits * Nat.pow 10 d.exponent.toNat * Nat.pow 2 1074)
    (Nat.pow 10 (-d.exponent).toNat)

/-- A power of ten that is not computed because it is too large leaves the finite numbers. -/
theorem infinityMagnitude_le_roundedFraction {d : Decimal} (hzero : d.digits ≠ 0)
    (h : maxExponent < d.exponent) : Binary64.infinityMagnitude ≤ d.roundedFraction := by
  have hpower : Nat.pow 10 (-d.exponent).toNat = 1 :=
    congrArg (Nat.pow 10) (Int.toNat_of_nonpos (by simp only [maxExponent] at h; omega))
  obtain ⟨n, hunits, hn⟩ : ∃ n, Binary64.unitsOf Binary64.infinityMagnitude
      ≤ Nat.pow 10 n * Nat.pow 2 1074 ∧ n ≤ d.exponent.toNat :=
    ⟨400, by decide +kernel, by simp only [maxExponent] at h; omega⟩
  have hdigits : Nat.pow 10 n ≤ d.digits * Nat.pow 10 d.exponent.toNat :=
    calc Nat.pow 10 n
        ≤ Nat.pow 10 d.exponent.toNat := Nat.pow_le_pow_right (by decide) hn
      _ ≤ d.digits * Nat.pow 10 d.exponent.toNat :=
          Nat.le_mul_of_pos_left _ (Nat.pos_of_ne_zero hzero)
  rw [roundedFraction, hpower, ← nearestMagnitude_unitsOf Binary64.infinityMagnitude]
  refine nearestMagnitude_mono Nat.one_pos Nat.one_pos ?_
  rw [Nat.mul_one, Nat.mul_one]
  exact hunits.trans (Nat.mul_le_mul_right _ hdigits)

/-- **A decimal is rounded as the fraction it stands for**, also if it is beyond the finite
numbers. -/
theorem magnitude_nearest (d : Decimal) :
    d.nearest.magnitude = min d.roundedFraction Binary64.infinityMagnitude := by
  change min d.nearestMagnitude _ = _
  by_cases hzero : d.digits = 0
  · have hnone (a b : Nat) : d.digits * a * b = 0 := by rw [hzero, Nat.zero_mul, Nat.zero_mul]
    rw [Decimal.nearestMagnitude, if_pos hzero, roundedFraction, hnone,
      nearestMagnitude_of_lt (ten_pow_pos _)]
  rcases Int.lt_or_le maxExponent d.exponent with hlarge | hlarge
  · rw [Decimal.nearestMagnitude, if_neg hzero, if_pos hlarge, Nat.min_self,
      Nat.min_eq_right (infinityMagnitude_le_roundedFraction hzero hlarge)]
  · rw [nearestMagnitude_eq hlarge, roundedFraction]

theorem magnitude_nearest_mono {d d' : Decimal} (h : d.size ≤ d'.size) :
    d.nearest.magnitude ≤ d'.nearest.magnitude := by
  have hfraction : d.digits * Nat.pow 10 d.exponent.toNat * Nat.pow 10 (-d'.exponent).toNat
      ≤ d'.digits * Nat.pow 10 d'.exponent.toNat * Nat.pow 10 (-d.exponent).toNat := by
    have hpos (e : Int) : (0 : ℚ) < (Nat.pow 10 e.toNat : ℕ) := Nat.cast_pos.2 (ten_pow_pos _)
    rw [size_eq_div, size_eq_div, div_le_div_iff₀ (hpos _) (hpos _)] at h
    exact_mod_cast h
  rw [magnitude_nearest, magnitude_nearest]
  refine min_le_min_right _ (nearestMagnitude_mono (ten_pow_pos _) (ten_pow_pos _) ?_)
  rw [Nat.mul_right_comm, Nat.mul_right_comm _ _ (Nat.pow 10 (-d.exponent).toNat)]
  exact Nat.mul_le_mul_right _ hfraction

/-- A decimal of size zero is rounded to one of the two zeros. -/
theorem magnitude_nearest_of_size {d : Decimal} (h : d.size = 0) : d.nearest.magnitude = 0 := by
  change min d.nearestMagnitude _ = _
  rw [Decimal.nearestMagnitude, if_pos (digits_eq_zero_of_size h), Nat.zero_min]

/-- No decimal is rounded to a not-a-number. -/
theorem isNaN_nearest (d : Decimal) : d.nearest.isNaN = false :=
  decide_eq_false (Nat.not_lt.2 (Nat.min_le_right _ _))

/-- **Rounding keeps the order of decimals.**  A smaller one may be rounded to the same number, but
not to a larger one. -/
theorem rank_nearest_mono {d d' : Decimal} (h : d.value ≤ d'.value) :
    d.nearest.rank ≤ d'.nearest.rank := by
  have hd := d.size_nonneg
  have hd' := d'.size_nonneg
  change (if d.negative then _ else _) ≤ (if d'.negative then _ else _)
  rw [value, value] at h
  split_ifs at h ⊢
  · exact neg_le_neg (Int.ofNat_le.2 (magnitude_nearest_mono (neg_le_neg_iff.1 h)))
  · omega
  · -- no size is negative, so both are zero
    rw [magnitude_nearest_of_size (le_antisymm (h.trans (neg_nonpos.2 hd')) hd),
      magnitude_nearest_of_size (le_antisymm (neg_nonneg.1 (hd.trans h)) hd')]
    rfl
  · exact Int.ofNat_le.2 (magnitude_nearest_mono h)

end Decimal

end LogSplit
