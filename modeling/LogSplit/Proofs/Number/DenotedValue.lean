import LogSplit.Proofs.Number.RoundingOrder
import Mathlib.Data.Int.ConditionallyCompleteOrder
import Mathlib.Order.Monotone.Odd
import Mathlib.Order.WithBotTop

/-!
# What a binary64 word denotes

A word of 64 bits has three fields: a sign bit, an exponent field of eleven bits and a fraction
field of fifty-two.  `Binary64.Fields.value?` gives what they denote, a rational number or one of
two infinities, or nothing if the word is a not-a-number.

The library keeps exponent field and fraction field as one number and compares numbers by their
rank, a whole number.  What is denoted depends on the rank alone (`Binary64.denoted?_eq`) and grows
strictly with it from one infinity to the other (`Binary64.strictMonoOn_valueAt`), so to compare
ranks is to compare what is denoted, across the signs as well as between the numbers with a leading
one and those without.
-/

set_option autoImplicit false

namespace LogSplit

namespace Binary64

/-! ## Fields -/

/-- The fields of a word. -/
structure Fields where
  /-- The sign bit. -/
  negative : Bool
  /-- The exponent field. -/
  exponent : BitVec 11
  /-- The fraction field. -/
  fraction : BitVec 52

namespace Fields

/-- The fields from the high end of a word to the low end. -/
def ofWord (word : BitVec 64) : Fields :=
  ⟨word.msb, word.extractLsb' 52 11, word.extractLsb' 0 52⟩

/-- The fraction behind a leading one, or behind a zero while the exponent field is zero. -/
def significand (f : Fields) : ℚ :=
  (if f.exponent = 0 then 0 else 1) + f.fraction.toNat / 2 ^ 52

/-- The power of two, the same one for the exponent field zero as for one. -/
def power (f : Fields) : ℤ := if f.exponent = 0 then -1022 else f.exponent.toNat - 1023

/-- The value of the fields of a finite number. -/
def finiteValue (f : Fields) : ℚ :=
  if f.negative then -(f.significand * 2 ^ f.power) else f.significand * 2 ^ f.power

/-- The value of a word with the given fields, or nothing for a not-a-number. -/
def value? (f : Fields) : Option (WithBotTop ℚ) :=
  if f.exponent = BitVec.allOnes 11 then
    if f.fraction = 0 then some (if f.negative then ⊥ else ⊤) else none
  else some (f.finiteValue : WithBotTop ℚ)

end Fields

/-- What a word denotes. -/
def denoted? (word : BitVec 64) : Option (WithBotTop ℚ) := (Fields.ofWord word).value?

/-- The number with the given word. -/
def ofWord (word : BitVec 64) : Binary64 := ofBits word.toNat

theorem ofWord_negative (word : BitVec 64) :
    (ofWord word).negative = (Fields.ofWord word).negative := by
  have hlt := word.isLt
  change (word.toNat / 2 ^ 63 % 2 == 1) = word.msb
  rw [BitVec.msb_eq_decide, Bool.eq_iff_iff, beq_iff_eq, decide_eq_true_iff]
  omega

theorem ofWord_magnitude (word : BitVec 64) :
    (ofWord word).magnitude
      = (Fields.ofWord word).exponent.toNat * 2 ^ 52 + (Fields.ofWord word).fraction.toNat := by
  change word.toNat % 2 ^ 63
    = (word.extractLsb' 52 11).toNat * 2 ^ 52 + (word.extractLsb' 0 52).toNat
  rw [BitVec.extractLsb'_toNat, BitVec.extractLsb'_toNat, Nat.shiftRight_eq_div_pow,
    Nat.shiftRight_zero]
  omega

/-! ## Finite words -/

/-- The smallest positive number. -/
def unit : ℚ := 2 ^ (-1074 : ℤ)

theorem unit_pos : 0 < unit := zpow_pos (by norm_num) _

namespace Fields

theorem exponent_eq_zero_iff (f : Fields) : f.exponent = 0 ↔ f.exponent.toNat = 0 :=
  BitVec.toNat_inj.symm

/-- The significand as a whole number. -/
theorem significand_mul (f : Fields) :
    f.significand * 2 ^ 52
      = ((if f.exponent.toNat = 0 then 0 else 2 ^ 52) + f.fraction.toNat : ℕ) := by
  rw [significand, add_mul, div_mul_cancel₀ _ (by norm_num)]
  simp only [exponent_eq_zero_iff]
  split <;> norm_num

theorem two_zpow_power (f : Fields) :
    (2 : ℚ) ^ f.power = 2 ^ 52 * 2 ^ (f.exponent.toNat - 1) * unit := by
  have hpower : f.power = (52 : ℕ) + (f.exponent.toNat - 1 : ℕ) + -1074 := by
    rw [power]
    simp only [exponent_eq_zero_iff]
    split <;> omega
  rw [hpower, zpow_add₀ (by norm_num), zpow_add₀ (by norm_num), zpow_natCast, zpow_natCast, unit]

end Fields

/-- The units of a magnitude with the given fields. -/
theorem unitsOf_fields {exponent fraction : Nat} (h : fraction < 2 ^ 52) :
    unitsOf (exponent * 2 ^ 52 + fraction)
      = ((if exponent = 0 then 0 else 2 ^ 52) + fraction) * 2 ^ (exponent - 1) := by
  have hexponent : (exponent * 2 ^ 52 + fraction) / 2 ^ 52 = exponent := by omega
  have hfraction : (exponent * 2 ^ 52 + fraction) % 2 ^ 52 = fraction := by omega
  rw [unitsOf]
  simp only [Nat.pow_eq, hexponent, hfraction]
  rcases Nat.eq_zero_or_pos exponent with rfl | hpos
  · rw [if_pos (by omega), if_pos rfl]
    omega
  · rw [if_neg (by omega), if_neg hpos.ne']

/-- **The value of a finite word is the units of its number**, taken together with its sign. -/
theorem finiteValue_ofWord (word : BitVec 64) :
    (Fields.ofWord word).finiteValue = (ofWord word).signedUnits * unit := by
  have hsize : (Fields.ofWord word).significand * 2 ^ (Fields.ofWord word).power
      = (ofWord word).units * unit := by
    rw [units, ofWord_magnitude, unitsOf_fields (BitVec.isLt _), Nat.cast_mul,
      ← Fields.significand_mul, Fields.two_zpow_power, Nat.cast_pow, Nat.cast_ofNat, ← mul_assoc,
      ← mul_assoc]
  rw [Fields.finiteValue, signedUnits, ofWord_negative, hsize]
  split
  · rw [Int.cast_neg, Int.cast_natCast, neg_mul]
  · rw [Int.cast_natCast]

/-! ## Ranks -/

theorem unitsOf_strictMono : StrictMono unitsOf := by
  intro m n hlt
  refine Nat.lt_of_not_le fun hle => Nat.not_le_of_lt hlt ?_
  -- both numbers are rounded to themselves, and rounding keeps their order
  rw [← nearestMagnitude_unitsOf m, ← nearestMagnitude_unitsOf n]
  refine nearestMagnitude_mono Nat.one_pos Nat.one_pos ?_
  rwa [Nat.mul_one, Nat.mul_one]

/-- The units of the numbers of a rank, with the sign of the rank. -/
def unitsAt (rank : Int) : Int := rank.sign * unitsOf rank.natAbs

theorem unitsAt_neg (rank : Int) : unitsAt (-rank) = -unitsAt rank := by
  rw [unitsAt, unitsAt, Int.sign_neg, Int.natAbs_neg, Int.neg_mul]

theorem unitsAt_natCast (magnitude : Nat) : unitsAt magnitude = unitsOf magnitude := by
  rw [unitsAt, Int.natAbs_natCast]
  rcases Nat.eq_zero_or_pos magnitude with rfl | hpos
  · rfl
  · rw [Int.sign_eq_one_of_pos (Int.natCast_pos.2 hpos), Int.one_mul]

theorem signedUnits_eq (x : Binary64) : x.signedUnits = unitsAt x.rank := by
  rw [signedUnits, rank]
  split
  · rw [unitsAt_neg, unitsAt_natCast, units]
  · rw [unitsAt_natCast, units]

theorem unitsAt_strictMono : StrictMono unitsAt := by
  refine strictMono_of_odd_strictMonoOn_nonneg unitsAt_neg fun r hr s hs hlt => ?_
  lift r to Nat using hr
  lift s to Nat using hs
  rw [unitsAt_natCast, unitsAt_natCast]
  exact Int.ofNat_lt.2 (unitsOf_strictMono (Int.ofNat_lt.1 hlt))

/-- The value of the numbers of a rank. -/
def valueAt (rank : Int) : WithBotTop ℚ :=
  if rank ≤ -infinityMagnitude then ⊥
  else if infinityMagnitude ≤ rank then ⊤
  else (unitsAt rank * unit : ℚ)

/-- The ranks from one infinity to the other. -/
def numberRanks : Set Int := Set.Icc (-infinityMagnitude) infinityMagnitude

theorem rank_mem_numberRanks {x : Binary64} : x.rank ∈ numberRanks ↔ x.isNaN = false := by
  rw [numberRanks, Set.mem_Icc, isNaN, decide_eq_false_iff_not, rank]
  split <;> omega

/-- **A larger rank has a larger value.** -/
theorem strictMonoOn_valueAt : StrictMonoOn valueAt numberRanks := by
  rintro r ⟨hr, -⟩ s ⟨-, hs⟩ hlt
  have hlow : ¬ s ≤ -infinityMagnitude := by omega
  have hhigh : ¬ infinityMagnitude ≤ r := by omega
  have hfinite : (unitsAt r * unit : ℚ) < unitsAt s * unit :=
    mul_lt_mul_of_pos_right (Int.cast_lt.2 (unitsAt_strictMono hlt)) unit_pos
  rw [valueAt, valueAt, if_neg hlow, if_neg hhigh]
  split_ifs
  · exact bot_lt_top
  · exact bot_lt_iff_ne_bot.2 (WithBotTop.coe_ne_bot _)
  · exact lt_top_iff_ne_top.2 (WithBotTop.coe_ne_top _)
  · exact WithBotTop.coe_lt_coe.2 hfinite

theorem valueAt_of_isInfinite {x : Binary64} (h : x.isInfinite = true) :
    valueAt x.rank = if x.negative then ⊥ else ⊤ := by
  have hpos : 0 < infinityMagnitude := by decide
  rw [valueAt, rank, beq_iff_eq.1 h]
  split
  · rw [if_pos (le_refl _)]
  · rw [if_neg (by omega), if_pos (le_refl _)]

theorem valueAt_of_isFinite {x : Binary64} (h : x.isFinite = true) :
    valueAt x.rank = (x.signedUnits * unit : ℚ) := by
  have hlt : x.magnitude < infinityMagnitude := of_decide_eq_true h
  have hrank : -infinityMagnitude < x.rank ∧ x.rank < infinityMagnitude := by
    rw [rank]
    split <;> omega
  rw [valueAt, if_neg (Int.not_le.2 hrank.1), if_neg (Int.not_le.2 hrank.2), signedUnits_eq]

/-! ## Words -/

/-- What a word denotes is the value at the rank of its number, unless that is a not-a-number. -/
theorem denoted?_eq (word : BitVec 64) :
    denoted? word
      = if (ofWord word).isNaN then none else some (valueAt (ofWord word).rank) := by
  have hinfinity : infinityMagnitude = 2047 * 2 ^ 52 := by decide
  have hmagnitude := ofWord_magnitude word
  have hexponent := (Fields.ofWord word).exponent.isLt
  have hfraction := (Fields.ofWord word).fraction.isLt
  have hall : (Fields.ofWord word).exponent = BitVec.allOnes 11
      ↔ (Fields.ofWord word).exponent.toNat = 2047 := by
    rw [← BitVec.toNat_inj, BitVec.toNat_allOnes]
  have hnone : (Fields.ofWord word).fraction = 0 ↔ (Fields.ofWord word).fraction.toNat = 0 :=
    BitVec.toNat_inj.symm
  rw [denoted?, Fields.value?]
  simp only [hall, hnone]
  -- the fields tell the kinds of words apart, and the magnitude the kinds of numbers
  by_cases htop : (Fields.ofWord word).exponent.toNat = 2047
  · rw [if_pos htop]
    by_cases hzero : (Fields.ofWord word).fraction.toNat = 0
    · have hinfinite : (ofWord word).isInfinite = true := beq_iff_eq.2 (by omega)
      have hnumber : (ofWord word).isNaN = false := decide_eq_false (by omega)
      rw [if_pos hzero, hnumber, valueAt_of_isInfinite hinfinite, ofWord_negative]
      rfl
    · have hnan : (ofWord word).isNaN = true := decide_eq_true (by omega)
      rw [if_neg hzero, if_pos hnan]
  · have hfinite : (ofWord word).isFinite = true := decide_eq_true (by omega)
    have hnumber : (ofWord word).isNaN = false := decide_eq_false (by omega)
    rw [if_neg htop, hnumber, valueAt_of_isFinite hfinite, finiteValue_ofWord]
    rfl

theorem denoted?_eq_none_iff {word : BitVec 64} :
    denoted? word = none ↔ (ofWord word).isNaN = true := by
  rw [denoted?_eq]
  split <;> simp_all

theorem denoted?_eq_some_iff {word : BitVec 64} {v : WithBotTop ℚ} :
    denoted? word = some v ↔
      (ofWord word).isNaN = false ∧ valueAt (ofWord word).rank = v := by
  rw [denoted?_eq]
  split <;> simp_all

theorem denoted?_of_isFinite {word : BitVec 64} (h : (ofWord word).isFinite = true) :
    denoted? word = some (((ofWord word).signedUnits * unit : ℚ) : WithBotTop ℚ) :=
  denoted?_eq_some_iff.2
    ⟨decide_eq_false (Nat.lt_asymm (of_decide_eq_true h)), valueAt_of_isFinite h⟩

theorem denoted?_of_isInfinite {word : BitVec 64} (h : (ofWord word).isInfinite = true) :
    denoted? word = some (if (ofWord word).negative then ⊥ else ⊤) :=
  denoted?_eq_some_iff.2
    ⟨decide_eq_false (Nat.not_lt.2 (beq_iff_eq.1 h).le), valueAt_of_isInfinite h⟩

end Binary64

end LogSplit
