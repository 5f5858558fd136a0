/-!
# Binary64 numbers

A binary64 number is kept as its sign and the rest of its word, the *magnitude*.  Read as a
whole number the magnitude already orders the numbers of one sign: exponent field above,
fraction field below, infinity after the largest finite number and the not-a-numbers after
infinity.  So a comparison of two numbers is a comparison of two integers
(`Binary64.rank`), and both zeros have rank zero.

What a magnitude denotes is stated without fractions: every finite binary64 number is a whole
multiple of `2 ^ (-1074)`, and `Binary64.units` is that multiple.
-/

set_option autoImplicit false

namespace LogSplit

/-- A binary64 word: its sign bit, and the 63 bits below it as a number. -/
structure Binary64 where
  /-- Whether the sign bit is set. -/
  negative : Bool
  /-- Exponent field and fraction field, read as one number. -/
  magnitude : Nat
  /-- The magnitude has 63 bits. -/
  magnitude_lt : magnitude < Nat.pow 2 63
  deriving DecidableEq

namespace Binary64

/-! ## Words -/

/-- The magnitude of infinity: all bits of the exponent field set, no bit of the fraction. -/
def infinityMagnitude : Nat := 0x7FF0000000000000

/-- The magnitude that is written for a computed not-a-number. -/
def quietMagnitude : Nat := 0x7FF8000000000000

/-- The number with the given 64-bit word, of which only the low 64 bits count. -/
def ofBits (word : Nat) : Binary64 where
  negative := word / Nat.pow 2 63 % 2 == 1
  magnitude := word % Nat.pow 2 63
  magnitude_lt := Nat.mod_lt _ (by decide)

/-- The 64-bit word of a number. -/
def bits (x : Binary64) : Nat := (if x.negative then Nat.pow 2 63 else 0) + x.magnitude

theorem bits_lt (x : Binary64) : x.bits < Nat.pow 2 64 := by
  have h := x.magnitude_lt
  unfold bits
  rw [Nat.pow_eq] at h ⊢
  rw [Nat.pow_eq]
  split <;> omega

theorem ofBits_bits (x : Binary64) : ofBits x.bits = x := by
  rcases x with ⟨s, m, h⟩
  have hm := h
  rw [Nat.pow_eq] at hm
  cases s <;> simp [ofBits, bits] <;> omega

theorem bits_ofBits {word : Nat} (h : word < Nat.pow 2 64) : (ofBits word).bits = word := by
  simp only [bits, ofBits, beq_iff_eq, Nat.pow_eq] at h ⊢
  split <;> omega

/-- Not a number: the magnitudes after infinity. -/
def isNaN (x : Binary64) : Bool := decide (infinityMagnitude < x.magnitude)

/-- Infinity of either sign. -/
def isInfinite (x : Binary64) : Bool := x.magnitude == infinityMagnitude

/-- Neither infinite nor a not-a-number. -/
def isFinite (x : Binary64) : Bool := decide (x.magnitude < infinityMagnitude)

/-- The number of the given sign and magnitude, where a magnitude after infinity is taken
for infinity. -/
def ofMagnitude (negative : Bool) (magnitude : Nat) : Binary64 where
  negative := negative
  magnitude := min magnitude infinityMagnitude
  magnitude_lt := Nat.lt_of_le_of_lt (Nat.min_le_right _ _) (by decide)

/-- Infinity of the given sign. -/
def infinity (negative : Bool) : Binary64 := ⟨negative, infinityMagnitude, by decide⟩

/-- A not-a-number of the given sign. -/
def nan (negative : Bool) : Binary64 := ⟨negative, quietMagnitude, by decide⟩

/-! ## Value -/

/-- The value of a magnitude as a multiple of `2 ^ (-1074)`: the fraction alone while the
exponent field is zero, and otherwise the fraction under a leading one, doubled once for
each step of the exponent field above one. -/
def unitsOf (magnitude : Nat) : Nat :=
  if magnitude < Nat.pow 2 52 then magnitude
  else (Nat.pow 2 52 + magnitude % Nat.pow 2 52) * Nat.pow 2 (magnitude / Nat.pow 2 52 - 1)

/-- The absolute value of a finite number as a multiple of `2 ^ (-1074)`. -/
def units (x : Binary64) : Nat := unitsOf x.magnitude

/-- The value of a finite number as a multiple of `2 ^ (-1074)`. -/
def signedUnits (x : Binary64) : Int := if x.negative then -(x.units : Int) else x.units

/-! ## Order -/

/-- The place of a number in the order of all numbers; both zeros have place zero. -/
def rank (x : Binary64) : Int := if x.negative then -(x.magnitude : Int) else x.magnitude

/-- Strictly below; never with a not-a-number on either side. -/
def lt (x y : Binary64) : Bool := !x.isNaN && !y.isNaN && decide (x.rank < y.rank)

/-- Below or equal; never with a not-a-number on either side. -/
def le (x y : Binary64) : Bool := !x.isNaN && !y.isNaN && decide (x.rank ≤ y.rank)

/-- Equal as numbers: zero equals negative zero, and a not-a-number equals nothing. -/
def equal (x y : Binary64) : Bool := !x.isNaN && !y.isNaN && decide (x.rank = y.rank)

end Binary64

end LogSplit
