import LogSplit.Number.Binary64

/-!
# Decimal numbers and their nearest binary64

A finite decimal is a sign, a whole number of digits and a power of ten.  `Decimal.nearest`
gives the binary64 number closest to it: of two equally close ones the one with the even
magnitude, infinity from half a step above the largest finite number on, and zero up to half
of the smallest.

The rounding is done once, on an exact fraction counted in units of `2 ^ (-1074)`.  The
numbers whose magnitude has one exponent field are equally spaced, so `nearestMagnitude`
finds the spacing at the fraction, rounds the fraction to a multiple of it, and needs no
further case: a multiple that overflows into the next exponent field is already the
magnitude of that number.
-/

set_option autoImplicit false

namespace LogSplit

/-- The number `± digits * 10 ^ exponent`. -/
structure Decimal where
  /-- Whether a minus sign was written. -/
  negative : Bool
  /-- All digits, read as one number. -/
  digits : Nat
  /-- The power of ten that the digits are multiplied by. -/
  exponent : Int
  deriving DecidableEq, Repr

/-- The whole number nearest to `num / den`, the even one of two equally near. -/
def roundHalfEven (num den : Nat) : Nat :=
  let low := num / den
  let rest := num % den
  if 2 * rest < den then low
  else if den < 2 * rest then low + 1
  else if low % 2 = 0 then low else low + 1

/-- The magnitude of the binary64 number nearest to `num / den` units of `2 ^ (-1074)`. -/
def nearestMagnitude (num den : Nat) : Nat :=
  let spacing := Nat.log2 (num / den) - 52
  spacing * Nat.pow 2 52 + roundHalfEven num (den * Nat.pow 2 spacing)

namespace Decimal

/-- Above this power of ten every decimal but zero is beyond the largest binary64 number. -/
def maxExponent : Int := 400

/-- The magnitude of the binary64 number nearest to the absolute value.  Powers of ten that
leave the range of binary64 whatever the digits are settled without computing them. -/
def nearestMagnitude (d : Decimal) : Nat :=
  if d.digits = 0 then 0
  else if maxExponent < d.exponent then Binary64.infinityMagnitude
  else if d.exponent < -(maxExponent + Nat.log2 d.digits) then 0
  else if 0 ≤ d.exponent then
    LogSplit.nearestMagnitude (d.digits * Nat.pow 10 d.exponent.toNat * Nat.pow 2 1074) 1
  else
    LogSplit.nearestMagnitude (d.digits * Nat.pow 2 1074) (Nat.pow 10 (-d.exponent).toNat)

/-- The binary64 number nearest to a decimal, which keeps the sign of a zero. -/
def nearest (d : Decimal) : Binary64 := Binary64.ofMagnitude d.negative d.nearestMagnitude

end Decimal

end LogSplit
