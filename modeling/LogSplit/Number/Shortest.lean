import LogSplit.Number.Decimal

/-!
# The shortest decimal that reads back

A finite binary64 number is written with the fewest significant digits that round to it
again.  On the grid of decimals with a given number of digits only the two neighbours of the
number can do so, and seventeen digits always suffice; of two neighbours that both read back
the nearer one is written, the larger one if they are equally near.

The text is positional whatever the size: never a power of ten, no point after a whole
number, a zero before the point of a number below one.
-/

set_option autoImplicit false

namespace LogSplit

namespace Binary64

/-- The decimal digits of a whole number, most significant first, `0` for zero. -/
def decimalDigits (n : Nat) : List Char := Nat.toDigits 10 n

/-- The power of ten at the first significant digit of `units * 2 ^ (-1074)`, for positive
`units`: scaled by `10 ^ 400` every such value is a number above one, whose digits can be
counted. -/
def leadingPower (units : Nat) : Int :=
  ((decimalDigits (units * Nat.pow 10 400 / Nat.pow 2 1074)).length : Int) - 401

/-- `units * 2 ^ (-1074) / 10 ^ power` as a fraction. -/
def scaled (units : Nat) (power : Int) : Nat × Nat :=
  if 0 ≤ power then (units, Nat.pow 2 1074 * Nat.pow 10 power.toNat)
  else (units * Nat.pow 10 (-power).toNat, Nat.pow 2 1074)

/-- The exact decimal: `2 ^ (-1074)` is `5 ^ 1074` at the power `-1074` of ten. -/
def exactDecimal (units : Nat) : Decimal := ⟨false, units * Nat.pow 5 1074, -1074⟩

/-- The neighbour of the number on the grid of `count` significant digits that reads back as
`magnitude`, the nearer one if both do. -/
def onGrid? (magnitude units : Nat) (count : Nat) : Option Decimal :=
  let power := leadingPower units - count + 1
  let (num, den) := scaled units power
  let low : Decimal := ⟨false, num / den, power⟩
  let high : Decimal := ⟨false, num / den + 1, power⟩
  if low.nearestMagnitude = magnitude then
    if high.nearestMagnitude = magnitude ∧ den ≤ 2 * (num % den) then some high else some low
  else if high.nearestMagnitude = magnitude then some high
  else none

/-- The decimal with the fewest digits that reads back as a finite magnitude. -/
def shortestDecimal (magnitude : Nat) : Decimal :=
  let units := unitsOf magnitude
  if units = 0 then ⟨false, 0, 0⟩
  else ((List.range 17).findSome? fun i => onGrid? magnitude units (i + 1)).getD
    (exactDecimal units)

end Binary64

/-- Takes zeros off the end of the digits while the last digit is behind the point. -/
def Decimal.trimZeros : Nat → Nat → Nat × Nat
  | digits, 0 => (digits, 0)
  | digits, places + 1 =>
    if digits % 10 = 0 then trimZeros (digits / 10) places else (digits, places + 1)

/-- A number of units of `10 ^ (-places)` with a point in front of the last `places` digits,
and no point for no places. -/
def Decimal.pointed (digits places : Nat) : List Char :=
  if places = 0 then Binary64.decimalDigits digits
  else
    let ds := Binary64.decimalDigits digits
    let padded := List.replicate (places + 1 - ds.length) '0' ++ ds
    padded.take (padded.length - places) ++ '.' :: padded.drop (padded.length - places)

/-- A decimal without its sign in positional notation. -/
def Decimal.positional (d : Decimal) : List Char :=
  if 0 ≤ d.exponent then Binary64.decimalDigits (d.digits * Nat.pow 10 d.exponent.toNat)
  else
    let (digits, places) := trimZeros d.digits (-d.exponent).toNat
    pointed digits places

/-- The text of a number: sign, then the shortest positional decimal; the sign of a zero is
kept and that of a not-a-number is not. -/
def Binary64.toText (x : Binary64) : String :=
  if x.isNaN then "NaN"
  else
    let body := if x.isInfinite then ['i', 'n', 'f']
      else (Binary64.shortestDecimal x.magnitude).positional
    String.ofList (if x.negative then '-' :: body else body)

end LogSplit
