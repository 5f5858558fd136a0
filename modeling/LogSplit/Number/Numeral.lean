import LogSplit.Number.Decimal

/-!
# Numerals

The spellings of a number in a cell or in a predicate: an optional sign, then either one of
the words `inf`, `infinity` and `nan` in any mixture of ASCII cases, or digits with at most
one point among them, at least one digit in all, and an optional power of ten.  No blanks,
no separators between digits, nothing after the number.

`Numeral.parse?` reads a spelling as an exact value and `Numeral.toBinary64` rounds that
value, so that a spelling stands for the same number whatever zeros, sign or power of ten it
is written with.
-/

set_option autoImplicit false

namespace LogSplit

/-- What a spelling denotes before rounding. -/
inductive Numeral where
  /-- A finite decimal. -/
  | decimal (value : Decimal)
  /-- Infinity. -/
  | infinity (negative : Bool)
  /-- The word for a number that is none. -/
  | nan (negative : Bool)
  deriving DecidableEq, Repr

/-- The value of an ASCII digit. -/
def digitValue (c : Char) : Nat := c.toNat - '0'.toNat

/-- The number that a row of digits spells, most significant first. -/
def digitsValue (ds : List Char) : Nat := ds.foldl (fun n c => 10 * n + digitValue c) 0

namespace Numeral

/-- Splits off a leading sign; `true` is minus. -/
def splitSign : List Char → Bool × List Char
  | '-' :: rest => (true, rest)
  | '+' :: rest => (false, rest)
  | cs => (false, cs)

/-- The power of ten at the end of a numeral: nothing, which is the power zero, or `e` in
either case, an optional sign and at least one digit. -/
def exponent? : List Char → Option Int
  | [] => some 0
  | c :: rest =>
    if c = 'e' ∨ c = 'E' then
      let (negative, ds) := splitSign rest
      if ds.isEmpty || !ds.all Char.isDigit then none
      else if negative then some (-(digitsValue ds : Int)) else some (digitsValue ds)
    else none

/-- An unsigned decimal: digits, an optional point, digits, with a digit on either side of
the point, then a power of ten. -/
def decimal? (negative : Bool) (cs : List Char) : Option Decimal :=
  let whole := cs.takeWhile Char.isDigit
  let rest := cs.dropWhile Char.isDigit
  let (fraction, rest) := match rest with
    | '.' :: tail => (tail.takeWhile Char.isDigit, tail.dropWhile Char.isDigit)
    | _ => ([], rest)
  if whole.isEmpty && fraction.isEmpty then none
  else (exponent? rest).map fun e =>
    ⟨negative, digitsValue (whole ++ fraction), e - fraction.length⟩

/-- The value of a spelling, or nothing when the text spells no number. -/
def parse? (cs : List Char) : Option Numeral :=
  let (negative, body) := splitSign cs
  let word := body.map Char.toLower
  if word = ['i', 'n', 'f'] ∨ word = ['i', 'n', 'f', 'i', 'n', 'i', 't', 'y'] then
    some (.infinity negative)
  else if word = ['n', 'a', 'n'] then some (.nan negative)
  else (decimal? negative body).map .decimal

/-- The nearest binary64 number. -/
def toBinary64 : Numeral → Binary64
  | .decimal d => d.nearest
  | .infinity negative => .infinity negative
  | .nan negative => .nan negative

end Numeral

/-- The binary64 number that a text spells, if it spells one. -/
def Binary64.ofText? (text : String) : Option Binary64 :=
  (Numeral.parse? text.toList).map Numeral.toBinary64

end LogSplit
