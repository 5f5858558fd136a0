/-!
# Places in a YAML document

Where a reader of a document stands, which characters a document may hold, which of them are
blanks and line ends, and how a reader gets over what separates tokens: blanks, comments and
line ends.
-/

set_option autoImplicit false

namespace LogSplit.Yaml

/-- A place in a document: the characters behind it, the number of characters before it on its
line, and whether a line has ended since the reader set out. -/
structure Place where
  /-- The characters behind the place. -/
  rest : List Char
  /-- The number of characters before it on its line. -/
  column : Nat
  /-- Whether a line has ended. -/
  crossed : Bool
  deriving DecidableEq, Repr

/-! ## Classes of characters -/

/-- A space or a tab. -/
def isBlank (c : Char) : Bool := c == ' ' || c == '\t'

/-- A character that ends a line. -/
def isBreak (c : Char) : Bool :=
  c == '\n' || c == '\r' || c == '\u0085' || c == '\u2028' || c == '\u2029'

/-- A line end as it counts in a scalar: all but the two Unicode separators are the same. -/
def normalBreak (c : Char) : Char := if c = '\u2028' ∨ c = '\u2029' then c else '\n'

/-- Nothing, a blank or a line end comes next. -/
def atBlank : List Char → Bool
  | [] => true
  | c :: _ => isBlank c || isBreak c

/-- Three dashes or three points that stand for themselves mark the bounds of a document at
the start of a line. -/
def isBoundary (mark : Char) : List Char → Bool
  | a :: b :: c :: rest => a == mark && b == mark && c == mark && atBlank rest
  | _ => false

/-- The start or the end of a document. -/
def isAnyBoundary (cs : List Char) : Bool := isBoundary '-' cs || isBoundary '.' cs

/-- A character that may occur in a document at all. -/
def isAllowed (c : Char) : Bool :=
  let n := c.toNat
  n == 9 || n == 10 || n == 13 || (0x20 ≤ n && n ≤ 0x7E) || n == 0x85
    || (0xA0 ≤ n && n ≤ 0xFFFD) || 0x10000 ≤ n

/-- A character of a name. -/
def isNameChar (c : Char) : Bool := c.isAlphanum || c == '_' || c == '-'

/-- The value of a digit in base sixteen. -/
def hexValue? (c : Char) : Option Nat :=
  if '0' ≤ c ∧ c ≤ '9' then some (c.toNat - 48)
  else if 'a' ≤ c ∧ c ≤ 'f' then some (c.toNat - 87)
  else if 'A' ≤ c ∧ c ≤ 'F' then some (c.toNat - 55)
  else none

/-! ## Lines -/

/-- A line without its end, the end, and what follows. -/
def cutLine : List Char → List Char × List Char × List Char
  | [] => ([], [], [])
  | c :: rest =>
    if isBreak c then
      if c = '\r' ∧ rest.head? = some '\n' then ([], ['\n'], rest.tail)
      else ([], [normalBreak c], rest)
    else
      let (line, ending, after) := cutLine rest
      (c :: line, ending, after)

/-- What follows a line of which only blanks and a comment are left, if nothing else is. -/
def restOfLine? (cs : List Char) : Option (List Char) :=
  match cs.dropWhile isBlank with
  | [] => some []
  | c :: rest => if isBreak c || c == '#' then some (cutLine (c :: rest)).2.2 else none

/-! ## Gaps between tokens -/

/-- How a gap is crossed. -/
structure GapRule where
  /-- The gap is between braces. -/
  flow : Bool
  /-- A key may start behind the gap. -/
  keyAllowed : Bool
  deriving DecidableEq, Repr

/-- Whether tabs are passed over like spaces.  In lines they do not indent a key. -/
def GapRule.skipsTabs (rule : GapRule) : Bool := rule.flow || !rule.keyAllowed

/-- The rule at the start of a line: in lines a key may start there. -/
def GapRule.newline (rule : GapRule) : GapRule :=
  if rule.flow then rule else { rule with keyAllowed := true }

/-- Passes over blanks, comments and line ends, and over a byte order mark at the start of a
line, which counts as a column.  Returns whether a key may start there as well. -/
def skipGap (rule : GapRule) (comment : Bool) (column : Nat) (crossed : Bool) :
    List Char → Place × Bool
  | [] => (⟨[], column, crossed⟩, rule.keyAllowed)
  | c :: rest =>
    if isBreak c then
      if c = '\r' ∧ rest.head? = some '\n' then skipGap rule comment (column + 1) crossed rest
      else skipGap rule.newline false 0 true rest
    else if comment || c == ' ' || (c == '\t' && rule.skipsTabs)
        || (c == '\ufeff' && column == 0) then
      skipGap rule comment (column + 1) crossed rest
    else if c = '#' then skipGap rule true (column + 1) crossed rest
    else (⟨c :: rest, column, crossed⟩, rule.keyAllowed)

end LogSplit.Yaml
