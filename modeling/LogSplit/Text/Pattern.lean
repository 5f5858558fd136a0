/-!
# Well-formed patterns

A pattern describes texts by alternatives, repetitions, groups and classes of characters.  Here
patterns are not matched against anything; `isPattern` only says which texts are patterns.

A sign of repetition needs something in front of it, groups and classes have to be closed, the
ends of a range are in order, and only some characters may stand behind a backslash.  Numbers of
repetitions, back references, word boundaries, and classes and comparisons that would need tables
of characters are not part of the language.
-/

set_option autoImplicit false

namespace LogSplit.Text

/-- A digit in base sixteen. -/
def isHexDigit (c : Char) : Bool :=
  c.isDigit || ('a' ≤ c && c ≤ 'f') || ('A' ≤ c && c ≤ 'F')

/-- The value of a digit in base sixteen. -/
def hexDigitValue (c : Char) : Nat :=
  if c.isDigit then c.toNat - '0'.toNat else c.toLower.toNat - 'a'.toNat + 10

/-- Reads the number of a character, which has so many digits in base sixteen. -/
def numberedChar? (width : Nat) (cs : List Char) : Option (Char × List Char) :=
  let digits := cs.take width
  let number := digits.foldl (fun n c => 16 * n + hexDigitValue c) 0
  if digits.length = width && digits.all isHexDigit && number.isValidChar then
    some (Char.ofNat number, cs.drop width)
  else none

/-- A character that stands for itself behind a backslash. -/
def isEscapable (c : Char) : Bool :=
  c.toNat < 0x80 && !c.isAlphanum && c ≠ '<' && c ≠ '>'

/-- Reads what stands behind a backslash and returns the character that is meant. -/
def escapedChar? : List Char → Option (Char × List Char)
  | [] => none
  | 'x' :: cs => numberedChar? 2 cs
  | 'u' :: cs => numberedChar? 4 cs
  | 'U' :: cs => numberedChar? 8 cs
  | 'a' :: cs => some ('\x07', cs)
  | 't' :: cs => some ('\t', cs)
  | 'n' :: cs => some ('\n', cs)
  | 'v' :: cs => some ('\x0b', cs)
  | 'f' :: cs => some ('\x0c', cs)
  | 'r' :: cs => some ('\r', cs)
  | c :: cs => if isEscapable c then some (c, cs) else none

/-! ## Classes of characters -/

/-- What follows the start of a class: the sign that negates it and what counts as a character
only there. -/
def behindClassStart (cs : List Char) : List Char :=
  let cs := if cs.head? = some '^' then cs.tail else cs
  if cs.head? = some ']' then cs.tail else cs.dropWhile (· = '-')

/-- Reads a character of a class. -/
def classChar? : List Char → Option (Char × List Char)
  | [] => none
  | '\\' :: cs => escapedChar? cs
  | c :: cs => some (c, cs)

/-- Reads a character or a range of a class. -/
def classRange? (cs : List Char) : Option (List Char) := do
  let (first, rest) ← classChar? cs
  match rest with
  | '-' :: next :: more =>
    if next = ']' ∨ next = '-' then some rest else
    let (last, rest) ← classChar? (next :: more)
    if first ≤ last then some rest else none
  | _ => some rest

/-- Reads a class up to its end.  Its characters and signs are fewer than `fuel`, and `depth`
classes are open around them. -/
def classEnd? (fuel depth : Nat) (cs : List Char) : Option (List Char) :=
  match fuel, cs with
  | 0, _ => none
  | _, [] => none
  | fuel + 1, '[' :: cs => classEnd? fuel (depth + 1) (behindClassStart cs)
  | fuel + 1, ']' :: cs => if depth = 0 then some cs else classEnd? fuel (depth - 1) cs
  | fuel + 1, '&' :: '&' :: cs => classEnd? fuel depth cs
  | fuel + 1, '-' :: '-' :: cs => classEnd? fuel depth cs
  | fuel + 1, '~' :: '~' :: cs => classEnd? fuel depth cs
  | fuel + 1, cs => (classRange? cs).bind (classEnd? fuel depth)

/-! ## Groups -/

/-- Reads the name of a group. -/
def groupName? (cs : List Char) : Option (List Char) :=
  let isInner (c : Char) := c.isAlphanum || ['_', '.', '[', ']'].contains c
  let name := cs.takeWhile isInner
  match name, cs.drop name.length with
  | c :: _, '>' :: rest => if c.isAlpha || c == '_' then some rest else none
  | _, _ => none

/-- Whether some letters turn flags on and, behind a hyphen, off.  None occurs twice. -/
def areFlags (cs : List Char) : Bool :=
  cs.all (['m', 's', 'U', 'u', 'x', 'R', '-'].contains ·) && cs.eraseDups.length == cs.length
    && cs.getLast? != some '-'

/-- Reads the start of a group behind its parenthesis and returns whether the group stays open;
one of flags alone does not. -/
def groupStart? (cs : List Char) : Option (Bool × List Char) :=
  match cs with
  | '?' :: 'P' :: '<' :: cs => (groupName? cs).map (true, ·)
  | '?' :: '<' :: cs => (groupName? cs).map (true, ·)
  | '?' :: cs =>
    let flags := cs.takeWhile fun c => c ≠ ':' && c ≠ ')'
    match cs.drop flags.length with
    | ':' :: rest => if areFlags flags then some (true, rest) else none
    | ')' :: rest => if areFlags flags && !flags.isEmpty then some (false, rest) else none
    | _ => none
  | cs => some (true, cs)

/-! ## Patterns -/

/-- Whether the rest of a pattern is well-formed.  Its parts are fewer than `fuel`, `depth` groups
are open around it, and `operand` tells whether something in front can be repeated. -/
def isPatternFrom (fuel depth : Nat) (operand : Bool) (cs : List Char) : Bool :=
  match fuel, cs with
  | 0, _ => false
  | _, [] => depth == 0
  | fuel + 1, '(' :: cs =>
    match groupStart? cs with
    | some (opens, cs) => isPatternFrom fuel (if opens then depth + 1 else depth) false cs
    | none => false
  | fuel + 1, ')' :: cs => depth != 0 && isPatternFrom fuel (depth - 1) true cs
  | fuel + 1, '|' :: cs => isPatternFrom fuel depth false cs
  | fuel + 1, '[' :: cs =>
    match classEnd? fuel 0 (behindClassStart cs) with
    | some cs => isPatternFrom fuel depth true cs
    | none => false
  | fuel + 1, '\\' :: cs =>
    match cs with
    | 'A' :: cs => isPatternFrom fuel depth true cs
    | 'z' :: cs => isPatternFrom fuel depth true cs
    | cs =>
      match escapedChar? cs with
      | some (_, cs) => isPatternFrom fuel depth true cs
      | none => false
  | fuel + 1, c :: cs =>
    if c = '\x7b' then false
    else if c = '*' ∨ c = '+' ∨ c = '?' then
      operand && isPatternFrom fuel depth true (if cs.head? = some '?' then cs.tail else cs)
    else isPatternFrom fuel depth true cs

/-- Whether a text is a pattern. -/
def isPattern (cs : List Char) : Bool := isPatternFrom (cs.length + 1) 0 false cs

end LogSplit.Text
