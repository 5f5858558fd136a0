import LogSplit.Yaml.Place

/-!
# Scalars of a YAML document

A scalar is written plainly, in single or double quotes, or as a block of indented lines.
Whatever the style, a line end inside a scalar is folded: a single one becomes a space, and of
several the first is lost and the others stay.  Plain and quoted scalars are read here.

Each reader takes the characters from the start of a scalar on and returns the scalar with the
place behind it, or nothing if the document is malformed.
-/

set_option autoImplicit false

namespace LogSplit.Yaml

/-- How a scalar is written. -/
inductive Style where
  /-- As it is. -/
  | plain
  /-- In single or double quotes. -/
  | quoted
  /-- As a block whose line ends all count. -/
  | literal
  /-- As a block whose line ends are folded. -/
  | folded
  deriving DecidableEq, Repr

/-- A scalar: its text, how it was written, and what it was said to be. -/
structure Scalar where
  /-- The text, folded and without quotes and escapes. -/
  text : String
  /-- How it was written. -/
  style : Style
  /-- Its tag, if it has one. -/
  tag : Option String
  deriving DecidableEq, Repr

/-- The scalar that is left out. -/
def Scalar.absent : Scalar := ⟨"", .plain, none⟩

/-- A character that is punctuation between braces. -/
def isFlowIndicator (c : Char) : Bool :=
  c == ',' || c == '[' || c == ']' || c == '\x7b' || c == '\x7d'

/-! ## Folding -/

/-- The blanks and line ends since the last other character of a scalar. -/
structure Gap where
  /-- The blanks on the line of that character, newest first. -/
  blanks : List Char
  /-- The first line end, or nothing where that was escaped. -/
  first : Option (List Char)
  /-- The line ends behind the first, newest first. -/
  more : List Char
  deriving DecidableEq, Repr

namespace Gap

/-- No blank and no line end. -/
def none : Gap := ⟨[], .none, []⟩

/-- A gap of an escaped line end. -/
def escaped : Gap := ⟨[], some [], []⟩

/-- The gap is empty. -/
def isNone (g : Gap) : Bool := g.blanks.isEmpty && g.first.isNone

/-- The gap with one more blank, which counts only on the first line. -/
def blank (g : Gap) (c : Char) : Gap :=
  if g.first.isSome then g else { g with blanks := c :: g.blanks }

/-- The gap with one more line end. -/
def newline (g : Gap) (c : Char) : Gap :=
  if g.first.isSome then { g with more := normalBreak c :: g.more }
  else ⟨[], some [normalBreak c], []⟩

/-- What a gap becomes in the text of a scalar. -/
def fold (g : Gap) : List Char :=
  match g.first with
  | .none => g.blanks.reverse
  | some ['\n'] => if g.more.isEmpty then [' '] else g.more.reverse
  | some first => first ++ g.more.reverse

end Gap

/-! ## Plain scalars -/

/-- Whether a plain scalar can start here. -/
def startsPlain (flow : Bool) : List Char → Bool
  | [] => false
  | c :: rest =>
    if c = '-' then !atBlank rest
    else if c = '?' ∨ c = ':' then !flow && !atBlank rest
    else !(isBlank c || isBreak c || isFlowIndicator c
      || ['#', '&', '*', '!', '|', '>', '\'', '"', '%', '@', '\x60'].contains c)

/-- Whether a plain scalar ends in front of a character. -/
def endsPlain (flow : Bool) (c : Char) (rest : List Char) : Bool :=
  (c == ':' && atBlank rest) || (flow && isFlowIndicator c)

/-- Whether a colon stands where it cannot be told from punctuation. -/
def isStrayColon (flow : Bool) (c : Char) (rest : List Char) : Bool :=
  flow && c == ':' && match rest with
    | next :: _ => isFlowIndicator next || next == '?'
    | [] => false

/-- The plain scalar of some characters, newest first, with the place behind it and the gap. -/
def plainUpTo (text : List Char) (gap : Gap) (column : Nat) (rest : List Char) :
    Scalar × Place :=
  (⟨String.ofList text.reverse, .plain, none⟩, ⟨rest, column, gap.first.isSome⟩)

/-- Whether a plain scalar ends behind a gap that some characters follow.  Lines that continue it
are indented by at least `indent`, except between braces. -/
def endsPlainAfter (flow : Bool) (indent : Nat) (gap : Gap) (column : Nat) (cs : List Char) :
    Bool :=
  (gap.first.isSome && ((!flow && column < indent) || (column == 0 && isAnyBoundary cs)))
    || (!gap.isNone && cs.head? == some '#')

/-- Reads a plain scalar of which the characters in `text`, newest first, and the gap have been
read. -/
def plainFrom (flow : Bool) (indent : Nat) (text : List Char) (gap : Gap) (column : Nat) :
    List Char → Option (Scalar × Place)
  | [] => some (plainUpTo text gap column [])
  | c :: rest =>
    if isBreak c then
      if c = '\r' ∧ rest.head? = some '\n' then plainFrom flow indent text gap (column + 1) rest
      else plainFrom flow indent text (gap.newline c) 0 rest
    else if isBlank c then
      if gap.first.isSome && c == '\t' && column < indent then none
      else plainFrom flow indent text (gap.blank c) (column + 1) rest
    else if endsPlainAfter flow indent gap column (c :: rest) || endsPlain flow c rest then
      some (plainUpTo text gap column (c :: rest))
    else if isStrayColon flow c rest then none
    else plainFrom flow indent (c :: (gap.fold.reverse ++ text)) Gap.none (column + 1) rest

/-- Reads a plain scalar. -/
def plain (flow : Bool) (indent column : Nat) (cs : List Char) : Option (Scalar × Place) :=
  plainFrom flow indent [] Gap.none column cs

/-! ## Quoted scalars -/

/-- The character that an escape of one letter stands for. -/
def shortEscape? (c : Char) : Option Char :=
  match c with
  | '0' => some '\x00'
  | 'a' => some '\x07'
  | 'b' => some '\x08'
  | 't' => some '\t'
  | '\t' => some '\t'
  | 'n' => some '\n'
  | 'v' => some '\x0b'
  | 'f' => some '\x0c'
  | 'r' => some '\r'
  | 'e' => some '\x1b'
  | ' ' => some ' '
  | '"' => some '"'
  | '/' => some '/'
  | '\\' => some '\\'
  | 'N' => some '\u0085'
  | '_' => some '\u00a0'
  | 'L' => some '\u2028'
  | 'P' => some '\u2029'
  | _ => none

/-- How many digits follow a letter that announces the number of a character. -/
def escapeWidth? (c : Char) : Option Nat :=
  match c with
  | 'x' => some 2
  | 'u' => some 4
  | 'U' => some 8
  | _ => none

/-- The character whose number is written in base sixteen. -/
def numbered? (digits : List Char) : Option Char := do
  let n ← digits.foldlM (fun n c => (hexValue? c).map (16 * n + ·)) 0
  if n.isValidChar then some (Char.ofNat n) else none

/-- The scalar in quotes of some characters, newest first, and a gap. -/
def quotedUpTo (text : List Char) (gap : Gap) : Scalar :=
  ⟨String.ofList (gap.fold.reverse ++ text).reverse, .quoted, none⟩

/-- Reads the rest of a scalar in single quotes. -/
def singleFrom (text : List Char) (gap : Gap) (column : Nat) (crossed : Bool) :
    List Char → Option (Scalar × Place)
  | [] => none
  | '\'' :: '\'' :: rest =>
    singleFrom ('\'' :: (gap.fold.reverse ++ text)) Gap.none (column + 2) crossed rest
  | c :: rest =>
    if c = '\'' then
      some (quotedUpTo text gap, ⟨rest, column + 1, crossed⟩)
    else if isBreak c then
      if c = '\r' ∧ rest.head? = some '\n' then singleFrom text gap (column + 1) crossed rest
      else singleFrom text (gap.newline c) 0 true rest
    else if isBlank c then singleFrom text (gap.blank c) (column + 1) crossed rest
    else if column == 0 && isAnyBoundary (c :: rest) then none
    else singleFrom (c :: (gap.fold.reverse ++ text)) Gap.none (column + 1) crossed rest

/-- Reads the rest of a scalar in double quotes.  An escape takes several characters, so the
characters left are bounded by `fuel`, which is at least their number. -/
def doubleFrom (fuel : Nat) (text : List Char) (gap : Gap) (column : Nat) (crossed : Bool)
    (cs : List Char) : Option (Scalar × Place) :=
  match fuel, cs with
  | 0, _ => none
  | _, [] => none
  | fuel + 1, c :: rest =>
    let put (d : Char) := d :: (gap.fold.reverse ++ text)
    if c = '"' then
      some (quotedUpTo text gap, ⟨rest, column + 1, crossed⟩)
    else if isBreak c then
      if c = '\r' ∧ rest.head? = some '\n' then doubleFrom fuel text gap (column + 1) crossed rest
      else doubleFrom fuel text (gap.newline c) 0 true rest
    else if isBlank c then doubleFrom fuel text (gap.blank c) (column + 1) crossed rest
    else if column == 0 && isAnyBoundary (c :: rest) then none
    else if c = '\\' then
      match rest with
      | [] => none
      | '\r' :: '\n' :: rest =>
        doubleFrom fuel (gap.fold.reverse ++ text) Gap.escaped 0 true rest
      | e :: rest =>
        if isBreak e then doubleFrom fuel (gap.fold.reverse ++ text) Gap.escaped 0 true rest
        else match shortEscape? e, escapeWidth? e with
          | some d, _ => doubleFrom fuel (put d) Gap.none (column + 2) crossed rest
          | none, some width =>
            match numbered? (rest.take width) with
            | some d =>
              if rest.length < width then none
              else doubleFrom fuel (put d) Gap.none (column + 2 + width) crossed (rest.drop width)
            | none => none
          | none, none => none
    else doubleFrom fuel (put c) Gap.none (column + 1) crossed rest

/-- Reads a scalar whose opening quote has been read. -/
def quoted (double : Bool) (column : Nat) (rest : List Char) : Option (Scalar × Place) :=
  if double then doubleFrom (rest.length + 1) [] Gap.none column false rest
  else singleFrom [] Gap.none column false rest

end LogSplit.Yaml
