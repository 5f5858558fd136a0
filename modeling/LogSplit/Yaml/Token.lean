import LogSplit.Yaml.Block
import LogSplit.Yaml.Tag

/-!
# Tokens of a YAML document

A document is cut into tokens from the front.  Whether a node is a key shows only at the colon
behind it, so a scan keeps in mind where a key may have started, and puts the token of a key
in there when the colon comes.  Such a key stands on one line and has a limited length.

Mappings are written between braces, or in lines, where the column of the keys tells what belongs
together; a scan puts in tokens for the start and the end of a mapping in lines.  Only documents
with one mapping at most can be cut: where a mapping or a sequence begins inside another one, the
scan ends without a result.
-/

set_option autoImplicit false

namespace LogSplit.Yaml

/-- A token. -/
inductive Token where
  /-- A directive in front of a document. -/
  | directive (directive : Directive)
  /-- The marked start of a document. -/
  | documentStart
  /-- The marked end of a document. -/
  | documentEnd
  /-- The start of a mapping in lines. -/
  | linesStart
  /-- The end of a mapping in lines. -/
  | linesEnd
  /-- An opening brace. -/
  | braceOpen
  /-- A closing brace. -/
  | braceClose
  /-- A comma between braces. -/
  | comma
  /-- A key follows. -/
  | key
  /-- A value follows. -/
  | value
  /-- The same node as the one with an anchor. -/
  | alias (name : String)
  /-- The node that follows has an anchor. -/
  | anchor (name : String)
  /-- The node that follows has a tag. -/
  | tag (tag : WrittenTag)
  /-- A scalar. -/
  | scalar (s : Scalar)
  deriving DecidableEq, Repr

/-- The most characters between the start of a key and its colon. -/
def maxKeyLength : Nat := 1024

/-- A place where a key may have started. -/
structure KeyStart where
  /-- The number of characters from there to the end of the text. -/
  remaining : Nat
  /-- The number of characters before it on its line. -/
  column : Nat
  /-- The number of tokens before it. -/
  tokens : Nat
  /-- Whether nothing but a key can stand there. -/
  required : Bool
  /-- Whether a line has ended since. -/
  crossed : Bool
  deriving DecidableEq, Repr

/-- A text that has been cut into tokens up to a place. -/
structure Scan where
  /-- The characters behind the place. -/
  rest : List Char
  /-- The number of characters before it on its line. -/
  column : Nat
  /-- The tokens so far, newest first. -/
  tokens : List Token
  /-- Whether the place is between braces. -/
  flow : Bool
  /-- The column of the keys of the mapping in lines around the place. -/
  indent : Option Nat
  /-- Whether a key may start at the place. -/
  keyAllowed : Bool
  /-- Where a key may have started. -/
  keyStart : Option KeyStart
  deriving DecidableEq, Repr

namespace Scan

/-- A text of which nothing has been cut. -/
def start (cs : List Char) : Scan := ⟨cs, 0, [], false, none, true, none⟩

/-! ## Moving on -/

/-- The scan with one more token. -/
def push (s : Scan) (token : Token) : Scan := { s with tokens := token :: s.tokens }

/-- The scan at a place that was reached from its own. -/
def moveTo (s : Scan) (p : Place) : Scan :=
  { s with
    rest := p.rest
    column := p.column
    keyStart := s.keyStart.map fun k => { k with crossed := k.crossed || p.crossed } }

/-- The scan behind some characters that do not end a line. -/
def advance (s : Scan) (n : Nat) : Scan := s.moveTo ⟨s.rest.drop n, s.column + n, false⟩

/-- The scan with a rule for where keys start from now on. -/
def allowKey (s : Scan) (allowed : Bool) : Scan := { s with keyAllowed := allowed }

/-- Passes over the gap in front of the next token. -/
def skip (s : Scan) : Scan :=
  let (place, allowed) := skipGap ⟨s.flow, s.keyAllowed⟩ false s.column false s.rest
  (s.moveTo place).allowKey allowed

/-! ## Keys -/

/-- Gives up that a key has started, unless nothing else can have. -/
def dropKey? (s : Scan) : Option Scan :=
  if s.keyStart.any (·.required) then none else some { s with keyStart := none }

/-- Gives up that a key has started if its line has ended or it has become too long. -/
def expireKey? (s : Scan) : Option Scan :=
  let expired := s.keyStart.any fun k => k.crossed || maxKeyLength < k.remaining - s.rest.length
  if expired then s.dropKey? else some s

/-- Keeps in mind that a key may start at the place. -/
def saveKey? (s : Scan) : Option Scan :=
  if s.keyAllowed then
    s.dropKey?.map fun s =>
      let required := !s.flow && s.indent == some s.column
      { s with keyStart := some ⟨s.rest.length, s.column, s.tokens.length, required, false⟩ }
  else some s

/-! ## Mappings in lines -/

/-- The tokens that have to be put in front of a key or a value at a column, and the scan in the
mapping that it belongs to. -/
def open? (s : Scan) (column : Nat) : Option (List Token × Scan) :=
  if s.flow then some ([], s)
  else match s.indent with
    | none => some ([.linesStart], { s with indent := some column })
    | some indent => if indent < column then none else some ([], s)

/-- Ends the mapping in lines around the place. -/
def close (s : Scan) : Scan :=
  if s.flow || s.indent.isNone then s else { s.push .linesEnd with indent := none }

/-- Ends the mapping in lines around the place if its keys stand behind the column. -/
def closeBehind (s : Scan) : Scan := if s.indent.any (s.column < ·) then s.close else s

/-! ## Tokens -/

/-- Puts tokens in behind the first `n`. -/
def insert (s : Scan) (n : Nat) (tokens : List Token) : Scan :=
  let newer := s.tokens.length - n
  { s with tokens := s.tokens.take newer ++ tokens.reverse ++ s.tokens.drop newer }

/-- Reads the sign of a key. -/
def keySign? (s : Scan) : Option Scan := do
  if !s.flow && !s.keyAllowed then none else
  let (opening, s) ← s.open? s.column
  let s ← s.dropKey?
  some (((s.insert s.tokens.length opening).push .key).allowKey (!s.flow) |>.advance 1)

/-- Reads the sign of a value.  If a key has started, its token is put in. -/
def valueSign? (s : Scan) : Option Scan :=
  match s.keyStart with
  | some k => do
    let (opening, s) ← s.open? k.column
    let s := s.insert k.tokens (opening ++ [.key])
    some (({ s with keyStart := none }.push .value).allowKey false |>.advance 1)
  | none => do
    if !s.flow && !s.keyAllowed then none else
    let (opening, s) ← s.open? s.column
    some (((s.insert s.tokens.length opening).push .value).allowKey (!s.flow) |>.advance 1)

/-- Reads a directive. -/
def directive? (s : Scan) : Option Scan := do
  let s ← s.close.dropKey?
  let (directive, rest) ← Directive.read? s.rest.tail
  some (((s.push (.directive directive)).allowKey false).moveTo ⟨rest, 0, true⟩)

/-- Reads the mark of the start or the end of a document. -/
def boundary? (s : Scan) (token : Token) : Option Scan := do
  let s ← s.close.dropKey?
  some (((s.push token).allowKey false).advance 3)

/-- Reads an opening brace, which cannot stand inside a mapping. -/
def braceOpen? (s : Scan) : Option Scan :=
  if s.flow || s.indent.isSome then none
  else some ((({ s with flow := true, keyStart := none }.push .braceOpen).allowKey true).advance 1)

/-- Reads a closing brace. -/
def braceClose? (s : Scan) : Option Scan := do
  if !s.flow then none else
  let s ← s.dropKey?
  some ((({ s with flow := false }.push .braceClose).allowKey false).advance 1)

/-- Reads a comma between braces. -/
def comma? (s : Scan) : Option Scan := do
  if !s.flow then none else
  let s ← s.dropKey?
  some (((s.push .comma).allowKey true).advance 1)

/-- Whether the name of an anchor may end in front of some characters. -/
def endsName (cs : List Char) : Bool :=
  atBlank cs || cs.head?.any (['?', ':', ',', ']', '\x7d', '%', '@', '\x60'].contains ·)

/-- Reads the name of an anchor behind its sign. -/
def name? (s : Scan) (token : String → Token) : Option Scan := do
  let s ← s.saveKey?
  let name := s.rest.tail.takeWhile isNameChar
  if name.isEmpty || !endsName (s.rest.tail.drop name.length) then none
  else some (((s.push (token (String.ofList name))).allowKey false).advance (1 + name.length))

/-- Reads a tag, behind which only a blank or, between braces, a comma may come. -/
def tag? (s : Scan) : Option Scan := do
  let s ← s.saveKey?
  let (tag, rest) ← WrittenTag.read? s.rest.tail
  if atBlank rest || (s.flow && rest.head? == some ',') then
    some (((s.push (.tag tag)).allowKey false).advance (s.rest.length - rest.length))
  else none

/-- Takes in a scalar that was read from the place on. -/
def take (s : Scan) (scalar : Scalar) (place : Place) : Scan :=
  (s.push (.scalar scalar)).moveTo place

/-- Reads a block. -/
def block? (s : Scan) (literal : Bool) : Option Scan := do
  let s ← s.dropKey?
  let (scalar, place) ← block literal s.indent s.rest.tail
  some ((s.take scalar place).allowKey true)

/-- Reads a scalar in quotes. -/
def quoted? (s : Scan) (double : Bool) : Option Scan := do
  let s ← s.saveKey?
  let (scalar, place) ← quoted double (s.column + 1) s.rest.tail
  some ((s.take scalar place).allowKey false)

/-- Reads a plain scalar.  If it ends behind a line end, a key may follow. -/
def plain? (s : Scan) : Option Scan := do
  let s ← s.saveKey?
  let (scalar, place) ← plain s.flow ((s.indent.map (· + 1)).getD 0) s.column s.rest
  some ((s.take scalar place).allowKey place.crossed)

/-- Reads the token that starts at the place. -/
def token? (s : Scan) : Option Scan :=
  if s.column == 0 && s.rest.head? == some '%' then s.directive?
  else if s.column == 0 && isBoundary '-' s.rest then s.boundary? .documentStart
  else if s.column == 0 && isBoundary '.' s.rest then s.boundary? .documentEnd
  else match s.rest with
    | [] => none
    | c :: rest =>
      let alone := s.flow || atBlank rest
      match c with
      | '\x7b' => s.braceOpen?
      | '\x7d' => s.braceClose?
      | ',' => s.comma?
      | '*' => s.name? .alias
      | '&' => s.name? .anchor
      | '!' => s.tag?
      | '\'' => s.quoted? false
      | '"' => s.quoted? true
      | c =>
        if c = '?' ∧ alone then s.keySign?
        else if c = ':' ∧ alone then s.valueSign?
        else if c = '|' ∧ !s.flow then s.block? true
        else if c = '>' ∧ !s.flow then s.block? false
        else if startsPlain s.flow (c :: rest) then s.plain?
        else none

/-- Cuts the rest of a text, of which there are fewer than `fuel` tokens. -/
def run? (fuel : Nat) (s : Scan) : Option (List Token) :=
  match fuel with
  | 0 => none
  | fuel + 1 => do
    let s ← s.skip.expireKey?
    let s := s.closeBehind
    if s.rest.isEmpty then
      let s ← s.close.dropKey?
      some s.tokens.reverse
    else run? fuel (← s.token?)

end Scan

/-- Cuts a text into tokens. -/
def Token.ofText? (text : String) : Option (List Token) :=
  let cs := text.toList
  if cs.all isAllowed then (Scan.start cs).run? (cs.length + 1) else none

end LogSplit.Yaml
