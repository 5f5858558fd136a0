import LogSplit.Yaml.Scalar

/-!
# Block scalars

A scalar written as lines that are indented more deeply than what surrounds it.  A literal block
keeps every line end, and a folded one those next to a line that begins with a blank.  The sign
in front says which of the two it is, and behind it may stand what becomes of the line ends at
the end, and by how much the lines are indented if the first one is not to tell.
-/

set_option autoImplicit false

namespace LogSplit.Yaml

/-- What becomes of the line ends behind the last line of a block. -/
inductive Chomp where
  /-- They are dropped. -/
  | strip
  /-- The first stays. -/
  | clip
  /-- All stay. -/
  | keep
  deriving DecidableEq, Repr

/-- The number of spaces at the front, of which at most `limit` are counted. -/
def countSpaces (limit : Nat) (cs : List Char) : Nat :=
  ((cs.take limit).takeWhile (· == ' ')).length

/-- The deepest indentation of the lines up to the first that is not blank, if no tab stands in
the way. -/
def findIndent (fuel deepest : Nat) (cs : List Char) : Option Nat :=
  match fuel with
  | 0 => none
  | fuel + 1 =>
    let spaces := countSpaces cs.length cs
    let deepest := max deepest spaces
    match cs.drop spaces with
    | [] => some deepest
    | c :: rest =>
      if c = '\t' then none
      else if isBreak c then findIndent fuel deepest (cutLine (c :: rest)).2.2
      else some deepest

/-- The text of a block so far. -/
structure BlockText where
  /-- The characters, newest first. -/
  text : List Char
  /-- The end of the last line that is not blank. -/
  ending : List Char
  /-- The ends of the blank lines behind it, newest first. -/
  blankLines : List Char
  /-- Whether the last line that is not blank begins with a blank. -/
  deep : Bool
  deriving DecidableEq, Repr

namespace BlockText

/-- A block before its first line. -/
def start : BlockText := ⟨[], [], [], false⟩

/-- The block with one more line.  In a folded block the line end between two lines that do not
begin with a blank becomes a space, or is lost if blank lines follow it. -/
def add (b : BlockText) (literal : Bool) (line ending : List Char) : BlockText :=
  let deep := (line.head?.map isBlank).getD false
  let between :=
    if !literal && b.ending == ['\n'] && !b.deep && !deep then
      if b.blankLines.isEmpty then [' '] else []
    else b.ending
  ⟨line.reverse ++ (b.blankLines ++ (between.reverse ++ b.text)), ending, [], deep⟩

/-- The text of the block at its end. -/
def finish (b : BlockText) (chomp : Chomp) : String :=
  let text := match chomp with
    | .strip => b.text
    | .clip => b.ending.reverse ++ b.text
    | .keep => b.blankLines ++ (b.ending.reverse ++ b.text)
  String.ofList text.reverse

end BlockText

/-- Reads the lines of a block that is indented by `indent`. -/
def blockLines (fuel : Nat) (literal : Bool) (indent : Nat) (b : BlockText) (cs : List Char) :
    Option (BlockText × Place) :=
  match fuel with
  | 0 => none
  | fuel + 1 =>
    let spaces := countSpaces indent cs
    match cs.drop spaces with
    | [] => some (b, ⟨[], spaces, true⟩)
    | c :: rest =>
      let (line, ending, after) := cutLine (c :: rest)
      if isBreak c then
        blockLines fuel literal indent { b with blankLines := ending ++ b.blankLines } after
      else if spaces < indent then
        if c = '\t' then none else some (b, ⟨c :: rest, spaces, true⟩)
      else blockLines fuel literal indent (b.add literal line ending) after

/-- How line ends are treated that a sign asks for. -/
def Chomp.ofSign? (c : Char) : Option Chomp :=
  if c = '+' then some .keep else if c = '-' then some .strip else none

/-- The value of a digit that is not zero. -/
def positiveDigit? (c : Char) : Option Nat :=
  if '1' ≤ c ∧ c ≤ '9' then some (c.toNat - 48) else none

/-- Takes the first character if it has a meaning. -/
def takeSign {α : Type} (meaning? : Char → Option α) : List Char → Option α × List Char
  | [] => (none, [])
  | c :: rest =>
    match meaning? c with
    | some a => (some a, rest)
    | none => (none, c :: rest)

/-- Reads what follows the sign of a block on its line, in either order: how line ends at the end
are treated, and by how much the block is indented if that is said. -/
def blockHeader (cs : List Char) : Option (Chomp × Option Nat × List Char) :=
  let (before, rest) := takeSign Chomp.ofSign? cs
  let (step, rest) := takeSign positiveDigit? rest
  let (behind, rest) := if before.isSome then (none, rest) else takeSign Chomp.ofSign? rest
  (restOfLine? rest).map fun rest => ((before <|> behind).getD .clip, step, rest)

/-- Reads a block scalar whose sign has been read.  It is indented more deeply than `indent`, the
column of the keys around it, if there are any. -/
def block (literal : Bool) (indent : Option Nat) (cs : List Char) : Option (Scalar × Place) := do
  let (chomp, step, rest) ← blockHeader cs
  let fuel := rest.length + 1
  let least := (indent.map (· + 1)).getD 1
  let indent ← match step with
    | some step => some (indent.getD 0 + step)
    | none => (findIndent fuel 0 rest).map (max least)
  let (b, place) ← blockLines fuel literal indent BlockText.start rest
  some (⟨b.finish chomp, if literal then .literal else .folded, none⟩, place)

end LogSplit.Yaml
