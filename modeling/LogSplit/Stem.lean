import LogSplit.Error
import LogSplit.Text.Blank

/-!
# Stems of output files

The segment files of a run have one stem and differ in the number behind it.  A stem is a
piece of a file name, not a path: it has between one and sixty-four characters, separates no
directories, is not the name of a directory relative to itself, and holds no control
character.  The first rule that is broken, in this order, is the one that is reported.
-/

set_option autoImplicit false

namespace LogSplit

namespace Stem

/-- A character that separates directories on some system. -/
def isSeparator (c : Char) : Bool := c == '/' || c == '\\'

/-- The first rule that a stem breaks. -/
def fault? (stem : String) : Option StemFault :=
  let cs := stem.toList
  if cs.isEmpty then some .empty
  else if maxStemLength < cs.length then some .tooLong
  else if cs.any isSeparator then some .separator
  else if stem = "." ∨ stem = ".." then some .relative
  else if cs.any Text.isControl then some .control
  else none

/-- Accepts a stem that breaks no rule. -/
def validate (stem : String) : Except SplitError Unit :=
  match fault? stem with
  | some fault => .error (.invalidStem stem fault)
  | none => .ok ()

/-- Accepts the stem that remains without the blanks around a text. -/
def ofArgument (text : String) : Except SplitError String :=
  (validate (Text.trim text)).map fun _ => Text.trim text

/-- The name of the file of a segment. -/
def fileName (stem : String) (index : Nat) : Bytes :=
  Utf8.encode (stem ++ "-" ++ toString index ++ ".txt")

end Stem

end LogSplit
