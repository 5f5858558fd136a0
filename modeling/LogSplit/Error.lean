import LogSplit.File.Path
import LogSplit.Predicate.Clause
import LogSplit.Tsv.Reader

/-!
# Errors

Everything that can end a split, as causes.  Each error has one message, and the chain of
messages of what lies behind it.
-/

set_option autoImplicit false

namespace LogSplit

/-- Why a row cannot be tested. -/
inductive RowError where
  /-- The row has no cell in a compared column. -/
  | missingCell (line : Nat) (field : String)
  /-- A compared cell is not a number. -/
  | notNumeric (line : Nat) (field value : String)
  deriving DecidableEq, Repr

namespace RowError

/-- The message shown to the user. -/
def message : RowError → String
  | missingCell line field =>
    "Line " ++ toString line ++ ": row has no value for field '" ++ field ++ "'"
  | notNumeric line field value =>
    "Line " ++ toString line ++ ": value '" ++ value ++ "' in field '" ++ field
      ++ "' is not numeric"

end RowError

/-- What is wrong with the stem of the output files. -/
inductive StemFault where
  /-- There is no character. -/
  | empty
  /-- There are too many characters. -/
  | tooLong
  /-- A character separates directories. -/
  | separator
  /-- The name of the directory itself or of the one above. -/
  | relative
  /-- A control character. -/
  | control
  deriving DecidableEq, Repr

/-- The most characters a stem may have. -/
def maxStemLength : Nat := 64

/-- The words for a fault. -/
def StemFault.reason : StemFault → String
  | empty => "prefix cannot be empty"
  | tooLong => "prefix cannot exceed " ++ toString maxStemLength ++ " characters"
  | separator => "prefix cannot contain path separators"
  | relative => "prefix cannot be a relative directory name"
  | control => "prefix cannot contain control characters"

/-- Why a split ended. -/
inductive SplitError where
  /-- A configuration file could not be read. -/
  | file (cause : FileError)
  /-- The input could not be read. -/
  | table (cause : TableError)
  /-- The predicate text is not well formed. -/
  | predicate (cause : PredicateError)
  /-- The configuration is not usable. -/
  | config (text : String)
  /-- A condition names no field of the header. -/
  | fieldNotFound (field : String) (available : List String)
  /-- A row cannot be tested. -/
  | row (cause : RowError)
  /-- The predicate asks for nothing and must not. -/
  | emptyPredicate (text : String)
  /-- The stem cannot be used in a file name. -/
  | invalidStem (stem : String) (fault : StemFault)
  /-- A file or directory could not be written. -/
  | output (path : Path) (cause : TableError)
  deriving DecidableEq, Repr

namespace SplitError

/-- The message shown to the user. -/
def message : SplitError → String
  | file cause => "IO error: " ++ cause.message
  | table cause => cause.message
  | predicate cause => "Invalid predicate: " ++ cause.message
  | config text => "Configuration error: " ++ text
  | fieldNotFound field available =>
    "Field not found: '" ++ field ++ "'. Available fields: " ++ ", ".intercalate available
  | row cause => cause.message
  | emptyPredicate text => "Predicate '" ++ text ++ "' contains no conditions"
  | invalidStem stem fault => "Invalid output prefix '" ++ stem ++ "': " ++ fault.reason
  | output path _ => "Cannot write '" ++ path.shown ++ "'"

/-- The messages of what caused the error, outermost first. -/
def causes : SplitError → List String
  | file cause => [cause.message]
  | table cause => cause.causes
  | predicate cause => [cause.message]
  | output _ cause => cause.message :: cause.causes
  | _ => []

end SplitError

end LogSplit
