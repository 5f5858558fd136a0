import LogSplit.Error
import LogSplit.File.Storage
import LogSplit.Settings.File

/-!
# Loading a configuration file

A configuration file has to be there, to be text, and to be a mapping of known keys; each of
the three has its own error.
-/

set_option autoImplicit false

namespace LogSplit

namespace SettingsFile

/-- What is said of a file that is no mapping of known keys to values of their kind. -/
def malformed : String := "not a mapping of known keys"

/-- The file in some bytes, which were found at a path. -/
def ofBytes (path : Path) (bytes : Bytes) : Except SplitError SettingsFile :=
  match Utf8.decode bytes with
  | .error _ => .error (.file .notText)
  | .ok text =>
    match parse? text with
    | none => .error (.config (path.shown ++ ": " ++ malformed))
    | some file => .ok file

/-- The file at a path. -/
def load {m : Type → Type} [Monad m] [Storage m] (path : Path) :
    m (Except SplitError SettingsFile) := do
  match ← Storage.read path with
  | .error e => return .error (.file e.cause)
  | .ok bytes => return ofBytes path bytes

end SettingsFile

end LogSplit
