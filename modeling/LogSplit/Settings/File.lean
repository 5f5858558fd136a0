import LogSplit.Text.Blank
import LogSplit.Yaml.Mapping

/-!
# Configuration files

A configuration file sets defaults for a run under four keys.  A key may be left out, and a
plain `null` or no value at all is the same as leaving it out, unless a tag says otherwise.  The
two switches take a plain `true` or `false`; the other two take any scalar as the text it spells,
whatever else it could be taken for.  Unknown keys and keys that occur twice are refused.
-/

set_option autoImplicit false

namespace LogSplit

/-- What a configuration file sets. -/
structure SettingsFile where
  /-- The directory that receives the segment files. -/
  outputDir : Option String
  /-- The stem of the segment files. -/
  stem : Option String
  /-- Whether a predicate without conditions is an error. -/
  strict : Option Bool
  /-- Whether segment files of earlier runs are removed first. -/
  clean : Option Bool
  deriving DecidableEq, Repr

namespace SettingsFile

/-- A file that sets nothing. -/
def empty : SettingsFile := ⟨none, none, none, none⟩

/-- The keys of a file. -/
inductive Key where
  /-- The output directory. -/
  | outputDir
  /-- The stem. -/
  | stem
  /-- Whether to be strict. -/
  | strict
  /-- Whether to remove old files. -/
  | clean
  deriving DecidableEq, Repr

/-- The key with a name. -/
def Key.ofText? (text : String) : Option Key :=
  match text with
  | "output-dir" => some .outputDir
  | "prefix" => some .stem
  | "strict" => some .strict
  | "clean" => some .clean
  | _ => none

/-- Whether a text spells that there is no value. -/
def isNull (text : String) : Bool := ["~", "null", "Null", "NULL"].contains text

/-- A value, or nothing where it is the same as none.  A plain value with a tag is there, but for
the tag of no value at all, which needs a text that spells it. -/
def present? (value : Yaml.Scalar) : Option (Option Yaml.Scalar) :=
  if value.style ≠ .plain then some (some value)
  else match value.tag with
    | none => some (if value.text = "" ∨ isNull value.text then none else some value)
    | some tag =>
      if tag ≠ Yaml.Preamble.standardTag "null" then some (some value)
      else if isNull value.text then some none else none

/-- The value of a switch, if it is on or off.  Besides a plain value, a literal block may spell
it if its tag says so. -/
def switch? (value : Yaml.Scalar) : Option Bool :=
  let tagged := value.style == .literal && value.tag == some (Yaml.Preamble.standardTag "bool")
  if value.style ≠ .plain ∧ !tagged then none
  else if ["true", "True", "TRUE"].contains value.text then some true
  else if ["false", "False", "FALSE"].contains value.text then some false
  else none

/-- The file with one more key set. -/
def set? (file : SettingsFile) (key : Key) (value : Yaml.Scalar) : Option SettingsFile := do
  let value ← present? value
  match key with
  | .outputDir => some { file with outputDir := value.map (·.text) }
  | .stem => some { file with stem := value.map (·.text) }
  | .strict => some { file with strict := ← value.mapM switch? }
  | .clean => some { file with clean := ← value.mapM switch? }

/-- Sets the keys of a mapping one after the other; `seen` are those that are set already. -/
def setAll? (file : SettingsFile) (seen : List Key) : Yaml.Mapping → Option SettingsFile
  | [] => some file
  | (name, value) :: rest =>
    match Key.ofText? name.text with
    | none => none
    | some key =>
      if key ∈ seen then none
      else (file.set? key value).bind fun file => setAll? file (key :: seen) rest

/-- Reads the text of a configuration file.  A blank text sets nothing. -/
def parse? (text : String) : Option SettingsFile :=
  if (Text.trim text).isEmpty then some empty
  else (Yaml.mapping? text).bind (setAll? empty [])

end SettingsFile

end LogSplit
