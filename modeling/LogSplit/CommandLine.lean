import LogSplit.CommandLine.Word
import LogSplit.File.Path
import LogSplit.Settings.File
import LogSplit.Settings
import LogSplit.Stem
import LogSplit.Text.Styled

/-!
# The command line

What a command line asks for.  It is read from left to right, and the first thing wrong with
it is what is reported.  A value that is not attached to its option is looked at only when the
next option or switch begins, or at the end; so a word that is not expected is reported before
a bad value in front of it.  Whether two switches exclude each other is decided at the end,
and only then whether something is missing.

Words are texts here, and so the paths that they spell are texts.  An `Invocation` has any paths: a
split can be asked for with a path that no text spells.
-/

set_option autoImplicit false

namespace LogSplit

/-- What is wrong with a command line. -/
inductive UsageError where
  /-- Nothing can be made of a word. -/
  | unexpected (word : String)
  /-- An option has no value, or an empty path. -/
  | valueMissing (o : ValueOption)
  /-- An option is given twice. -/
  | optionRepeated (o : ValueOption)
  /-- A switch is given twice. -/
  | switchRepeated (s : Switch)
  /-- A switch is given a value. -/
  | overloaded (s : Switch) (value : String)
  /-- The value of an option is not acceptable. -/
  | invalidValue (o : ValueOption) (value : String) (cause : SplitError)
  /-- Two switches exclude each other. -/
  | conflict (first second : Switch)
  /-- Options that have to be given are not. -/
  | optionsMissing (missing : List ValueOption)
  deriving DecidableEq, Repr

/-- What is wrong, in words. -/
def UsageError.description : UsageError → Styled
  | unexpected word => [.plain "unexpected argument '", .wrong word, .plain "' found"]
  | valueMissing o =>
    [.plain "a value is required for '", .wrong o.label, .plain "' but none was supplied"]
  | optionRepeated o =>
    [.plain "the argument '", .wrong o.label, .plain "' cannot be used multiple times"]
  | switchRepeated s =>
    [.plain "the argument '", .wrong s.label, .plain "' cannot be used multiple times"]
  | overloaded s value =>
    [.plain "unexpected value '", .wrong value, .plain "' for '", .literal s.label,
      .plain "' found; no more were expected"]
  | invalidValue o value cause =>
    [.plain "invalid value '", .wrong value, .plain "' for '", .literal o.label,
      .plain ("': " ++ cause.message)]
  | conflict first second =>
    [.plain "the argument '", .wrong first.label, .plain "' cannot be used with '",
      .wrong second.label, .plain "'"]
  | optionsMissing missing =>
    .plain "the following required arguments were not provided:"
      :: missing.flatMap fun o => [.plain "\n  ", .right o.label]

/-- The message shown to the user. -/
def UsageError.message (e : UsageError) : Styled :=
  [.kind "error:", .plain " "] ++ e.description
    ++ [.plain "\n\nFor more information, try '", .literal Switch.help.label, .plain "'.\n"]

/-- How much of the outcome is shown, and in which form. -/
inductive OutputMode where
  /-- As text. -/
  | text
  /-- As JSON. -/
  | json
  /-- Not at all. -/
  | quiet
  deriving DecidableEq, Repr

/-- A split as it is asked for.  Its paths may be any bytes. -/
structure Invocation where
  /-- The log that is read. -/
  input : Path
  /-- The predicate. -/
  predicate : String
  /-- The stem of the segment files. -/
  stem : Option String
  /-- The directory that receives them. -/
  outputDir : Option Path
  /-- The configuration file. -/
  config : Option Path
  /-- Whether a predicate without conditions is an error. -/
  strict : Bool
  /-- Whether files of earlier runs stay. -/
  noClean : Bool
  /-- Whether the report is shown as JSON. -/
  json : Bool
  /-- Whether nothing is shown. -/
  quiet : Bool
  deriving DecidableEq, Repr

namespace Invocation

/-- How the outcome is shown. -/
def mode (i : Invocation) : OutputMode :=
  if i.json then .json else if i.quiet then .quiet else .text

/-- The settings of the run: what the command line says, else what the configuration file
says, else the defaults, with paths read from a working directory. -/
def settings (i : Invocation) (file : SettingsFile) (workingDir : Path) : Settings where
  input := workingDir.join i.input.bytes
  outputDir := workingDir.join (i.outputDir.getD (file.outputDir.getD Settings.defaultOutputDir)).bytes
  stem := (i.stem <|> file.stem.map Text.trim).getD Settings.defaultStem
  strict := i.strict || file.strict.getD false
  clean := !i.noClean && file.clean.getD true

end Invocation

/-- What a command line asks for. -/
inductive Request where
  /-- The help text. -/
  | help
  /-- The version. -/
  | version
  /-- A split. -/
  | split (invocation : Invocation)
  deriving DecidableEq, Repr

/-- The options and switches given so far, in order. -/
structure Given where
  /-- The options and their values. -/
  values : List (ValueOption × String)
  /-- The switches. -/
  switches : List Switch
  deriving DecidableEq, Repr

/-- An option whose value has not been looked at. -/
structure Waiting where
  /-- The option. -/
  option : ValueOption
  /-- Its value, if there is one. -/
  value : Option String
  deriving DecidableEq, Repr

namespace Given

/-- Nothing is given. -/
def empty : Given := ⟨[], []⟩

/-- The value of an option. -/
def value? (g : Given) (o : ValueOption) : Option String := g.values.lookup o

/-- The value that an option takes from a text. -/
def accept (o : ValueOption) (text : String) : Except UsageError String :=
  match o with
  | .predicate => .ok text
  | .stem =>
    match Stem.ofArgument text with
    | .ok stem => .ok stem
    | .error e => .error (.invalidValue o text e)
  | .input | .outputDir | .config => if text = "" then .error (.valueMissing o) else .ok text

/-- Gives an option a value. -/
def set (g : Given) (o : ValueOption) (text : String) : Except UsageError Given :=
  if (g.value? o).isSome then .error (.optionRepeated o)
  else (accept o text).map fun value => { g with values := g.values ++ [(o, value)] }

/-- Turns a switch on. -/
def turnOn (g : Given) (s : Switch) : Except UsageError Given :=
  if s ∈ g.switches then .error (.switchRepeated s)
  else .ok { g with switches := g.switches ++ [s] }

/-- Gives the option that waits, if any, its value. -/
def settle (g : Given) : Option Waiting → Except UsageError Given
  | none => .ok g
  | some ⟨o, none⟩ => .error (.valueMissing o)
  | some ⟨o, some text⟩ => g.set o text

/-- The first of the two switches for the form of the output that are both on, and the
other one. -/
def conflict? (g : Given) : Option (Switch × Switch) :=
  match g.switches.filter fun s => s = .json ∨ s = .quiet with
  | first :: second :: _ => some (first, second)
  | _ => none

/-- The split that is asked for when nothing more is given. -/
def invocation (g : Given) : Except UsageError Invocation :=
  match g.conflict? with
  | some (first, second) => .error (.conflict first second)
  | none =>
    match g.value? .input, g.value? .predicate with
    | some input, some predicate => .ok
      { input, predicate
        stem := g.value? .stem
        outputDir := (g.value? .outputDir).map fun text => ⟨text⟩
        config := (g.value? .config).map fun text => ⟨text⟩
        strict := g.switches.contains .strict
        noClean := g.switches.contains .noClean
        json := g.switches.contains .json
        quiet := g.switches.contains .quiet }
    | _, _ =>
      .error (.optionsMissing ([.input, .predicate].filter fun o => (g.value? o).isNone))

end Given

namespace Request

/-- What is asked for when some options and switches are given and the pieces follow. -/
def ofPieces (g : Given) (waiting : Option Waiting) : List Piece → Except UsageError Request
  | [] => do
    let g ← g.settle waiting
    return .split (← g.invocation)
  | .option o attached :: rest => do
    let g ← g.settle waiting
    match attached with
    | none => ofPieces g (some ⟨o, none⟩) rest
    | some text => ofPieces (← g.set o text) none rest
  | .switch s :: rest => do
    let g ← g.settle waiting
    match s with
    | .help => return .help
    | .version => return .version
    | s => ofPieces (← g.turnOn s) none rest
  | .overloaded s value :: _ => .error (.overloaded s value)
  | .plain word :: rest =>
    match waiting with
    | some ⟨o, none⟩ => ofPieces g (some ⟨o, some word⟩) rest
    | _ => .error (.unexpected word)
  | .unexpected word :: _ => .error (.unexpected word)

/-- What a command line asks for. -/
def ofArguments (arguments : List String) : Except UsageError Request :=
  ofPieces .empty none (Piece.ofWords arguments)

end Request

end LogSplit
