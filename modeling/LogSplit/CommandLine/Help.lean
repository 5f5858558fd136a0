import LogSplit.CommandLine.Word
import LogSplit.Text.Styled

/-!
# The help text

What the program says about its command line: what it does, how it is called, each option and
switch in a row of its own, and what else is good to know.
-/

set_option autoImplicit false

namespace LogSplit

/-- What is said about an option or a switch. -/
structure HelpRow where
  /-- The letter that stands for it, if there is one. -/
  letter : Option Char
  /-- The full name. -/
  name : String
  /-- What stands for its value, if it takes one. -/
  placeholder : Option String
  /-- What it does. -/
  purpose : String
  deriving DecidableEq, Repr

namespace HelpRow

/-- The row of an option. -/
def ofOption (letter : Option Char) (o : ValueOption) (purpose : String) : HelpRow :=
  ⟨letter, o.name, some o.placeholder, purpose⟩

/-- The row of a switch. -/
def ofSwitch (letter : Option Char) (s : Switch) (purpose : String) : HelpRow :=
  ⟨letter, s.name, none, purpose⟩

/-- The names in a row, all of them in one column, and what stands for the value. -/
def names (r : HelpRow) : Styled :=
  (match r.letter with
    | some letter => [.plain "  ", .literal (String.ofList ['-', letter]), .plain ", "]
    | none => [.plain "      "])
    ++ [.literal ("--" ++ r.name)]
    ++ (match r.placeholder with
      | some placeholder => [.plain (" " ++ placeholder)]
      | none => [])

/-- The number of characters of the names. -/
def width (r : HelpRow) : Nat := (r.names.map fun span => span.text.length).foldl (· + ·) 0

/-- The row, with its purpose from a column on. -/
def line (column : Nat) (r : HelpRow) : Styled :=
  r.names
    ++ [.plain (String.ofList (List.replicate (column - r.width) ' ') ++ r.purpose ++ "\n")]

end HelpRow

/-- The options and switches in the order they are explained. -/
def helpRows : List HelpRow :=
  [.ofOption 'i' .input "Input log file (tab-delimited, header on the first line)",
    .ofOption 'p' .predicate "Predicate, e.g. \"state >= 1 && acc_x > 20\"",
    .ofOption 'o' .stem "Output file name prefix, without extension [default: flight]",
    .ofOption 'd' .outputDir "Directory receiving the segment files [default: logs]",
    .ofOption none .config "YAML file with default options",
    .ofSwitch none .strict "Fail when the predicate contains no conditions",
    .ofSwitch none .noClean "Keep existing .txt files in the output directory",
    .ofSwitch none .json "Print the result as JSON",
    .ofSwitch 'q' .quiet "Suppress output messages",
    .ofSwitch 'h' .help "Print help",
    .ofSwitch 'V' .version "Print version"]

/-- The column in which the purposes begin, two blanks behind the longest names. -/
def purposeColumn : Nat := (helpRows.map HelpRow.width).foldl max 0 + 2

/-- What is said behind the options. -/
def furtherHelp : String :=
"
Available operators: > / >= / < / <= / == / !=

Conditions are always combined with AND, whatever connective ('&&', '||')
separates them. The last row of the log never belongs to a segment.

Examples:
  seglog -i log.txt -o flight -p \"state >= 0 && acc_x > 20\"
  seglog -i ../Desktop/Log_file_201.txt -p \"gps_status==2 || healthy != 0\"

Segments are written to <OUTPUT_DIR>/<PREFIX>-<n>.txt, each starting with
the header row. Existing .txt files in the output directory are removed
first unless --no-clean is given.
"

/-- An option that has to be given. -/
def requiredUsage (o : ValueOption) : Styled :=
  [.plain " ", .literal ("--" ++ o.name), .plain (" " ++ o.placeholder)]

/-- The text that explains the command line. -/
def helpMessage : Styled :=
  [.plain "Split tab-delimited telemetry logs into segments matching a field predicate\n\n",
    .heading "Usage:", .plain " ", .literal "seglog", .plain " [OPTIONS]"]
    ++ requiredUsage .input ++ requiredUsage .predicate
    ++ [.plain "\n\n", .heading "Options:", .plain "\n"]
    ++ helpRows.flatMap (HelpRow.line purposeColumn) ++ [.plain furtherHelp]

/-- The name and the version of the program. -/
def versionText : String := "seglog 0.1.0\n"

end LogSplit
