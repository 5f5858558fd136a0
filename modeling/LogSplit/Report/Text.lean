import LogSplit.Split
import LogSplit.Text.Paint

/-!
# Reports as text

What a run shows comes in three parts: the input before it is read, the header and the
conditions before rows are scanned, and the outcome.  The text of a whole report is the three
parts one after the other.

Labels are bold; a good outcome is green, a warning yellow, and a path or a number cyan.  A
painted text stands between two control sequences, and a sequence inside it that would end the
paint is followed by the paint again.
-/

set_option autoImplicit false

namespace LogSplit

/-! ## Paint -/

namespace Paint

/-- The text with `code` behind every reset in it. -/
def renew (code : List Char) : List Char → List Char
  | '\x1b' :: '[' :: '0' :: 'm' :: cs => reset ++ code ++ renew code cs
  | c :: cs => c :: renew code cs
  | [] => []

/-- The text in a paint, or as it is where nothing is painted. -/
def apply (paint : Paint) (colors : Bool) (text : String) : String :=
  if colors then
    String.ofList (paint.code ++ renew paint.code text.toList ++ reset)
  else text

end Paint

/-! ## The parts of a report -/

/-- What is shown when no segment was found. -/
def noSegmentMessage : String := "Unable to segment log file, please choose another predicate"

/-- What stands in the place of the conditions when there are none. -/
def noConditionsText : String := "(no conditions; every row except the last matches)"

/-- What is shown before the input is read. -/
def readingText (colors : Bool) (input : Path) : String :=
  Paint.bold.apply colors "Reading log file:" ++ " " ++ Paint.cyan.apply colors input.shown
    ++ "\n\n"

/-- A line for every name from a position on, with the position in front. -/
def headerLines (colors : Bool) : (position : Nat) → List String → String
  | _, [] => ""
  | position, name :: rest =>
    Paint.cyan.apply colors (toString position) ++ ": " ++ name ++ "\n"
      ++ headerLines colors (position + 1) rest

/-- What is shown before rows are scanned. -/
def planText (colors : Bool) (header conditions : List String) (orConnectives : Nat) : String :=
  Paint.bold.apply colors "Header fields:" ++ "\n" ++ headerLines colors 0 header ++ "\n"
    ++ Paint.bold.apply colors "Splitting log with:" ++ " "
    ++ (if conditions.isEmpty then noConditionsText else " && ".intercalate conditions) ++ "\n"
    ++ (if 0 < orConnectives then
        Paint.yellow.apply colors "Note: '||' is evaluated as AND; all conditions must hold" ++ "\n"
      else "")
    ++ "\n"

/-- A line for a segment. -/
def SegmentReport.line (colors : Bool) (s : SegmentReport) : String :=
  "  " ++ Paint.cyan.apply colors s.path.shown ++ "  lines " ++ toString s.startLine ++ "-"
    ++ toString s.endLine ++ " (" ++ toString s.rows ++ " rows)\n"

namespace Report

/-- What is shown when the run is over. -/
def resultText (r : Report) (colors : Bool) : String :=
  if r.isEmpty then Paint.yellow.apply colors noSegmentMessage ++ "\n"
  else
    Paint.green.apply colors "Done segmenting log file." ++ "\n"
      ++ "File segmented into " ++ toString r.segments.length ++ " files.\n"
      ++ String.join (r.segments.map fun s => s.line colors)

/-- The whole report as text. -/
def text (r : Report) (colors : Bool) : String :=
  readingText colors r.input ++ planText colors r.header r.conditions r.orConnectives
    ++ r.resultText colors

end Report

end LogSplit
