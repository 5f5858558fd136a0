import LogSplit.Segment
import LogSplit.Settings

/-!
# The journal

What a run tells about itself while it goes on, as events.  An event has an entry, which gives
it a level and a topic, and an entry is written as a line.  Which entries are shown is not
decided here.
-/

set_option autoImplicit false

namespace LogSplit

/-- How severe an event is, from the most severe on. -/
inductive Level where
  /-- The run failed. -/
  | error
  /-- Something is probably not as intended. -/
  | warn
  /-- A step of the run. -/
  | info
  /-- A detail of a step. -/
  | debug
  /-- A detail of a detail. -/
  | trace
  deriving DecidableEq, Repr

namespace Level

/-- The place of a level, the most severe one first. -/
def rank : Level → Nat
  | error => 1
  | warn => 2
  | info => 3
  | debug => 4
  | trace => 5

/-- The name of a level as a line shows it. -/
def text : Level → String
  | error => "ERROR"
  | warn => "WARN"
  | info => "INFO"
  | debug => "DEBUG"
  | trace => "TRACE"

end Level

/-- Something that a run tells about itself. -/
inductive Event where
  /-- The program starts. -/
  | started
  /-- The settings are known. -/
  | settled (settings : Settings)
  /-- A clause was found in the predicate text. -/
  | clauseFound (clause : Clause)
  /-- The predicate text was read to its end. -/
  | predicateRead (conditions orConnectives : Nat)
  /-- The predicate asks for nothing. -/
  | noConditions (predicate : String)
  /-- Connectives with a bar are read as conjunctions. -/
  | orAsAnd (count : Nat)
  /-- The input is about to be read. -/
  | readingInput (input : Path)
  /-- More than one column has this name. -/
  | duplicateName (name : String)
  /-- The input was read. -/
  | tableRead (columns rows : Nat)
  /-- A condition was bound to a column. -/
  | fieldBound (field : String) (column : Nat)
  /-- The input lies among the files to be removed, and stays. -/
  | inputKept (path : Path)
  /-- A file of an earlier run was removed. -/
  | fileRemoved (path : Path)
  /-- Something happened in the scan. -/
  | scanned (event : ScanEvent)
  /-- A table was put in place. -/
  | tableWritten (path : Path) (rows : Nat)
  /-- A segment was written. -/
  | segmentWritten (index rows : Nat) (path : Path)
  /-- Every row has been scanned. -/
  | finished (rows segments : Nat)
  /-- The program ends well. -/
  | completed
  deriving DecidableEq

/-- A line of the journal before its fields are joined: its level and topic, what happened,
and the names and values of its fields. -/
structure Entry where
  /-- How severe it is. -/
  level : Level
  /-- What part of the run it is about. -/
  topic : String
  /-- What happened. -/
  message : String
  /-- Names and values. -/
  fields : List (String × String)
  deriving DecidableEq, Repr

namespace Event

/-- The entry of an event in a scan; a row that cannot be tested has none. -/
def scanEntry? : ScanEvent → Option Entry
  | .tested position passes member =>
    some ⟨.trace, "seglog::segment", "Tested row",
      [("row", toString position), ("passes", toString passes), ("matches", toString member)]⟩
  | .closed s =>
    some ⟨.debug, "seglog::segment", "Segment finished",
      [("index", toString s.index), ("start", toString s.start), ("end", toString s.stop),
        ("rows", toString s.length)]⟩
  | .failed _ => none

/-- The entry of an event. -/
def entry? : Event → Option Entry
  | started => some ⟨.debug, "seglog", "Starting seglog CLI", []⟩
  | settled settings =>
    some ⟨.debug, "seglog::cli", "Resolved run configuration", [("config", settings.describe)]⟩
  | clauseFound c =>
    some ⟨.trace, "seglog::predicate::parser", "Parsed clause",
      [("condition", c.condition.text), ("offset", toString c.offset)]⟩
  | predicateRead conditions orConnectives =>
    some ⟨.debug, "seglog::predicate::parser", "Parsed predicate",
      [("conditions", toString conditions), ("or_connectives", toString orConnectives)]⟩
  | noConditions predicate =>
    some ⟨.warn, "seglog::commands::split",
      "Predicate contains no conditions; every row except the last matches",
      [("predicate", Text.quoted predicate)]⟩
  | orAsAnd count =>
    some ⟨.warn, "seglog::commands::split", "'||' connectives are evaluated as AND",
      [("count", toString count)]⟩
  | readingInput input =>
    some ⟨.info, "seglog::commands::split", "Reading log file", [("input", input.shown)]⟩
  | duplicateName name =>
    some ⟨.warn, "seglog_tsv::reader", "Duplicate header name; first column is used",
      [("field", Text.quoted name)]⟩
  | tableRead columns rows =>
    some ⟨.debug, "seglog_tsv::reader", "Read tab-delimited table",
      [("columns", toString columns), ("rows", toString rows)]⟩
  | fieldBound field column =>
    some ⟨.debug, "seglog::predicate::evaluator", "Resolved condition field",
      [("field", field), ("index", toString column)]⟩
  | inputKept path =>
    some ⟨.debug, "seglog::commands::split", "Keeping input log inside output directory",
      [("path", path.shown)]⟩
  | fileRemoved path =>
    some ⟨.debug, "seglog::commands::split", "Removed stale output file", [("path", path.shown)]⟩
  | scanned event => scanEntry? event
  | tableWritten path rows =>
    some ⟨.trace, "seglog_tsv::atomic", "Wrote table",
      [("path", path.shown), ("rows", toString rows)]⟩
  | segmentWritten index rows path =>
    some ⟨.info, "seglog::segment::sink", "Wrote segment",
      [("index", toString index), ("rows", toString rows), ("path", path.shown)]⟩
  | finished rows segments =>
    some ⟨.info, "seglog::commands::split", "Finished segmenting log file",
      [("rows", toString rows), ("segments", toString segments)]⟩
  | completed => some ⟨.debug, "seglog", "Seglog CLI completed successfully", []⟩

end Event

/-- The line of an entry: level, message, and each field with its value. -/
def Entry.line (e : Entry) : String :=
  e.level.text ++ " " ++ e.message
    ++ String.join (e.fields.map fun field => " " ++ field.1 ++ "=" ++ field.2)

end LogSplit
