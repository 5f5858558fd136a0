import LogSplit.Output.Directory
import LogSplit.Output.SegmentFile

/-!
# Splits

A split has two halves.  The first, `Plan.prepare`, checks the stem, reads the predicate and
the input and binds the conditions to columns; it changes no file.  The second, `Plan.execute`,
prepares the output directory and writes the segments.  In between everything the second half
needs has been read, so that not even removing or replacing the input changes its course.
-/

set_option autoImplicit false

namespace LogSplit

variable {m : Type → Type} [Monad m] [Storage m] [Journal m]

/-- A segment in a report. -/
structure SegmentReport where
  /-- The number of the segment. -/
  index : Nat
  /-- Its file. -/
  path : Path
  /-- The source line of its first row. -/
  startLine : Nat
  /-- The source line of its last row. -/
  endLine : Nat
  /-- The number of its rows. -/
  rows : Nat
  deriving DecidableEq, Repr

/-- What a split did. -/
structure Report where
  /-- The log that was read. -/
  input : Path
  /-- The directory that was written to. -/
  outputDir : Path
  /-- The stem of the segment files. -/
  stem : String
  /-- The names of the columns. -/
  header : List String
  /-- The texts of the conditions. -/
  conditions : List String
  /-- How many connectives with a bar were read as conjunctions. -/
  orConnectives : Nat
  /-- The number of rows of the log. -/
  rows : Nat
  /-- The number of rows in segments. -/
  matchedRows : Nat
  /-- The number of files of earlier runs that were removed. -/
  removedFiles : Nat
  /-- The segments. -/
  segments : List SegmentReport
  deriving DecidableEq, Repr

/-- No segment was found. -/
def Report.isEmpty (r : Report) : Bool := r.segments.isEmpty

/-- The report on a written segment, whose lines are those of the table. -/
def WrittenSegment.report (w : WrittenSegment) (t : Table) : SegmentReport where
  index := w.index
  path := w.path
  startLine := t.lineNumber w.start
  endLine := t.lineNumber (w.start + w.rows - 1)
  rows := w.rows

/-- A split that is ready to be carried out. -/
structure Plan where
  /-- The settings. -/
  settings : Settings
  /-- The conditions. -/
  conditions : ConditionSet
  /-- The table that was read. -/
  table : Table
  /-- The conditions on its columns. -/
  compiled : CompiledPredicate
  deriving DecidableEq

/-- The events of reading a predicate text. -/
def Search.events (s : Search) : List Event :=
  let found := s.clauses.map Event.clauseFound
  match s.stopped with
  | some _ => found
  | none => found ++ [.predicateRead s.clauses.length s.conditionSet.orConnectives]

/-- The events of binding conditions to columns. -/
def CompiledPredicate.events (header : Header) (s : ConditionSet) : List Event :=
  (bindAll header s.conditions).1.map fun b => .fieldBound b.condition.field b.column

/-- Reads a predicate text that may have to ask for something. -/
def readPredicate (strict : Bool) (text : String) : m (Except SplitError ConditionSet) := do
  (Search.ofText text).events.forM Journal.record
  match ConditionSet.parse text with
  | .error e => return .error (.predicate e)
  | .ok conditions =>
    if conditions.isEmpty then
      if strict then return .error (.emptyPredicate text)
      Journal.record (.noConditions text)
    if 0 < conditions.orConnectives then
      Journal.record (.orAsAnd conditions.orConnectives)
    return .ok conditions

/-- Reads the table at a path as the input of a split. -/
def readInput (path : Path) : m (Except SplitError Table) := do
  Journal.record (.readingInput path)
  match ← readTable path with
  | .error e => return .error (.table e)
  | .ok t => return .ok t

namespace Plan

/-- Gets everything ready for a split. -/
def prepare (settings : Settings) (predicate : String) : m (Except SplitError Plan) := do
  match Stem.validate settings.stem with
  | .error e => return .error e
  | .ok () =>
    match ← readPredicate settings.strict predicate with
    | .error e => return .error e
    | .ok conditions =>
      match ← readInput settings.input with
      | .error e => return .error e
      | .ok table =>
        (CompiledPredicate.events table.header conditions).forM Journal.record
        match CompiledPredicate.compile table.header conditions with
        | .error e => return .error e
        | .ok compiled => return .ok ⟨settings, conditions, table, compiled⟩

/-- Where the segments of a plan go. -/
def destination (p : Plan) : Destination := ⟨p.settings.outputDir, p.settings.stem⟩

/-- The report on a plan that was carried out. -/
def report (p : Plan) (removed : Nat) (summary : ScanSummary) (written : List WrittenSegment) :
    Report where
  input := p.settings.input
  outputDir := p.settings.outputDir
  stem := p.settings.stem
  header := p.table.header.names
  conditions := p.conditions.texts
  orConnectives := p.conditions.orConnectives
  rows := summary.rows
  matchedRows := summary.matchedRows
  removedFiles := removed
  segments := written.map fun w => w.report p.table

/-- Carries a plan out. -/
def execute (p : Plan) : m (Except SplitError Report) := do
  match ← prepareDirectory p.settings.outputDir p.settings.clean (some p.settings.input) with
  | .error e => return .error e
  | .ok removed =>
    match ← p.destination.writeSegments p.compiled p.table with
    | (.error e, _) => return .error e
    | (.ok summary, written) =>
      Journal.record (.finished summary.rows summary.segments)
      return .ok (p.report removed summary written)

end Plan

/-- Splits a log: prepares and carries out. -/
def split (settings : Settings) (predicate : String) : m (Except SplitError Report) := do
  match ← Plan.prepare settings predicate with
  | .error e => return .error e
  | .ok plan => plan.execute

end LogSplit
