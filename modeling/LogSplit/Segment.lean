import LogSplit.Predicate.Compiled

/-!
# Segments

A segment is a maximal run of consecutive rows that pass, numbered from one in the order of
the table.  The last row of a table never belongs to a segment, whatever it holds, so a run
is always closed by a row behind it.  It is tested all the same: a cell in it that is no
number is an error.

A scan of a table is described by what happens in it, row after row: a row is tested, a run
is closed, or a row cannot be tested and the scan is over.  `scan` lists these events without
performing anything; handing the closed runs on is up to whoever walks over the list, and the
scan goes no further than the walk does.
-/

set_option autoImplicit false

namespace LogSplit

/-- A maximal run of passing rows. -/
structure Segment where
  /-- The number of the segment, from one. -/
  index : Nat
  /-- The position of its first row in the table. -/
  start : Nat
  /-- Its rows. -/
  rows : List NumberedRow
  deriving DecidableEq, Repr

namespace Segment

/-- The number of rows. -/
def length (s : Segment) : Nat := s.rows.length

/-- The position behind the last row. -/
def stop (s : Segment) : Nat := s.start + s.length

/-- The rows without their lines. -/
def bareRows (s : Segment) : List Row := s.rows.map (·.row)

end Segment

/-- What happens in a scan. -/
inductive ScanEvent where
  /-- The row at a position was tested: whether it passes, and whether it belongs to a
  segment. -/
  | tested (position : Nat) (passes member : Bool)
  /-- A run was closed by the row behind it. -/
  | closed (segment : Segment)
  /-- A row could not be tested. -/
  | failed (error : RowError)
  deriving DecidableEq, Repr

/-- A run that is still open: the position of its first row, and its rows, newest first. -/
structure OpenRun where
  /-- The position of the first row. -/
  start : Nat
  /-- The rows, newest first. -/
  rows : List NumberedRow
  deriving DecidableEq, Repr

namespace OpenRun

/-- A run of one row. -/
def single (position : Nat) (r : NumberedRow) : OpenRun := ⟨position, [r]⟩

/-- The run with one more row. -/
def push (run : OpenRun) (r : NumberedRow) : OpenRun := { run with rows := r :: run.rows }

/-- The segment that a run becomes. -/
def close (run : OpenRun) (index : Nat) : Segment := ⟨index, run.start, run.rows.reverse⟩

end OpenRun

/-- The events of a scan of `rows`, the first of which is at `position`, when `found` runs
have been closed before and `run` is open. -/
def scanFrom (p : CompiledPredicate) :
    (position found : Nat) → (run : Option OpenRun) → (rows : List NumberedRow) → List ScanEvent
  | _, _, _, [] => []
  | position, found, run, r :: rest =>
    match p.test r with
    | .error e => [.failed e]
    | .ok passes =>
      let member := passes && !rest.isEmpty
      .tested position passes member ::
        match run, member with
        | none, false => scanFrom p (position + 1) found none rest
        | none, true => scanFrom p (position + 1) found (some (.single position r)) rest
        | some run, true => scanFrom p (position + 1) found (some (run.push r)) rest
        | some run, false =>
          .closed (run.close (found + 1)) :: scanFrom p (position + 1) (found + 1) none rest

/-- The events of a scan of a table. -/
def scan (p : CompiledPredicate) (t : Table) : List ScanEvent := scanFrom p 0 0 none t.body

/-- What a finished scan counted. -/
structure ScanSummary where
  /-- The rows of the table. -/
  rows : Nat
  /-- The rows in some segment. -/
  matchedRows : Nat
  /-- The segments. -/
  segments : Nat
  deriving DecidableEq, Repr

/-- Counts before anything is handed on, over a table of some number of rows. -/
def ScanSummary.start (rows : Nat) : ScanSummary := ⟨rows, 0, 0⟩

/-- Counts with one more segment handed on. -/
def ScanSummary.add (summary : ScanSummary) (segment : Segment) : ScanSummary :=
  { summary with
    matchedRows := summary.matchedRows + segment.length
    segments := summary.segments + 1 }

/-- Walks over the events of a scan, tells `observe` about each, and hands every closed run to
`sink`.  The walk ends at the first failure, be it of the sink or of a row. -/
def handOver {m : Type → Type} [Monad m] (observe : ScanEvent → m Unit)
    (sink : Segment → m (Except SplitError Unit)) (summary : ScanSummary) :
    List ScanEvent → m (Except SplitError ScanSummary)
  | [] => pure (.ok summary)
  | event :: rest => do
    observe event
    match event with
    | .tested .. => handOver observe sink summary rest
    | .failed e => pure (.error (.row e))
    | .closed segment =>
      match ← sink segment with
      | .error e => pure (.error e)
      | .ok () => handOver observe sink (summary.add segment) rest

/-- Scans a table and hands every segment to `sink` as soon as it is closed. -/
def segmentTable {m : Type → Type} [Monad m] (observe : ScanEvent → m Unit)
    (sink : Segment → m (Except SplitError Unit)) (p : CompiledPredicate) (t : Table) :
    m (Except SplitError ScanSummary) :=
  handOver observe sink (.start t.body.length) (scan p t)

end LogSplit
