import LogSplit.Output.Replace
import LogSplit.Stem

/-!
# Segment files

The segments of a scan go to files in one directory, each with the header in front of its
rows, under the stem and the number of the segment.
-/

set_option autoImplicit false

namespace LogSplit

variable {m : Type → Type} [Monad m] [Storage m] [Journal m]

/-- Where segments are written. -/
structure Destination where
  /-- The directory. -/
  dir : Path
  /-- The stem of the file names. -/
  stem : String
  deriving DecidableEq, Repr

/-- The path of the file of a segment. -/
def Destination.pathFor (d : Destination) (index : Nat) : Path :=
  d.dir.join (Stem.fileName d.stem index)

/-- A segment that has been written. -/
structure WrittenSegment where
  /-- The number of the segment. -/
  index : Nat
  /-- Its file. -/
  path : Path
  /-- The position of its first row in the table. -/
  start : Nat
  /-- The number of its rows. -/
  rows : Nat
  deriving DecidableEq, Repr

namespace Destination

/-- What is remembered of a segment in its file. -/
def written (d : Destination) (s : Segment) : WrittenSegment :=
  ⟨s.index, d.pathFor s.index, s.start, s.length⟩

/-- Writes a segment. -/
def write (d : Destination) (header : Header) (s : Segment) : m (Except SplitError Unit) := do
  let path := d.pathFor s.index
  match ← replaceTable path header s.bareRows with
  | .error e => return .error (.output path e)
  | .ok () =>
    Journal.record (.segmentWritten s.index s.length path)
    return .ok ()

/-- Scans a table, writes every segment, and lists the segments that were written, also when
the scan fails. -/
def writeSegments (d : Destination) (p : CompiledPredicate) (t : Table) :
    m (Except SplitError ScanSummary × List WrittenSegment) := do
  let sink : Segment → StateT (List WrittenSegment) m (Except SplitError Unit) := fun s => do
    match ← (d.write t.header s : m _) with
    | .error e => return .error e
    | .ok () =>
      modify (· ++ [d.written s])
      return .ok ()
  let observe : ScanEvent → StateT (List WrittenSegment) m Unit := fun event =>
    (Journal.record (.scanned event) : m Unit)
  (segmentTable observe sink p t).run []

end Destination

end LogSplit
