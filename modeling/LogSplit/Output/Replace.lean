import LogSplit.File.Storage
import LogSplit.Tsv.Writer

/-!
# Putting a table in place

A table is written to a path next to its own and moved over it when it is complete, so that
whoever reads the path finds the old file or the whole new one.  If anything fails the file
that was being prepared is removed again, as far as that can be done.
-/

set_option autoImplicit false

namespace LogSplit

variable {m : Type → Type} [Monad m] [Storage m] [Journal m]

/-- Puts a header and rows at a path. -/
def replaceTable (path : Path) (header : Header) (rows : List Row) :
    m (Except TableError Unit) := do
  match ← Storage.write path.temporary (Tsv.encode header rows) with
  | .error e =>
    let _ ← Storage.remove path.temporary
    return .error (.file e)
  | .ok () =>
    match ← Storage.move path.temporary path with
    | .error e =>
      let _ ← Storage.remove path.temporary
      return .error (.file e)
    | .ok () =>
      Journal.record (.tableWritten path rows.length)
      return .ok ()

/-- The header's duplicate names and, if there is a table, its size. -/
def Tsv.Reading.events (reading : Tsv.Reading) : List Event :=
  let repeated := match reading.header? with
    | some header => header.duplicates.map Event.duplicateName
    | none => []
  match reading.table with
  | .ok t => repeated ++ [.tableRead t.header.length t.body.length]
  | .error _ => repeated

/-- Reads the table at a path. -/
def readTable (path : Path) : m (Except TableError Table) := do
  match ← Storage.read path with
  | .error (.opening e) => return .error (.file e)
  | .error (.reading e) => return .error (.transfer e)
  | .ok bytes =>
    let reading := Tsv.Reading.ofBytes bytes
    reading.events.forM Journal.record
    return reading.table

end LogSplit
