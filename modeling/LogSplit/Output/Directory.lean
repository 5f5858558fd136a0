import LogSplit.File.Storage
import LogSplit.Error
import LogSplit.Text.Case

/-!
# The output directory

Before segments are written their directory is made, with whatever directories are missing
above it, and the text files in it are removed: regular files directly in it whose extension
is `txt` in any case.  One file may be exempt, whichever path it is given by: the input of the
run, which may lie in the same directory.
-/

set_option autoImplicit false

namespace LogSplit

variable {m : Type → Type} [Monad m] [Storage m] [Journal m]

/-- The extension of segment files. -/
def segmentExtension : String := "txt"

/-- Whether a path has the extension of segment files, in any case. -/
def Path.isSegment (p : Path) : Bool :=
  match p.extension? with
  | some extension => Text.sameBytesIgnoringCase extension segmentExtension
  | none => false

/-- Makes the first of some directories, each of which lies in the next, and those of the
others that are missing. -/
def makeDirs : List Path → m (Except FileError Unit)
  | [] => return .ok ()
  | p :: above => do
    match ← Storage.makeDir p with
    | .ok () => return .ok ()
    | .error .notFound =>
      match ← makeDirs above with
      | .error e => return .error e
      | .ok () =>
        match ← Storage.makeDir p with
        | .ok () => return .ok ()
        | .error e => return if ← Storage.isDir p then .ok () else .error e
    | .error e => return if ← Storage.isDir p then .ok () else .error e

/-- Removes the segment files among the entries of a directory, all but the one at the
location `keep`, and returns their number added to `removed`. -/
def removeSegments (dir : Path) (keep : Option Location) :
    (removed : Nat) → List (Bytes × Bool) → m (Except SplitError Nat)
  | removed, [] => return .ok removed
  | removed, (name, isFile) :: rest => do
    let path := dir.join name
    if isFile && path.isSegment then
      let kept ← match keep with
        | none => pure false
        | some keep => do
          match ← Storage.canonical path with
          | .ok loc => pure (decide (loc = keep))
          | .error _ => pure false
      if kept then
        Journal.record (.inputKept path)
        removeSegments dir keep removed rest
      else
        match ← Storage.remove path with
        | .error e => return .error (.output path (.file e))
        | .ok () =>
          Journal.record (.fileRemoved path)
          removeSegments dir keep (removed + 1) rest
    else removeSegments dir keep removed rest

/-- Makes the directory for segments and, if asked to, removes the segment files in it but
`keep`.  Returns how many were removed. -/
def prepareDirectory (dir : Path) (clean : Bool) (keep : Option Path) :
    m (Except SplitError Nat) := do
  match ← makeDirs dir.ancestors with
  | .error e => return .error (.output dir (.file e))
  | .ok () =>
    if !clean then return .ok 0
    let keep ← match keep with
      | none => pure none
      | some path => do
        match ← Storage.canonical path with
        | .ok loc => pure (some loc)
        | .error _ => pure none
    match ← Storage.list dir with
    | .error e => return .error (.output dir (.file e))
    | .ok entries => removeSegments dir keep 0 entries

end LogSplit
