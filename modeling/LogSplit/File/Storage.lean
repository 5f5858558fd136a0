import LogSplit.File.Tree
import LogSplit.Journal

/-!
# What a run acts on

A run reads and changes files, tells what it does, and prints.  The three classes here are all
it knows of its surroundings, so that one and the same run can be carried out on a file system
of a machine and on a `FileTree`.

`Host` is the second kind of surroundings, as a value: a file tree with a working directory,
the events told so far and the bytes printed so far, of which there may be a limit.  A run on it
is a function from hosts to hosts, in the monad `OnHost`.
-/

set_option autoImplicit false

namespace LogSplit

/-- Surroundings with files in them. -/
class Storage (m : Type → Type) where
  /-- The bytes of a file. -/
  read : Path → m (Except ReadError Bytes)
  /-- Creates or empties a file and puts bytes into it. -/
  write : Path → Bytes → m (Except FileError Unit)
  /-- Moves a file over whatever file stands at the second path. -/
  move : Path → Path → m (Except FileError Unit)
  /-- Removes a file. -/
  remove : Path → m (Except FileError Unit)
  /-- Makes a directory. -/
  makeDir : Path → m (Except FileError Unit)
  /-- Whether a path leads to a directory. -/
  isDir : Path → m Bool
  /-- The names in a directory, and whether a regular file stands at each. -/
  list : Path → m (Except FileError (List (Bytes × Bool)))
  /-- The location that a path leads to. -/
  canonical : Path → m (Except FileError Location)
  /-- The directory that paths are read from. -/
  workingDir : m Path

/-- Surroundings that take note of events. -/
class Journal (m : Type → Type) where
  /-- Takes note of an event. -/
  record : Event → m Unit

/-- Surroundings that show text. -/
class Console (m : Type → Type) where
  /-- Shows a text, as much of it as can be shown. -/
  print : String → m (Except FileError Unit)

/-- Surroundings as a value. -/
structure Host where
  /-- The files. -/
  files : FileTree
  /-- The working directory. -/
  cwd : Location
  /-- The events so far, in order. -/
  journal : List Event
  /-- The bytes shown so far. -/
  output : Bytes
  /-- The most bytes that can be shown, if there is a limit. -/
  limit : Option Nat
  deriving DecidableEq

namespace Host

/-- A host that has told and shown nothing and can show everything. -/
def start (files : FileTree) (cwd : Location) : Host := ⟨files, cwd, [], [], none⟩

/-- The absolute path of a location. -/
def pathOf (loc : Location) : Path :=
  ⟨if loc.isEmpty then [Path.slash] else loc.reverse.flatMap fun name => Path.slash :: name⟩

/-- As many of some bytes as can be shown. -/
def fitting (host : Host) (bytes : Bytes) : Bytes :=
  match host.limit with
  | none => bytes
  | some limit => bytes.take (limit - host.output.length)

end Host

/-- Runs on a host. -/
abbrev OnHost := StateM Host

namespace OnHost

/-- Carries out an operation that changes the files or fails. -/
def change (operation : FileTree → Location → Except FileError FileTree) :
    OnHost (Except FileError Unit) := fun host =>
  match operation host.files host.cwd with
  | .error e => (.error e, host)
  | .ok files => (.ok (), { host with files })

/-- Looks something up in the files. -/
def ask {α : Type} (question : FileTree → Location → α) : OnHost α := fun host =>
  (question host.files host.cwd, host)

instance : Storage OnHost where
  read p := ask fun files cwd => files.read cwd p
  write p content := change fun files cwd => files.write cwd p content
  move source target := change fun files cwd => files.move cwd source target
  remove p := change fun files cwd => files.remove cwd p
  makeDir p := change fun files cwd => files.makeDir cwd p
  isDir p := ask fun files cwd => files.isDir cwd p
  list p := ask fun files cwd => files.list cwd p
  canonical p := ask fun files cwd => files.canonical cwd p
  workingDir := ask fun _ cwd => Host.pathOf cwd

instance : Journal OnHost where
  record event := fun host => ((), { host with journal := host.journal ++ [event] })

instance : Console OnHost where
  print text := fun host =>
    let bytes := Utf8.encode text
    let shown := host.fitting bytes
    (if shown.length = bytes.length then .ok () else .error .limitReached,
      { host with output := host.output ++ shown })

end OnHost

end LogSplit
