import LogSplit.Journal.Filter
import LogSplit.Program

/-!
# The command

The program on a machine: its files, its standard output, and the journal on its standard
error.  A machine hands over its paths as texts, and takes them as texts.
-/

set_option autoImplicit false

namespace LogSplit

/-- Runs on a machine, with the filter of the journal. -/
abbrev OnMachine := ReaderT Filter IO

namespace OnMachine

/-- The error number in a code, which may be the number itself or its negation. -/
def number (code : UInt32) : Nat := code.toInt32.toInt.natAbs

/-- The error number and the words of a failure of the machine. -/
def numberAndWords : IO.Error → Nat × String
  | .alreadyExists _ code details => (number code, details)
  | .otherError code details => (number code, details)
  | .resourceBusy code details => (number code, details)
  | .resourceVanished code details => (number code, details)
  | .unsupportedOperation code details => (number code, details)
  | .hardwareFault code details => (number code, details)
  | .unsatisfiedConstraints code details => (number code, details)
  | .illegalOperation code details => (number code, details)
  | .protocolError code details => (number code, details)
  | .timeExpired code details => (number code, details)
  | .interrupted _ code details => (number code, details)
  | .noFileOrDirectory _ code details => (number code, details)
  | .invalidArgument _ code details => (number code, details)
  | .permissionDenied _ code details => (number code, details)
  | .resourceExhausted _ code details => (number code, details)
  | .inappropriateType _ code details => (number code, details)
  | .noSuchThing _ code details => (number code, details)
  | .unexpectedEof => (0, "unexpected end of file")
  | .userError words => (0, words)

/-- The failure that the machine reports. -/
def failure (e : IO.Error) : FileError :=
  FileError.ofNumber (numberAndWords e).1 (numberAndWords e).2

/-- Carries out an operation that may fail. -/
def attempt {α : Type} (operation : IO α) : OnMachine (Except FileError α) := do
  match ← operation.toBaseIO with
  | .ok value => return .ok value
  | .error e => return .error (failure e)

/-- The bytes of a file. -/
def readFile (p : Path) : OnMachine (Except ReadError Bytes) := do
  match ← attempt (IO.FS.Handle.mk p.shown .read) with
  | .error e => return .error (.opening e)
  | .ok handle =>
    match ← attempt handle.readBinToEnd with
    | .error e => return .error (.reading e)
    | .ok bytes => return .ok bytes.toList

/-- The names in a directory, and whether a regular file stands at each. -/
def listDir (p : Path) : IO (List (Bytes × Bool)) := do
  let entries ← ((← IO.currentDir) / p.shown).readDir
  entries.toList.mapM fun entry => do
    let metadata ← entry.path.symlinkMetadata
    return (Utf8.encode entry.fileName, metadata.type matches .file)

instance : Storage OnMachine where
  read := readFile
  write p content := attempt (IO.FS.writeBinFile p.shown ⟨content.toArray⟩)
  move source target := attempt (IO.FS.rename source.shown target.shown)
  remove p := attempt (IO.FS.removeFile p.shown)
  makeDir p := attempt (IO.FS.createDir p.shown)
  isDir p := do ((← IO.currentDir) / p.shown).isDir
  list p := attempt (listDir p)
  canonical p := attempt (do
    let path ← IO.FS.realPath p.shown
    return (Path.names ⟨path.toString⟩).reverse)
  workingDir := do return ⟨(← IO.currentDir).toString⟩

instance : Journal OnMachine where
  record event := do
    match (← read).line? event with
    | some line => IO.eprintln line
    | none => return ()

instance : Console OnMachine where
  print text := attempt do
    let output ← IO.getStdout
    output.putStr text
    output.flush

end OnMachine

/-- The variables of the machine. -/
def Environment.ofMachine : IO Environment :=
  return {
    noColor := ← IO.getEnv "NO_COLOR"
    ownColor := ← IO.getEnv "SEGLOG_COLOR"
    terminalColor := ← IO.getEnv "CLICOLOR"
    forcedColor := ← IO.getEnv "CLICOLOR_FORCE"
    journal := ← IO.getEnv "RUST_LOG" }

/-- Runs the program and says on standard error what went wrong. -/
def runOnMachine (arguments : List String) : IO UInt32 := do
  let environment ← Environment.ofMachine
  let colors := environment.colors (← (← IO.getStdout).isTty)
  let run : OnMachine Outcome := runProgram arguments colors
  let outcome ← run (Filter.ofSetting environment.journal)
  IO.eprint (outcome.errorText (environment.paintsMessages (← (← IO.getStderr).isTty)))
  return outcome.exitCode.toUInt32

end LogSplit

/-- The program as a command; its result is the exit code. -/
def main (arguments : List String) : IO UInt32 := LogSplit.runOnMachine arguments
