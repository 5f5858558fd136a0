import LogSplit.CommandLine
import LogSplit.CommandLine.Help
import LogSplit.Environment
import LogSplit.Report.Json
import LogSplit.Report.Text
import LogSplit.Settings.Load

/-!
# The program

A whole run, from the words of the command line to the exit code.  As text, the outcome is
shown part by part while the run goes on, so that a run that fails has shown what it came to;
as JSON it is shown at the end, if the run gets there.
-/

set_option autoImplicit false

namespace LogSplit

/-- Why a run that was asked for a split failed. -/
inductive RunError where
  /-- The split failed, or there were no settings for it. -/
  | split (cause : SplitError)
  /-- Something was to be shown and not all of it was. -/
  | unshown (cause : FileError)
  deriving DecidableEq, Repr

namespace RunError

/-- The message shown to the user. -/
def message : RunError → String
  | split cause => cause.message
  | unshown cause => cause.message

/-- The messages of what caused the error, outermost first. -/
def causes : RunError → List String
  | split cause => cause.causes
  | unshown _ => []

end RunError

/-- How a run ended. -/
inductive Outcome where
  /-- What was asked for was done. -/
  | succeeded
  /-- The command line makes no sense. -/
  | refused (error : UsageError)
  /-- The split failed, or what was to be shown of it was not shown. -/
  | failed (error : RunError)
  deriving DecidableEq, Repr

namespace Outcome

/-- The exit code that tells how a run ended. -/
def exitCode : Outcome → Nat
  | succeeded => 0
  | failed _ => 1
  | refused _ => 2

/-- Numbered causes, one to a line. -/
def numbered : (number : Nat) → List String → String
  | _, [] => ""
  | number, cause :: rest =>
    "    " ++ toString number ++ ": " ++ cause ++ "\n" ++ numbered (number + 1) rest

/-- What is said about the causes of an error.  A single one has no number. -/
def causesText : List String → String
  | [] => ""
  | [cause] => "\nCaused by:\n    " ++ cause ++ "\n"
  | causes => "\nCaused by:\n" ++ numbered 0 causes

/-- What is said about a failure.  Only what is said about the command line may be painted. -/
def errorText (colors : Bool) : Outcome → String
  | succeeded => ""
  | refused e => e.message.shown colors
  | failed e => "Error: " ++ e.message ++ "\n" ++ causesText e.causes

end Outcome

variable {m : Type → Type} [Monad m] [Storage m] [Journal m] [Console m]

/-- Shows a text if the outcome is shown as text. -/
def printInTextMode (mode : OutputMode) (text : String) : m (Except FileError Unit) :=
  match mode with
  | .text => Console.print text
  | .json | .quiet => return .ok ()

/-- Shows as much as has been written; then what is missing is the failure. -/
def Draft.print (d : Draft) : m (Except FileError Unit) := do
  match ← Console.print d.text with
  | .error e => return .error e
  | .ok () => return if d.complete then .ok () else .error .pathNotText

/-- Shows what is shown of a report at the end. -/
def Report.print (r : Report) (mode : OutputMode) (colors : Bool) : m (Except FileError Unit) :=
  match mode with
  | .text => Console.print (r.resultText colors)
  | .json => r.json.print
  | .quiet => return .ok ()

/-- Splits a log and shows the outcome.  What cannot be shown ends the run. -/
def Settings.run (settings : Settings) (predicate : String) (mode : OutputMode) (colors : Bool) :
    m (Except RunError Unit) := do
  match ← printInTextMode mode (readingText colors settings.input) with
  | .error e => return .error (.unshown e)
  | .ok () =>
    match ← Plan.prepare settings predicate with
    | .error e => return .error (.split e)
    | .ok plan =>
      match ← printInTextMode mode (planText colors plan.table.header.names plan.conditions.texts
          plan.conditions.orConnectives) with
      | .error e => return .error (.unshown e)
      | .ok () =>
        match ← plan.execute with
        | .error e => return .error (.split e)
        | .ok report =>
          match ← report.print mode colors with
          | .error e => return .error (.unshown e)
          | .ok () => return .ok ()

namespace Invocation

/-- The configuration file that is named, or one that sets nothing. -/
def settingsFile (i : Invocation) : m (Except SplitError SettingsFile) :=
  match i.config with
  | none => pure (.ok .empty)
  | some path => SettingsFile.load path

/-- Carries out the split that is asked for. -/
def run (i : Invocation) (colors : Bool) : m (Except RunError Unit) := do
  match ← i.settingsFile with
  | .error e => return .error (.split e)
  | .ok file =>
    let settings := i.settings file (← Storage.workingDir)
    Journal.record (.settled settings)
    settings.run i.predicate i.mode colors

end Invocation

/-- What is painted of the texts that a run shows. -/
structure Colors where
  /-- The report. -/
  report : Bool
  /-- What is said about the command line. -/
  messages : Bool
  deriving DecidableEq, Repr

/-- What is painted in an environment, where the output may be a terminal. -/
def Environment.colors (e : Environment) (terminal : Bool) : Colors :=
  ⟨e.paintsReport terminal, e.paintsMessages terminal⟩

/-- A run of the program. -/
def runProgram (arguments : List String) (colors : Colors) : m Outcome := do
  Journal.record .started
  match Request.ofArguments arguments with
  | .error e => return .refused e
  | .ok .help =>
    let _ ← Console.print (helpMessage.shown colors.messages)
    return .succeeded
  | .ok .version =>
    let _ ← Console.print versionText
    return .succeeded
  | .ok (.split invocation) =>
    match ← invocation.run colors.report with
    | .error e => return .failed e
    | .ok () =>
      Journal.record .completed
      return .succeeded

end LogSplit
