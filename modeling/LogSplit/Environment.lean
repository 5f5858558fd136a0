import LogSplit.Text.Case

/-!
# The environment

The variables that a run looks at, and what they decide: which events are shown, and what is
painted.  Paint has to be allowed and to be of use.  It is allowed unless one of two variables
forbids it, and it is of use on a terminal, or wherever it is asked for.

The report and the messages about the command line follow rules that differ in detail: only the
report obeys the program's own variable, and an empty value counts for the report alone.
-/

set_option autoImplicit false

namespace LogSplit

/-- The values of variables; a variable may not be set. -/
structure Environment where
  /-- Forbids paint. -/
  noColor : Option String
  /-- Forbids paint in the report if it is `0` or `false`. -/
  ownColor : Option String
  /-- Says with `0` that a terminal shows no paint. -/
  terminalColor : Option String
  /-- Asks for paint; for the report not if it is `0`. -/
  forcedColor : Option String
  /-- Which events are shown. -/
  journal : Option String
  deriving DecidableEq, Repr

namespace Environment

/-- No variable is set. -/
def empty : Environment := ⟨none, none, none, none, none⟩

/-- A value that stands for no. -/
def isNo (value : String) : Bool := value == "0" || Text.sameIgnoringCase value "false"

/-- Whether paint is allowed in a report. -/
def allowsColor (e : Environment) : Bool := e.noColor.isNone && !e.ownColor.any isNo

/-- Whether paint is of use in a report, where the output may be a terminal. -/
def showsColor (e : Environment) (terminal : Bool) : Bool :=
  e.forcedColor.any (· ≠ "0")
    || (e.noColor.isNone && e.terminalColor.all (· ≠ "0") && terminal)

/-- Whether a report is painted. -/
def paintsReport (e : Environment) (terminal : Bool) : Bool :=
  e.allowsColor && e.showsColor terminal

/-- Whether messages about the command line are painted. -/
def paintsMessages (e : Environment) (terminal : Bool) : Bool :=
  !e.noColor.any (· ≠ "")
    && (e.forcedColor.any (· ≠ "") || (e.terminalColor.all (· ≠ "0") && terminal))

end Environment

end LogSplit
