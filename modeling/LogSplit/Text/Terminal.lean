/-!
# What a terminal shows

A terminal takes some characters for commands: the controls, and the control sequences, which
begin with an escape and run on to a final character.  `visible` is a text without them, for a
reader that is no terminal.  Blanks and line ends stay wherever a terminal would obey them.

After an escape the terminal is in one phase or another of a sequence, and `Phase.next` says
what a character does there.  While characters show, the phase from before the first of them is
kept in mind: it was not ended if that first one was a line end inside a sequence, and the
sequence goes on behind the last one.
-/

set_option autoImplicit false

namespace LogSplit.Text

/-- How far a control sequence has come. -/
inductive Phase where
  /-- There is none. -/
  | ground
  /-- Behind an escape. -/
  | escape
  /-- Behind an escape and an intermediate character. -/
  | escapeIntermediate
  /-- At the start of a sequence with parameters. -/
  | entry
  /-- Among its parameters. -/
  | parameters
  /-- Among its intermediate characters. -/
  | intermediate
  /-- In a malformed one. -/
  | malformed
  /-- In a command to the system around the terminal. -/
  | system
  /-- At the start of a command to the device. -/
  | deviceEntry
  /-- Among its parameters. -/
  | deviceParameters
  /-- Among its intermediate characters. -/
  | deviceIntermediate
  /-- In a string of any content. -/
  | string
  deriving DecidableEq, Repr

/-- A blank or a line end among the controls. -/
def isSpacing (c : Char) : Bool := c == '\t' || c == '\n' || c == '\x0c' || c == '\r'

/-- A character that names parameters: a digit, a colon or a semicolon. -/
def isParameter (c : Char) : Bool := '0' ≤ c && c ≤ ';'

/-- A character that marks a private sequence. -/
def isPrivateMark (c : Char) : Bool := '<' ≤ c && c ≤ '?'

/-- A character that stands between the parameters and the end. -/
def isIntermediate (c : Char) : Bool := ' ' ≤ c && c ≤ '/'

/-- A character that ends a sequence. -/
def isFinal (c : Char) : Bool := '@' ≤ c && c ≤ '~'

/-- A character with a certain byte among its own ends a string. -/
def endsString (c : Char) : Bool := (String.utf8EncodeChar c).contains 0x9C

namespace Phase

/-- The phase behind a character, and whether the character shows. -/
def next (phase : Phase) (c : Char) : Phase × Bool :=
  if c = '\x1b' then (escape, false)
  else if c = '\x18' ∨ c = '\x1a' then (ground, false)
  else match phase with
  | ground => (ground, isSpacing c || (' ' ≤ c && c ≠ '\x7f'))
  | escape =>
    if isSpacing c then (escape, true)
    else if isIntermediate c then (escapeIntermediate, false)
    else if c = '[' then (entry, false)
    else if c = ']' then (system, false)
    else if c = 'P' then (deviceEntry, false)
    else if c = 'X' ∨ c = '^' ∨ c = '_' then (string, false)
    else if '0' ≤ c && c ≤ '~' then (ground, false)
    else (escape, false)
  | escapeIntermediate =>
    if '0' ≤ c && c ≤ '~' then (ground, false) else (escapeIntermediate, isSpacing c)
  | entry =>
    if isParameter c || isPrivateMark c then (parameters, false)
    else if isIntermediate c then (intermediate, false)
    else if isFinal c then (ground, false)
    else (entry, isSpacing c)
  | parameters =>
    if isPrivateMark c then (malformed, false)
    else if isIntermediate c then (intermediate, false)
    else if isFinal c then (ground, false)
    else (parameters, isSpacing c)
  | intermediate =>
    if isParameter c || isPrivateMark c then (malformed, false)
    else if isFinal c then (ground, false)
    else (intermediate, isSpacing c)
  | malformed => if isFinal c then (ground, false) else (malformed, isSpacing c)
  | system => if c = '\x07' then (ground, false) else (system, false)
  | deviceEntry =>
    if c = ':' ∨ isFinal c then (string, false)
    else if isIntermediate c then (deviceIntermediate, false)
    else if isParameter c || isPrivateMark c then (deviceParameters, false)
    else (deviceEntry, false)
  | deviceParameters =>
    if c = ':' ∨ isPrivateMark c ∨ isFinal c then (string, false)
    else if isIntermediate c then (deviceIntermediate, false)
    else (deviceParameters, false)
  | deviceIntermediate =>
    if isParameter c || isPrivateMark c || isFinal c then (string, false)
    else (deviceIntermediate, false)
  | string => if endsString c then (ground, false) else (string, false)

end Phase

/-- The characters that show from a phase on.  If `showing`, the last one did, and then the next
one does wherever it would show outside of a sequence. -/
def visibleFrom (phase : Phase) (showing : Bool) : List Char → List Char
  | [] => []
  | c :: cs =>
    if showing && (Phase.ground.next c).2 then
      c :: visibleFrom (if c.toNat < 0x80 then phase else .ground) true cs
    else
      let (phase, shows) := phase.next c
      if shows then c :: visibleFrom phase true cs else visibleFrom phase false cs

/-- The text as it shows. -/
def visible (text : String) : String := String.ofList (visibleFrom .ground false text.toList)

end LogSplit.Text
