import LogSplit.Text.Utf8

/-!
# Records of a tab-delimited log

A log is cut into records and cells by a machine that looks at one byte after the other.
Cells are separated by tabs and records end at a line feed or a carriage return.  A cell that
begins with a double quote extends to the matching quote, through tabs and line ends, and a
doubled quote in it stands for one; behind the closing quote and in a cell that does not begin
with one, quotes are ordinary bytes.  Empty lines are no records.  A cell that is still
quoted when the log ends is closed there.

`Phase.next` is the whole table of the machine.  The rest is book-keeping: which bytes belong
to which cell, and at which byte and line the reading of each record began.  A record is
attributed to the line on which its reading began, directly behind the byte that ended the
record before it.  Empty lines in front of a record do not count towards that line, and
neither does the line feed of a preceding carriage return and line feed.
-/

set_option autoImplicit false

namespace LogSplit

namespace Tsv

/-- The byte between two cells. -/
def tab : UInt8 := 9

/-- The line feed. -/
def lineFeed : UInt8 := 10

/-- The carriage return. -/
def carriageReturn : UInt8 := 13

/-- The double quote. -/
def quote : UInt8 := 34

/-- A byte that ends a record. -/
def isTerminator (b : UInt8) : Bool := b == lineFeed || b == carriageReturn

/-- The three bytes that may mark the start of a text in UTF-8. -/
def byteOrderMark : Bytes := [0xEF, 0xBB, 0xBF]

/-! ## The machine -/

/-- Where the machine stands. -/
inductive Phase where
  /-- Before the first byte of a record. -/
  | recordStart
  /-- Before the first byte of a cell. -/
  | cellStart
  /-- In a cell that is not quoted. -/
  | bare
  /-- Between the quotes of a cell. -/
  | quoted
  /-- Behind a quote in a quoted cell: the closing one, or the first of a doubled one. -/
  | quoteSeen
  deriving DecidableEq, Repr

/-- What becomes of a byte. -/
inductive Effect where
  /-- It is dropped. -/
  | drop
  /-- It belongs to the open cell. -/
  | keep
  /-- It ends the open cell. -/
  | endCell
  /-- It ends the open cell and the record. -/
  | endRecord
  deriving DecidableEq, Repr

namespace Phase

/-- The step at a byte outside quotes and not at the start of a cell. -/
def nextBare (b : UInt8) : Phase × Effect :=
  if b = tab then (cellStart, .endCell)
  else if isTerminator b then (recordStart, .endRecord)
  else (bare, .keep)

/-- The step at the first byte of a cell. -/
def nextCell (b : UInt8) : Phase × Effect :=
  if b = quote then (quoted, .drop) else nextBare b

/-- The phase behind a byte, and what becomes of the byte. -/
def next : Phase → UInt8 → Phase × Effect
  | recordStart, b => if isTerminator b then (recordStart, .drop) else nextCell b
  | cellStart, b => nextCell b
  | bare, b => nextBare b
  | quoted, b => if b = quote then (quoteSeen, .drop) else (quoted, .keep)
  | quoteSeen, b => if b = quote then (quoted, .keep) else nextBare b

end Phase

/-! ## Positions and records -/

/-- A place in a log: the number of bytes before it, and its line, from one. -/
structure Position where
  /-- The number of bytes before this place. -/
  byte : Nat
  /-- One more than the number of line feeds before this place. -/
  line : Nat
  deriving DecidableEq, Repr

/-- The place behind a byte. -/
def Position.advance (p : Position) (b : UInt8) : Position :=
  ⟨p.byte + 1, if b = lineFeed then p.line + 1 else p.line⟩

/-- The cells of a record, as bytes, and where its reading began. -/
structure Record where
  /-- The place directly behind the record before. -/
  origin : Position
  /-- The bytes of each cell, without quotes. -/
  cells : List Bytes
  deriving DecidableEq, Repr

/-- The machine in the middle of a log. -/
structure Scan where
  /-- Where the machine stands. -/
  phase : Phase
  /-- The bytes of the open cell, newest first. -/
  cell : Bytes
  /-- The closed cells of the open record, newest first. -/
  cells : List Bytes
  /-- Where the reading of the open record began. -/
  origin : Position
  /-- The place of the next byte. -/
  here : Position
  /-- The closed records, newest first. -/
  records : List Record
  deriving DecidableEq, Repr

namespace Scan

/-- The record that ends with the open cell. -/
def openRecord (s : Scan) : Record := ⟨s.origin, (s.cell.reverse :: s.cells).reverse⟩

/-- The machine behind one more byte. -/
def step (s : Scan) (b : UInt8) : Scan :=
  let here := s.here.advance b
  let (phase, effect) := s.phase.next b
  match effect with
  | .drop => { s with phase, here }
  | .keep => { s with phase, here, cell := b :: s.cell }
  | .endCell => { s with phase, here, cell := [], cells := s.cell.reverse :: s.cells }
  | .endRecord =>
    { phase, here, cell := [], cells := [], origin := here, records := s.openRecord :: s.records }

/-- The records when the log ends here: an open record ends with the log. -/
def finish (s : Scan) : List Record :=
  if s.phase = .recordStart then s.records.reverse else (s.openRecord :: s.records).reverse

/-- The machine at a place behind `skipped` bytes that belong to no record. -/
def start (skipped : Nat) : Scan :=
  ⟨.recordStart, [], [], ⟨0, 1⟩, ⟨skipped, 1⟩, []⟩

/-- The machine behind some bytes. -/
def steps (s : Scan) (bytes : Bytes) : Scan := bytes.foldl step s

theorem steps_append (s : Scan) (xs ys : Bytes) : s.steps (xs ++ ys) = (s.steps xs).steps ys :=
  List.foldl_append

end Scan

/-- The machine behind a whole log, whose byte order mark belongs to no record. -/
def scan (bytes : Bytes) : Scan :=
  if bytes.take 3 = byteOrderMark then (Scan.start 3).steps (bytes.drop 3)
  else (Scan.start 0).steps bytes

/-- The records of a log. -/
def records (bytes : Bytes) : List Record := (scan bytes).finish

end Tsv

end LogSplit
