import LogSplit.Tsv.Reader

/-!
# Writing a table

A record is written on a line of its own with tabs between the cells.  A cell with a tab, a
quote or a line end in it is put in quotes and its quotes are doubled; a record without cells,
or with a single empty one, is written as a pair of quotes, since an empty line would be no
record.

On its way to a destination the text passes through a buffer.  What is put into the buffer
comes in pieces of one byte, or two for a doubled quote and for the pair of an empty record;
a piece that does not fit makes the buffer pass on what it holds.  The rest is passed on at
the end.  A destination may take only so many bytes, and which of the two kinds of passing on
first goes beyond them decides how the failure is reported.
-/

set_option autoImplicit false

namespace LogSplit

namespace Tsv

/-! ## The written form -/

/-- A byte that a cell can hold only in quotes. -/
def isSpecial (b : UInt8) : Bool := b == tab || b == quote || isTerminator b

/-- The pieces of a cell. -/
def cellPieces (cell : Bytes) : List Bytes :=
  if cell.any isSpecial then
    [quote] :: (cell.map fun b => if b = quote then [quote, quote] else [b]) ++ [[quote]]
  else cell.map fun b => [b]

/-- The pieces of some cells, with tabs between. -/
def cellsPieces : List Bytes → List Bytes
  | [] => []
  | [cell] => cellPieces cell
  | cell :: rest => cellPieces cell ++ [tab] :: cellsPieces rest

/-- The pieces of a record. -/
def recordPieces (cells : List Bytes) : List Bytes :=
  match cellsPieces cells with
  | [] => [[quote, quote], [lineFeed]]
  | pieces => pieces ++ [[lineFeed]]

/-- The pieces of records of text. -/
def pieces (records : List (List String)) : List Bytes :=
  records.flatMap fun cells => recordPieces (cells.map Utf8.encode)

/-- The written form of records. -/
def encodeRecords (records : List (List String)) : Bytes := (pieces records).flatten

/-- The records of a table: the header, then the rows. -/
def tableRecords (header : Header) (rows : List Row) : List (List String) :=
  header.names :: rows.map (·.cells)

/-- The written form of a header and rows. -/
def encode (header : Header) (rows : List Row) : Bytes := encodeRecords (tableRecords header rows)

/-! ## The buffer -/

/-- How many bytes the buffer holds. -/
def bufferSize : Nat := 8192

/-- What is passed on, block by block, when pieces are put into a buffer with `room` bytes
left that holds `held`, newest first.  The last block is what remains at the end. -/
def blocksFrom (room : Nat) (held : Bytes) : List Bytes → List Bytes
  | [] => [held.reverse]
  | piece :: rest =>
    if piece.length ≤ room then blocksFrom (room - piece.length) (piece.reverse ++ held) rest
    else held.reverse :: blocksFrom (bufferSize - piece.length) piece.reverse rest

/-- The blocks in which pieces are passed on. -/
def blocks (pieces : List Bytes) : List Bytes := blocksFrom bufferSize [] pieces

theorem flatten_blocksFrom (room : Nat) (held : Bytes) (pieces : List Bytes) :
    (blocksFrom room held pieces).flatten = held.reverse ++ pieces.flatten := by
  induction pieces generalizing room held with
  | nil => simp [blocksFrom]
  | cons piece rest ih =>
    unfold blocksFrom
    split <;> simp [ih]

/-- Nothing is lost or reordered in the buffer. -/
theorem flatten_blocks (pieces : List Bytes) : (blocks pieces).flatten = pieces.flatten := by
  simp [blocks, flatten_blocksFrom]

/-- What a destination has taken, and the failure that ended the writing. -/
structure Delivery where
  /-- The bytes taken. -/
  taken : Bytes
  /-- The failure, if the destination did not take everything. -/
  failure : Option TableError
  deriving DecidableEq, Repr

/-- Passes blocks on to a destination that takes `room` more bytes.  A failure at the last
block is one of completing the file. -/
def deliver (room : Nat) : List Bytes → Delivery
  | [] => ⟨[], none⟩
  | [last] =>
    if last.length ≤ room then ⟨last, none⟩ else ⟨last.take room, some (.file .limitReached)⟩
  | block :: rest =>
    if block.length ≤ room then
      let later := deliver (room - block.length) rest
      ⟨block ++ later.taken, later.failure⟩
    else ⟨block.take room, some (.transfer .limitReached)⟩

/-- Writes records to a destination that takes at most `limit` bytes in all. -/
def write (limit : Nat) (records : List (List String)) : Delivery :=
  deliver limit (blocks (pieces records))

end Tsv

end LogSplit
