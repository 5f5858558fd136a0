import LogSplit.File.Error
import LogSplit.Table
import LogSplit.Tsv.Record

/-!
# Reading a table

The first record of a log is the header and every other record a row.  Cells become text
here, record after record, and the first one that is not UTF-8 is reported with its place.
-/

set_option autoImplicit false

namespace LogSplit

namespace Tsv

/-- A cell that is not UTF-8. -/
structure EncodingError where
  /-- The number of the record, the header being record zero. -/
  record : Nat
  /-- Where the reading of the record began. -/
  origin : Position
  /-- The number of the first such cell in the record. -/
  column : Nat
  /-- How many bytes at its front are text. -/
  validLength : Nat
  deriving DecidableEq, Repr

/-- The message shown to the user. -/
def EncodingError.message (e : EncodingError) : String :=
  "CSV parse error: record " ++ toString e.record ++ " (line " ++ toString e.origin.line
    ++ ", field: " ++ toString e.column ++ ", byte: " ++ toString e.origin.byte
    ++ "): invalid utf-8: invalid UTF-8 in field " ++ toString e.column
    ++ " near byte index " ++ toString e.validLength

end Tsv

/-- Why a table could not be read or written. -/
inductive TableError where
  /-- The file could not be opened, created, completed or put in place. -/
  | file (cause : FileError)
  /-- The bytes of a record could not be read or written. -/
  | transfer (cause : FileError)
  /-- A cell is not text. -/
  | encoding (cause : Tsv.EncodingError)
  /-- There is no record at all. -/
  | missingHeader
  deriving DecidableEq, Repr

namespace TableError

/-- The message shown to the user. -/
def message : TableError → String
  | file cause => "IO error: " ++ cause.message
  | transfer cause => "TSV error: " ++ cause.message
  | encoding cause => "TSV error: " ++ cause.message
  | missingHeader => "Input has no header row"

/-- The messages of what caused the error, outermost first. -/
def causes : TableError → List String
  | file cause => [cause.message]
  | transfer cause => [cause.message]
  | encoding cause => [cause.message]
  | missingHeader => []

end TableError

namespace Tsv

/-- The cells of a record as text, counted from `column` on. -/
def decodeCells (record : Nat) (origin : Position) :
    (column : Nat) → List Bytes → Except EncodingError (List String)
  | _, [] => .ok []
  | column, cell :: rest =>
    match Utf8.decode cell with
    | .error validLength => .error ⟨record, origin, column, validLength⟩
    | .ok text => (decodeCells record origin (column + 1) rest).map (text :: ·)

/-- The records of a log as text, up to the first that is not. -/
structure Reading where
  /-- The records before any failure, each with its line. -/
  rows : List NumberedRow
  /-- The failure that ended the reading. -/
  failure : Option EncodingError
  deriving DecidableEq, Repr

namespace Reading

/-- The reading with one more record in front. -/
def cons (r : NumberedRow) (reading : Reading) : Reading :=
  ⟨r :: reading.rows, reading.failure⟩

/-- Turns records into text, counting them from `index` on. -/
def ofRecords (index : Nat) : List Record → Reading
  | [] => ⟨[], none⟩
  | r :: rest =>
    match decodeCells index r.origin 0 r.cells with
    | .error e => ⟨[], some e⟩
    | .ok cells => (ofRecords (index + 1) rest).cons ⟨r.origin.line, ⟨cells⟩⟩

/-- The reading of a log. -/
def ofBytes (bytes : Bytes) : Reading := ofRecords 0 (records bytes)

/-- The header, once its record has been read. -/
def header? (reading : Reading) : Option Header := reading.rows.head?.map fun r => ⟨r.row.cells⟩

/-- The table that was read. -/
def table (reading : Reading) : Except TableError Table :=
  match reading.failure, reading.rows with
  | some e, _ => .error (.encoding e)
  | none, [] => .error .missingHeader
  | none, header :: body => .ok ⟨⟨header.row.cells⟩, body⟩

end Reading

/-- The table in the bytes of a log. -/
def decode (bytes : Bytes) : Except TableError Table := (Reading.ofBytes bytes).table

end Tsv

end LogSplit
