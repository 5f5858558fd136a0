/-!
# Tables

A table is a header and rows.  Rows need not be as long as the header: what reads a cell has
to deal with a row that is too short.  Every row carries the line of the source it came from,
so there is one line number for each row by construction.
-/

set_option autoImplicit false

namespace LogSplit

/-- The names of the columns, in order. -/
structure Header where
  /-- The names, in column order. -/
  names : List String
  deriving DecidableEq, Repr

namespace Header

/-- The first column with the given name. -/
def indexOf? (h : Header) (name : String) : Option Nat := h.names.findIdx? (· == name)

/-- The number of columns. -/
def length (h : Header) : Nat := h.names.length

/-- Walks over the names with the ones seen once (`seen`) and the ones already listed
(`listed`), and lists a name when it is met for the second time. -/
def duplicatesFrom (seen listed : List String) : List String → List String
  | [] => []
  | name :: rest =>
    if name ∈ seen then
      if name ∈ listed then duplicatesFrom seen listed rest
      else name :: duplicatesFrom seen (name :: listed) rest
    else duplicatesFrom (name :: seen) listed rest

/-- The names that more than one column has, each once, in the order of their second
occurrence. -/
def duplicates (h : Header) : List String := duplicatesFrom [] [] h.names

end Header

/-- The cells of one row. -/
structure Row where
  /-- The cells, in column order. -/
  cells : List String
  deriving DecidableEq, Repr

namespace Row

/-- The cell in a column, if the row is long enough. -/
def get? (r : Row) (column : Nat) : Option String := r.cells[column]?

/-- The number of cells. -/
def length (r : Row) : Nat := r.cells.length

end Row

/-- A row and the line of the source it is attributed to. -/
structure NumberedRow where
  /-- The line of the source, from one. -/
  line : Nat
  /-- The cells. -/
  row : Row
  deriving DecidableEq, Repr

/-- A header and the rows below it. -/
structure Table where
  /-- The names of the columns. -/
  header : Header
  /-- The rows, in order. -/
  body : List NumberedRow
  deriving DecidableEq, Repr

namespace Table

/-- The line a row has when the header is on line one and every row on a line of its own. -/
def defaultLine (position : Nat) : Nat := position + 2

/-- Numbers rows from a given position on. -/
def numberFrom : Nat → List Row → List NumberedRow
  | _, [] => []
  | position, r :: rest => ⟨defaultLine position, r⟩ :: numberFrom (position + 1) rest

/-- The table whose rows follow the header directly, one to a line. -/
def ofRows (header : Header) (rows : List Row) : Table := ⟨header, numberFrom 0 rows⟩

/-- The rows without their lines. -/
def rows (t : Table) : List Row := t.body.map (·.row)

/-- The source line of the row at a position; past the end, the line it would have by
default. -/
def lineNumber (t : Table) (position : Nat) : Nat :=
  match t.body[position]? with
  | some r => r.line
  | none => defaultLine position

theorem length_rows (t : Table) : t.rows.length = t.body.length := List.length_map _

theorem lineNumber_of_getElem? {t : Table} {i : Nat} {r : NumberedRow} (h : t.body[i]? = some r) :
    t.lineNumber i = r.line := by
  rw [lineNumber, h]

theorem map_row_numberFrom (position : Nat) (rows : List Row) :
    (numberFrom position rows).map (·.row) = rows := by
  induction rows generalizing position with
  | nil => rfl
  | cons r rest ih => simp [numberFrom, ih]

theorem rows_ofRows (header : Header) (rows : List Row) : (ofRows header rows).rows = rows :=
  map_row_numberFrom 0 rows

end Table

end LogSplit
