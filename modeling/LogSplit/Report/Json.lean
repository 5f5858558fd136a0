import LogSplit.Split

/-!
# Reports as JSON

A report is written as one JSON document: an object over several lines, two spaces deeper for
every level, the members in a fixed order, and nothing between the brackets of an empty list.
In a string the quote, the backslash and every character below the space are escaped, and
everything else stands for itself.

A path is written as its text.  The document is written from the front on and not looked through
before, so at a path without a text the writing stops, and what has been written stays.
-/

set_option autoImplicit false

namespace LogSplit

/-- The JSON values that reports are made of. -/
inductive Json where
  /-- A whole number. -/
  | number (n : Nat)
  /-- A text. -/
  | text (s : String)
  /-- A path. -/
  | path (p : Path)
  /-- A list. -/
  | list (items : List Json)
  /-- An object, its members in order. -/
  | object (members : List (String × Json))

/-- What comes of writing: the characters that are written, and whether they are all. -/
structure Draft where
  /-- The characters. -/
  chars : List Char
  /-- Whether nothing is missing. -/
  complete : Bool
  deriving DecidableEq, Repr

namespace Draft

/-- Characters that can be written. -/
def all (chars : List Char) : Draft := ⟨chars, true⟩

/-- Something that cannot be written. -/
def stopped : Draft := ⟨[], false⟩

/-- Nothing is written behind a draft that is not complete. -/
instance : Append Draft where
  append front back :=
    if front.complete then ⟨front.chars ++ back.chars, back.complete⟩ else front

/-- The text that is written. -/
def text (d : Draft) : String := String.ofList d.chars

end Draft

namespace Json

/-! ## Strings -/

/-- A digit of a number in base sixteen. -/
def hexDigit (n : Nat) : Char := if n < 10 then Char.ofNat (48 + n) else Char.ofNat (87 + n)

/-- A character as it stands in a string. -/
def escapeChar (c : Char) : List Char :=
  if c = '"' then ['\\', '"']
  else if c = '\\' then ['\\', '\\']
  else if c = '\x08' then ['\\', 'b']
  else if c = '\x0c' then ['\\', 'f']
  else if c = '\n' then ['\\', 'n']
  else if c = '\r' then ['\\', 'r']
  else if c = '\t' then ['\\', 't']
  else if c.toNat < 0x20 then
    ['\\', 'u', '0', '0', hexDigit (c.toNat / 16), hexDigit (c.toNat % 16)]
  else [c]

/-- A string with its quotes. -/
def string (s : String) : List Char := '"' :: s.toList.flatMap escapeChar ++ ['"']

/-! ## Documents -/

/-- A line end and the blanks at the front of a line of the given depth. -/
def newline (depth : Nat) : List Char := '\n' :: List.replicate (2 * depth) ' '

mutual

/-- A value that starts on a line of the given depth. -/
def render (depth : Nat) : Json → Draft
  | number n => .all (Nat.toDigits 10 n)
  | text s => .all (string s)
  | path p =>
    match p.text? with
    | some s => .all (string s)
    | none => .stopped
  | list [] => .all ['[', ']']
  | list (item :: rest) =>
    .all ('[' :: newline (depth + 1)) ++ render (depth + 1) item ++ renderItems (depth + 1) rest
      ++ .all (newline depth ++ [']'])
  | object [] => .all ['\x7b', '\x7d']
  | object ((name, value) :: rest) =>
    .all ('\x7b' :: newline (depth + 1) ++ string name ++ [':', ' ']) ++ render (depth + 1) value
      ++ renderMembers (depth + 1) rest ++ .all (newline depth ++ ['\x7d'])

/-- The items behind the first. -/
def renderItems (depth : Nat) : List Json → Draft
  | [] => .all []
  | item :: rest => .all (',' :: newline depth) ++ render depth item ++ renderItems depth rest

/-- The members behind the first. -/
def renderMembers (depth : Nat) : List (String × Json) → Draft
  | [] => .all []
  | (name, value) :: rest =>
    .all (',' :: newline depth ++ string name ++ [':', ' ']) ++ render depth value
      ++ renderMembers depth rest

end

/-- A document on lines of its own. -/
def document (j : Json) : Draft := j.render 0 ++ .all ['\n']

end Json

/-- A segment as a JSON value. -/
def SegmentReport.toJson (s : SegmentReport) : Json :=
  .object [("index", .number s.index), ("path", .path s.path),
    ("start_line", .number s.startLine), ("end_line", .number s.endLine), ("rows", .number s.rows)]

/-- A report as a JSON value. -/
def Report.toJson (r : Report) : Json :=
  .object [("input", .path r.input), ("output_dir", .path r.outputDir),
    ("prefix", .text r.stem), ("header", .list (r.header.map .text)),
    ("conditions", .list (r.conditions.map .text)), ("or_connectives", .number r.orConnectives),
    ("rows", .number r.rows), ("matched_rows", .number r.matchedRows),
    ("removed_files", .number r.removedFiles),
    ("segments", .list (r.segments.map SegmentReport.toJson))]

/-- A report as a JSON document. -/
def Report.json (r : Report) : Draft := r.toJson.document

end LogSplit
