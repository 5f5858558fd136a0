import LogSplit.Number.Numeral

/-!
# Reading JSON

A reader of standard JSON (RFC 8259), independent of the way in which reports are written.  It
knows every form of the standard: the four kinds of white space, the three words, numbers with
sign, fraction and power of ten, every escape in a string, and values nested to any depth.

A text is cut into tokens first (`tokens?`).  The tokens are then taken one by one by a machine,
`Place.take?`, that knows what may stand at the place it has come to and which lists and objects
are open around it.

A number is kept as the decimal that is written, without any rounding.  The members of an object
are kept in order.  A string may name a character by its UTF-16 code units; half of a pair that
stands alone names no character, and such a string is refused.
-/

set_option autoImplicit false

namespace LogSplit

namespace StandardJson

/-- A value that a JSON document can have. -/
inductive Value where
  /-- The word `null`. -/
  | null
  /-- One of the words `true` and `false`. -/
  | bool (b : Bool)
  /-- A number. -/
  | number (d : Decimal)
  /-- A string. -/
  | text (s : String)
  /-- An array. -/
  | list (items : List Value)
  /-- An object, its members in order. -/
  | object (members : List (String × Value))

/-! ## Strings -/

/-- What one character or one escape of a string stands for. -/
inductive Piece where
  /-- A character. -/
  | char (c : Char)
  /-- A UTF-16 code unit. -/
  | unit (n : Nat)
  deriving DecidableEq, Repr

/-- The value of a digit in base sixteen. -/
def hexValue? (c : Char) : Option Nat :=
  if c.isDigit then some (c.toNat - 48)
  else if 97 ≤ c.toNat ∧ c.toNat ≤ 102 then some (c.toNat - 87)
  else if 65 ≤ c.toNat ∧ c.toNat ≤ 70 then some (c.toNat - 55)
  else none

/-- The value of some digits in base sixteen, most significant first. -/
def hexNumber? (ds : List Char) : Option Nat :=
  ds.foldlM (fun n d => (hexValue? d).map fun value => 16 * n + value) 0

/-- The character that a letter behind a backslash stands for. -/
def escaped? (c : Char) : Option Char :=
  [('"', '"'), ('\\', '\\'), ('/', '/'), ('b', '\x08'), ('f', '\x0c'), ('n', '\n'), ('r', '\r'),
    ('t', '\t')].lookup c

/-- What stands behind a backslash, and the rest. -/
def escape? : List Char → Option (Piece × List Char)
  | [] => none
  | c :: cs =>
    if c = 'u' then
      if cs.length < 4 then none else (hexNumber? (cs.take 4)).map fun n => (.unit n, cs.drop 4)
    else (escaped? c).map fun e => (.char e, cs)

/-- The first piece of a string, and the rest.  The quote that ends the string is no piece, and
neither is a control character. -/
def piece? : List Char → Option (Piece × List Char)
  | [] => none
  | c :: cs =>
    if c = '\\' then escape? cs
    else if c = '"' ∨ c.toNat < 0x20 then none
    else some (.char c, cs)

theorem length_escape?_lt {cs rest : List Char} {p : Piece} (h : escape? cs = some (p, rest)) :
    rest.length < cs.length := by
  cases cs with
  | nil => cases h
  | cons c cs =>
    rw [escape?] at h
    split at h
    · split at h
      · cases h
      · obtain ⟨n, -, hn⟩ := Option.map_eq_some_iff.1 h
        cases hn
        rw [List.length_drop, List.length_cons]
        exact Nat.lt_succ_of_le (Nat.sub_le _ _)
    · obtain ⟨e, -, he⟩ := Option.map_eq_some_iff.1 h
      cases he
      exact Nat.lt_succ_self _

theorem length_piece?_lt {cs rest : List Char} {p : Piece} (h : piece? cs = some (p, rest)) :
    rest.length < cs.length := by
  cases cs with
  | nil => cases h
  | cons c cs =>
    rw [piece?] at h
    split at h
    · exact Nat.lt_succ_of_lt (length_escape?_lt h)
    · split at h
      · cases h
      · cases h
        exact Nat.lt_succ_self _

/-- The pieces of a string up to the quote that ends it, and what stands behind the quote. -/
def pieces? (cs : List Char) : Option (List Piece × List Char) :=
  match cs with
  | [] => none
  | c :: tail =>
    if c = '"' then some ([], tail)
    else
      match _ : piece? (c :: tail) with
      | none => none
      | some (p, rest) => (pieces? rest).map fun (ps, behind) => (p :: ps, behind)
termination_by cs.length
decreasing_by exact length_piece?_lt (by assumption)

/-- A code unit that is the first half of a pair. -/
def isHigh (n : Nat) : Bool := 0xD800 ≤ n && n < 0xDC00

/-- A code unit that is the second half of a pair. -/
def isLow (n : Nat) : Bool := 0xDC00 ≤ n && n < 0xE000

/-- The characters that some pieces stand for. -/
def joined? : List Piece → Option (List Char)
  | [] => some []
  | .char c :: ps => (joined? ps).map (c :: ·)
  | .unit high :: .unit low :: ps =>
    if isHigh high && isLow low then
      (joined? ps).map (Char.ofNat (0x10000 + (high - 0xD800) * 0x400 + (low - 0xDC00)) :: ·)
    else if isHigh high || isLow high then none
    else (joined? (.unit low :: ps)).map (Char.ofNat high :: ·)
  | .unit n :: ps =>
    if isHigh n || isLow n then none else (joined? ps).map (Char.ofNat n :: ·)

/-- The string whose first quote has been read, and what stands behind its last one. -/
def text? (cs : List Char) : Option (String × List Char) :=
  match pieces? cs with
  | none => none
  | some (ps, rest) => (joined? ps).map fun text => (String.ofList text, rest)

theorem length_pieces?_lt {cs rest : List Char} {ps : List Piece}
    (h : pieces? cs = some (ps, rest)) : rest.length < cs.length := by
  fun_induction pieces? cs generalizing ps with
  | case1 => cases h
  | case2 tail =>
    cases h
    exact Nat.lt_succ_self _
  | case3 => cases h
  | case4 c tail hquote p after hpiece ih =>
    obtain ⟨⟨ps', behind⟩, hbehind, heq⟩ := Option.map_eq_some_iff.1 h
    cases heq
    exact Nat.lt_trans (ih hbehind) (length_piece?_lt hpiece)

theorem length_text?_lt {cs rest : List Char} {s : String} (h : text? cs = some (s, rest)) :
    rest.length < cs.length := by
  rw [text?] at h
  split at h
  · cases h
  · rename_i ps after hpieces
    obtain ⟨chars, -, heq⟩ := Option.map_eq_some_iff.1 h
    cases heq
    exact length_pieces?_lt hpieces

/-! ## Words -/

/-- A character of a word or of a number. -/
def isWordChar (c : Char) : Bool := c.isAlphanum || c ∈ ['+', '-', '.']

/-- A minus sign at the front of a number, and the rest; there is no plus sign. -/
def splitMinus : List Char → Bool × List Char
  | '-' :: cs => (true, cs)
  | cs => (false, cs)

/-- What the standard asks of the digits of a number, which has no sign: one in front of the point
at least, no zero in front of another digit, and one behind the point if there is a point. -/
def isPlainDecimal (cs : List Char) : Bool :=
  let whole := cs.takeWhile Char.isDigit
  let behind := cs.dropWhile Char.isDigit
  !whole.isEmpty && (whole = ['0'] || whole.head? ≠ some '0') &&
    (behind.head? ≠ some '.' || behind.tail.head?.any Char.isDigit)

/-- The number that a word spells. -/
def number? (cs : List Char) : Option Decimal :=
  let (negative, digits) := splitMinus cs
  if isPlainDecimal digits then Numeral.decimal? negative digits else none

/-- The value that a word spells. -/
def word? (cs : List Char) : Option Value :=
  if cs = ['n', 'u', 'l', 'l'] then some .null
  else if cs = ['t', 'r', 'u', 'e'] then some (.bool true)
  else if cs = ['f', 'a', 'l', 's', 'e'] then some (.bool false)
  else (number? cs).map .number

/-! ## Tokens -/

/-- A character that stands between values. -/
inductive Mark where
  /-- The beginning of an array. -/
  | listStart
  /-- The end of an array. -/
  | listEnd
  /-- The beginning of an object. -/
  | objectStart
  /-- The end of an object. -/
  | objectEnd
  /-- The colon behind a name. -/
  | colon
  /-- The comma between items or members. -/
  | comma
  deriving DecidableEq, Repr

/-- The character of a mark. -/
def Mark.char : Mark → Char
  | .listStart => '['
  | .listEnd => ']'
  | .objectStart => '\x7b'
  | .objectEnd => '\x7d'
  | .colon => ':'
  | .comma => ','

/-- The mark that a character is. -/
def Mark.ofChar? (c : Char) : Option Mark :=
  [listStart, listEnd, objectStart, objectEnd, colon, comma].find? fun m => m.char = c

/-- A part of a document. -/
inductive Token where
  /-- A mark. -/
  | mark (m : Mark)
  /-- A string, which is a value or a name. -/
  | text (s : String)
  /-- Any other value without parts. -/
  | word (v : Value)

/-- White space. -/
def isSpace (c : Char) : Bool := c ∈ [' ', '\t', '\n', '\r']

/-- The tokens of a text. -/
def tokens? (cs : List Char) : Option (List Token) :=
  match cs with
  | [] => some []
  | c :: tail =>
    if isSpace c then tokens? tail
    else if c = '"' then
      match _ : text? tail with
      | none => none
      | some (s, rest) => (tokens? rest).map (.text s :: ·)
    else if isWordChar c then
      match word? (c :: tail.takeWhile isWordChar) with
      | none => none
      | some v => (tokens? (tail.dropWhile isWordChar)).map (.word v :: ·)
    else
      match Mark.ofChar? c with
      | none => none
      | some m => (tokens? tail).map (.mark m :: ·)
termination_by cs.length
decreasing_by
  · exact Nat.lt_succ_self _
  · exact Nat.lt_succ_of_lt (length_text?_lt (by assumption))
  · exact Nat.lt_succ_of_le (List.dropWhile_suffix isWordChar).length_le
  · exact Nat.lt_succ_self _

/-! ## Values -/

/-- A list or an object that is open, with what has been read of it. -/
inductive Frame where
  /-- A list, and the items before the one that is read. -/
  | item (before : List Value)
  /-- An object, the members before the one that is read, and its name. -/
  | member (before : List (String × Value)) (name : String)

/-- How far a document has been read, and what is open around the place, innermost first. -/
inductive Place where
  /-- A value has to come. -/
  | value (up : List Frame)
  /-- Behind the beginning of an array. -/
  | listStart (up : List Frame)
  /-- Behind an item. -/
  | listNext (up : List Frame) (before : List Value)
  /-- Behind the beginning of an object. -/
  | objectStart (up : List Frame)
  /-- Behind the comma after a member: a name has to come. -/
  | nextName (up : List Frame) (before : List (String × Value))
  /-- Behind a name: a colon has to come. -/
  | colon (up : List Frame) (before : List (String × Value)) (name : String)
  /-- Behind a member. -/
  | objectNext (up : List Frame) (before : List (String × Value))
  /-- Behind the value of the document. -/
  | done (v : Value)

namespace Place

/-- Where a value that is complete leads. -/
def deliver (v : Value) : List Frame → Place
  | [] => .done v
  | .item before :: up => .listNext up (before ++ [v])
  | .member before name :: up => .objectNext up (before ++ [(name, v)])

/-- Takes the first token of a value. -/
def takeValue? (up : List Frame) : Token → Option Place
  | .text s => some (deliver (.text s) up)
  | .word v => some (deliver v up)
  | .mark .listStart => some (.listStart up)
  | .mark .objectStart => some (.objectStart up)
  | _ => none

/-- Takes a token. -/
def take? : Place → Token → Option Place
  | value up, t => takeValue? up t
  | listStart up, .mark .listEnd => some (deliver (.list []) up)
  | listStart up, t => takeValue? (.item [] :: up) t
  | listNext up before, .mark .comma => some (.value (.item before :: up))
  | listNext up before, .mark .listEnd => some (deliver (.list before) up)
  | objectStart up, .mark .objectEnd => some (deliver (.object []) up)
  | objectStart up, .text name => some (.colon up [] name)
  | nextName up before, .text name => some (.colon up before name)
  | colon up before name, .mark .colon => some (.value (.member before name :: up))
  | objectNext up before, .mark .comma => some (.nextName up before)
  | objectNext up before, .mark .objectEnd => some (deliver (.object before) up)
  | _, _ => none

end Place

/-- Reads on from a place. -/
def read? (place : Place) (cs : List Char) : Option Place :=
  (tokens? cs).bind fun ts => ts.foldlM Place.take? place

/-- The value of a document: one value with white space around it, and nothing else. -/
def decode? (document : String) : Option Value :=
  match read? (.value []) document.toList with
  | some (.done v) => some v
  | _ => none

example : (match decode? " [-2.50e3, \"\\u0041\\ud83d\\ude00\\/\", \x7b\"\": null\x7d ]\n" with
    | some (.list [.number d, .text s, .object [("", .null)]]) =>
      decide (d = ⟨true, 250, 1⟩ ∧ s = "A😀/")
    | _ => false) = true := by
  decide +kernel

/-- No comma behind the last item, and no half of a pair. -/
example : decode? "[1,]" = none ∧ decode? "\"\\ud83d\"" = none := by
  decide +kernel

end StandardJson

end LogSplit
