import LogSplit.Number.Numeral
import LogSplit.Yaml.Place

/-!
# Tags and directives

A tag says what a node is.  It is written in full between angle brackets, or as a handle, which
stands for the first part of a tag, and the rest of it.  Directives in front of a document say
which version it is written in and what handles stand for.

A tag is made of certain ASCII characters.  Others are written as escapes, each of which stands
for one byte; here such a byte is the character of its number.  What stands behind a byte zero
does not count.
-/

set_option autoImplicit false

namespace LogSplit.Yaml

/-- A tag as it is written. -/
structure WrittenTag where
  /-- What stands for the first part; nothing if the tag is written in full. -/
  handle : String
  /-- The rest. -/
  suffix : String
  deriving DecidableEq, Repr

/-! ## Reading the parts of a tag -/

/-- A character that stands for itself in a tag; between brackets there are more of them. -/
def isTagChar (inBrackets : Bool) (c : Char) : Bool :=
  isNameChar c
    || [';', '/', '?', ':', '@', '&', '=', '+', '$', '.', '!', '~', '*', '\'', '(', ')'].contains c
    || (inBrackets && [',', '[', ']'].contains c)

/-- How many bytes follow the first byte of a character. -/
def followers? (byte : Nat) : Option Nat :=
  if byte < 0x80 then some 0
  else if byte / 0x20 = 6 then some 1
  else if byte / 0x10 = 14 then some 2
  else if byte / 0x08 = 30 then some 3
  else none

/-- How many bytes of a character are missing behind an escaped one, if `missing` were missing
in front of it. -/
def missingBehind? (missing byte : Nat) : Option Nat :=
  match missing with
  | 0 => followers? byte
  | missing + 1 => if byte / 0x40 = 2 then some missing else none

/-- Reads the characters of a tag and returns them with what follows; `missing` bytes of a
character have to be escaped in front. -/
def tagChars? (inBrackets : Bool) :
    (missing : Nat) → List Char → Option (List Char × List Char)
  | missing, '%' :: high :: low :: rest => do
    let byte := 16 * (← hexValue? high) + (← hexValue? low)
    let (text, rest) ← tagChars? inBrackets (← missingBehind? missing byte) rest
    some (Char.ofNat byte :: text, rest)
  | 0, c :: rest =>
    if c = '%' then none
    else if isTagChar inBrackets c then do
      let (text, rest) ← tagChars? inBrackets 0 rest
      some (c :: text, rest)
    else some ([], c :: rest)
  | 0, [] => some ([], [])
  | _ + 1, _ => none

/-- The text of some characters up to a byte zero. -/
def tagText (cs : List Char) : String := String.ofList (cs.takeWhile (· ≠ '\x00'))

/-- Reads a part of a tag that is not empty. -/
def tagPart? (inBrackets : Bool) (cs : List Char) : Option (String × List Char) :=
  match tagChars? inBrackets 0 cs with
  | some (c :: text, rest) => some (tagText (c :: text), rest)
  | _ => none

/-- Reads a tag behind its exclamation mark and returns it with what follows.  A lone mark is a
tag of its own. -/
def WrittenTag.read? (cs : List Char) : Option (WrittenTag × List Char) :=
  match cs with
  | '<' :: rest =>
    match tagPart? true rest with
    | some (tag, '>' :: rest) => some (⟨"", tag⟩, rest)
    | _ => none
  | _ =>
    let name := cs.takeWhile isNameChar
    match cs.drop name.length with
    | '!' :: rest => do
      let (suffix, rest) ← tagPart? false rest
      some (⟨"!" ++ String.ofList name ++ "!", suffix⟩, rest)
    | rest => do
      let (more, rest) ← tagChars? false 0 rest
      let suffix := tagText (name ++ more)
      some (if suffix = "" then ⟨"", "!"⟩ else ⟨"!", suffix⟩, rest)

/-! ## Directives -/

/-- What is said in front of a document. -/
inductive Directive where
  /-- The version. -/
  | version (major minor : Nat)
  /-- A handle and what it stands for. -/
  | handle (handle stands : String)
  deriving DecidableEq, Repr

/-- Reads a number of at most nine digits. -/
def number? (cs : List Char) : Option (Nat × List Char) :=
  let digits := cs.takeWhile Char.isDigit
  if digits.isEmpty || 9 < digits.length then none
  else some (digitsValue digits, cs.drop digits.length)

/-- Reads the version that a directive names. -/
def version? (cs : List Char) : Option (Directive × List Char) := do
  let (major, rest) ← number? (cs.dropWhile isBlank)
  match rest with
  | '.' :: rest =>
    let (minor, rest) ← number? rest
    some (.version major minor, rest)
  | _ => none

/-- Reads a handle with its exclamation marks. -/
def handle? (cs : List Char) : Option (String × List Char) :=
  match cs with
  | '!' :: rest =>
    let name := rest.takeWhile isNameChar
    match rest.drop name.length with
    | '!' :: rest => some ("!" ++ String.ofList name ++ "!", rest)
    | rest => if name.isEmpty then some ("!", rest) else none
  | _ => none

/-- Reads a handle and what it stands for. -/
def handleMeaning? (cs : List Char) : Option (Directive × List Char) := do
  let (handle, rest) ← handle? (cs.dropWhile isBlank)
  if !rest.head?.any isBlank then none else
  let (stands, rest) ← tagPart? true (rest.dropWhile isBlank)
  if atBlank rest then some (.handle handle stands, rest) else none

/-- Reads a directive behind its percent sign and returns it with the lines that follow. -/
def Directive.read? (cs : List Char) : Option (Directive × List Char) := do
  let name := cs.takeWhile isNameChar
  let rest := cs.drop name.length
  if !atBlank rest then none else
  let (directive, rest) ← match String.ofList name with
    | "YAML" => version? rest
    | "TAG" => handleMeaning? rest
    | _ => none
  some (directive, ← restOfLine? rest)

/-! ## What tags stand for -/

/-- What is known about a document before it begins. -/
structure Preamble where
  /-- Whether the version is known. -/
  versioned : Bool
  /-- What handles stand for. -/
  handles : List (String × String)
  deriving DecidableEq, Repr

namespace Preamble

/-- Nothing is known. -/
def empty : Preamble := ⟨false, []⟩

/-- What is known after one more directive.  None may contradict another, and the version is one
of two. -/
def add? (p : Preamble) : Directive → Option Preamble
  | .version major minor =>
    if p.versioned || major ≠ 1 || (minor ≠ 1 && minor ≠ 2) then none
    else some { p with versioned := true }
  | .handle handle stands =>
    if (p.handles.lookup handle).isSome then none
    else some { p with handles := (handle, stands) :: p.handles }

/-- What every tag of the standard starts with. -/
def standardTag (name : String) : String := "tag:yaml.org,2002:" ++ name

/-- What a handle stands for if no directive says so. -/
def standardHandle? (handle : String) : Option String :=
  match handle with
  | "!" => some "!"
  | "!!" => some (standardTag "")
  | _ => none

/-- The full tag of a written one, if its handle is known. -/
def tag? (p : Preamble) (tag : WrittenTag) : Option String :=
  if tag.handle = "" then some tag.suffix
  else (p.handles.lookup tag.handle <|> standardHandle? tag.handle).map (· ++ tag.suffix)

end Preamble

end LogSplit.Yaml
