import LogSplit.Text.Invisible
import LogSplit.Text.Utf8

/-!
# Text in quotes

How a log line shows a text in which blanks or invisible characters may matter: in double
quotes, with a backslash before a quote or a backslash, short escapes for the common controls,
and the number of any other character that would not be seen on its own.  A path is shown in the
same way, with the number of each byte that belongs to no character.
-/

set_option autoImplicit false

namespace LogSplit.Text

/-- A character as it stands between quotes. -/
def escapeChar (c : Char) : List Char :=
  if c = '"' ∨ c = '\\' then ['\\', c]
  else if c = '\x00' then ['\\', '0']
  else if c = '\t' then ['\\', 't']
  else if c = '\n' then ['\\', 'n']
  else if c = '\r' then ['\\', 'r']
  else if isInvisible c then
    '\\' :: 'u' :: '\x7b' :: Nat.toDigits 16 c.toNat ++ ['\x7d']
  else [c]

/-- A text in quotes. -/
def quoted (text : String) : String :=
  String.ofList ('"' :: text.toList.flatMap escapeChar ++ ['"'])

/-- A digit of a number in base sixteen, in upper case. -/
def upperHexDigit (n : Nat) : Char := n.digitChar.toUpper

/-- A byte by its number. -/
def escapeByte (b : UInt8) : List Char :=
  ['\\', 'x', upperHexDigit (b.toNat / 16), upperHexDigit (b.toNat % 16)]

/-- A piece of some bytes as it stands between quotes. -/
def escapePiece : Utf8.Piece → List Char
  | .char c => escapeChar c
  | .stray bytes => bytes.flatMap escapeByte

/-- Bytes in quotes. -/
def quotedBytes (bytes : Bytes) : String :=
  String.ofList ('"' :: (Utf8.pieces bytes).flatMap escapePiece ++ ['"'])

end LogSplit.Text
