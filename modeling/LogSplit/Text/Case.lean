import LogSplit.Text.Utf8

/-!
# Upper and lower case

Comparison of short texts, and of names, without regard to the case of their ASCII letters.
-/

set_option autoImplicit false

namespace LogSplit.Text

/-- The text with every upper case ASCII letter as its lower case one. -/
def lower (text : String) : String := String.ofList (text.toList.map Char.toLower)

/-- Whether two texts are the same but for the case of ASCII letters. -/
def sameIgnoringCase (x y : String) : Bool := lower x == lower y

/-- An upper case ASCII letter as its lower case one, and any other byte as it is. -/
def lowerByte (b : UInt8) : UInt8 := if 65 ≤ b.toNat ∧ b.toNat ≤ 90 then b + 32 else b

/-- Whether two runs of bytes are the same but for the case of ASCII letters. -/
def sameBytesIgnoringCase (x y : Bytes) : Bool := x.map lowerByte == y.map lowerByte

end LogSplit.Text
