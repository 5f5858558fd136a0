/-!
# Bytes and text

Cells are cut out of a log as bytes and become text afterwards.  `Utf8.decode` is that step;
where it fails it tells how many bytes at the front are whole characters, which is what the
reader's message quotes.

Names of files are bytes too, and nothing ever makes text of them but the need to show them.
`Utf8.pieces` is what there is to show: characters, and between them the bytes that belong to none.
-/

set_option autoImplicit false

namespace LogSplit

/-- A run of bytes. -/
abbrev Bytes := List UInt8

namespace Utf8

/-- The bytes of a text. -/
def encode (text : String) : Bytes := text.toByteArray.data.toList

/-- Advances over whole characters from `start` and returns where that ends. -/
def validEnd (bytes : ByteArray) (start : Nat) : Nat :=
  if start < bytes.size then
    match bytes.utf8DecodeChar? start with
    | some c => validEnd bytes (start + c.utf8Size)
    | none => start
  else start
termination_by bytes.size - start
decreasing_by have := c.utf8Size_pos; omega

/-- The text of some bytes, or the length of the longest front part that is text. -/
def decode (bytes : Bytes) : Except Nat String :=
  let array := ByteArray.mk bytes.toArray
  match String.fromUTF8? array with
  | some text => .ok text
  | none => .error (validEnd array 0)

/-- The bytes of a text decode to it. -/
theorem decode_encode (text : String) : decode (encode text) = .ok text := by
  have h : ByteArray.mk (encode text).toArray = text.toByteArray := by simp [encode]
  have hv : String.fromUTF8? text.toByteArray = some text := by
    simp [String.fromUTF8?, String.fromUTF8, text.isValidUTF8]
  simp only [decode, h, hv]

/-! ## Bytes that need not be text -/

/-- Bytes to be shown. -/
inductive Piece where
  /-- A character. -/
  | char (c : Char)
  /-- Bytes that begin a character and do not end it, or a byte that begins none. -/
  | stray (bytes : Bytes)
  deriving DecidableEq, Repr

/-- A byte that goes on with a character. -/
def isTail (b : UInt8) : Bool := 0x80 ≤ b.toNat && b.toNat ≤ 0xBF

/-- Whether a character of more than two bytes can begin with two bytes. -/
def beginsLong (first second : UInt8) : Bool :=
  let a := first.toNat
  let b := second.toNat
  if a == 0xE0 then 0xA0 ≤ b && b ≤ 0xBF
  else if a == 0xED then 0x80 ≤ b && b ≤ 0x9F
  else if a == 0xF0 then 0x90 ≤ b && b ≤ 0xBF
  else if a == 0xF4 then 0x80 ≤ b && b ≤ 0x8F
  else 0xE1 ≤ a && a ≤ 0xF3 && isTail second

/-- How many bytes are stray together where no character is in front. -/
def strayLength : Bytes → Nat
  | first :: second :: rest =>
    if !beginsLong first second then 1
    else if 0xF0 ≤ first.toNat && rest.head?.any isTail then 3
    else 2
  | _ => 1

theorem strayLength_pos (bytes : Bytes) : 0 < strayLength bytes := by
  unfold strayLength
  split
  · split
    · decide
    · split <;> decide
  · decide

/-- The character in front. -/
def front? (bytes : Bytes) : Option Char := (ByteArray.mk bytes.toArray).utf8DecodeChar? 0

/-- Cuts bytes into characters and stray bytes. -/
def pieces : Bytes → List Piece
  | [] => []
  | b :: bs =>
    match front? (b :: bs) with
    | some c => .char c :: pieces ((b :: bs).drop c.utf8Size)
    | none =>
      .stray ((b :: bs).take (strayLength (b :: bs)))
        :: pieces ((b :: bs).drop (strayLength (b :: bs)))
termination_by bytes => bytes.length
decreasing_by
  · have := c.utf8Size_pos
    simp only [List.length_drop, List.length_cons]
    omega
  · have := strayLength_pos (b :: bs)
    simp only [List.length_drop, List.length_cons]
    omega

/-- A piece as it is shown to the user; one mark stands for all that is stray in one place. -/
def Piece.shown : Piece → Char
  | char c => c
  | stray _ => '\uFFFD'

/-- Bytes as they are shown to the user. -/
def shown (bytes : Bytes) : String := String.ofList ((pieces bytes).map Piece.shown)

end Utf8

/-- Where bytes are wanted, a text stands for its own. -/
instance : Coe String Bytes := ⟨Utf8.encode⟩

end LogSplit
