import LogSplit.Text.Utf8

/-!
# The bytes of a text, character by character

The bytes of a text are the bytes of its characters in a row.  A character of ASCII is one byte
of its own value and every byte of any other character has the high bit set, so a byte below 128
in a text is a character: whoever cuts texts at such bytes may as well cut them at characters.
-/

set_option autoImplicit false

namespace LogSplit

namespace Utf8

open String (utf8EncodeChar)

/-- The bytes of some characters. -/
def encodeChars (cs : List Char) : Bytes := cs.flatMap utf8EncodeChar

theorem encode_eq (text : String) : encode text = encodeChars text.toList := by
  rw [encode, ← String.utf8Encode_toList, List.utf8Encode, encodeChars]
  simp

@[simp] theorem encodeChars_nil : encodeChars [] = [] := rfl

@[simp] theorem encodeChars_cons (c : Char) (cs : List Char) :
    encodeChars (c :: cs) = utf8EncodeChar c ++ encodeChars cs := rfl

@[simp] theorem encodeChars_append (xs ys : List Char) :
    encodeChars (xs ++ ys) = encodeChars xs ++ encodeChars ys :=
  List.flatMap_append

theorem encode_append (s t : String) : encode (s ++ t) = encode s ++ encode t := by
  rw [encode_eq, encode_eq, encode_eq, String.toList_append, encodeChars_append]

theorem encode_singleton (c : Char) : encode (String.singleton c) = utf8EncodeChar c := by
  rw [encode_eq, String.toList_singleton, encodeChars_cons, encodeChars_nil, List.append_nil]

/-- Different texts have different bytes. -/
theorem encode_inj {s t : String} : encode s = encode t ↔ s = t := by
  refine ⟨fun h => ?_, congrArg encode⟩
  have hs := decode_encode s
  rw [h, decode_encode] at hs
  exact (Except.ok.inj hs).symm

/-- Only the bytes of a text are read as it. -/
theorem encode_of_decode {bytes : Bytes} {text : String} (h : decode bytes = .ok text) :
    encode text = bytes := by
  rw [decode] at h
  split at h
  · rename_i text' htext
    cases h
    rw [String.fromUTF8?] at htext
    split at htext
    · cases htext
      rfl
    · cases htext
  · cases h

theorem length_encode (s : String) : (encode s).length = s.utf8ByteSize := by
  simp [encode]

/-- A character of ASCII is a single byte. -/
theorem utf8EncodeChar_of_lt {c : Char} (h : c.toNat < 128) :
    utf8EncodeChar c = [UInt8.ofNat c.toNat] := by
  have hle : c.val.toNat ≤ 0x7f := Nat.le_of_lt_succ h
  rw [utf8EncodeChar, if_pos hle]
  rfl

/-- The bytes of any other character are outside ASCII. -/
theorem le_of_mem_utf8EncodeChar {c : Char} (h : 128 ≤ c.toNat) {b : UInt8}
    (hb : b ∈ utf8EncodeChar c) : 128 ≤ b.toNat := by
  have hle : ¬ c.val.toNat ≤ 0x7f := Nat.not_le.2 h
  rw [utf8EncodeChar, if_neg hle] at hb
  split at hb
  · simp only [List.mem_cons, List.not_mem_nil, or_false] at hb
    rcases hb with rfl | rfl <;> simp only [UInt8.toNat_ofNat'] <;> omega
  split at hb
  · simp only [List.mem_cons, List.not_mem_nil, or_false] at hb
    rcases hb with rfl | rfl | rfl <;> simp only [UInt8.toNat_ofNat'] <;> omega
  · simp only [List.mem_cons, List.not_mem_nil, or_false] at hb
    rcases hb with rfl | rfl | rfl | rfl <;> simp only [UInt8.toNat_ofNat'] <;> omega

theorem utf8EncodeChar_ne_nil (c : Char) : utf8EncodeChar c ≠ [] :=
  String.utf8EncodeChar_ne_nil

theorem encodeChars_ne_nil {cs : List Char} (h : cs ≠ []) : encodeChars cs ≠ [] := by
  cases cs with
  | nil => exact absurd rfl h
  | cons c cs => exact List.append_ne_nil_of_left_ne_nil (utf8EncodeChar_ne_nil c) _

theorem encode_ne_nil {s : String} (h : s ≠ "") : encode s ≠ [] := by
  rw [encode_eq]
  exact encodeChars_ne_nil fun hnil => h (String.toList_eq_nil_iff.1 hnil)

/-- A byte of ASCII in a text is one of its characters. -/
theorem exists_of_mem_encodeChars {cs : List Char} {b : UInt8} (hb : b ∈ encodeChars cs)
    (hlt : b.toNat < 128) : ∃ c ∈ cs, c.toNat = b.toNat := by
  obtain ⟨c, hc, hbc⟩ := List.mem_flatMap.1 hb
  refine ⟨c, hc, ?_⟩
  rcases Nat.lt_or_ge c.toNat 128 with hcl | hcl
  · rw [utf8EncodeChar_of_lt hcl, List.mem_singleton] at hbc
    rw [hbc, UInt8.toNat_ofNat']
    omega
  · exact absurd (le_of_mem_utf8EncodeChar hcl hbc) (Nat.not_le.2 hlt)

/-- The first character of a text is the one that its bytes begin with. -/
theorem eq_of_utf8EncodeChar_append {c d : Char} {xs ys : Bytes}
    (h : utf8EncodeChar c ++ xs = utf8EncodeChar d ++ ys) : c = d := by
  have hc := ByteArray.utf8DecodeChar?_utf8EncodeChar_append (b := xs.toByteArray) (c := c)
  have hd := ByteArray.utf8DecodeChar?_utf8EncodeChar_append (b := ys.toByteArray) (c := d)
  rw [← List.toByteArray_append] at hc hd
  rw [h, hd] at hc
  exact (Option.some_inj.1 hc).symm

end Utf8

end LogSplit
