import LogSplit.Proofs.Text.Encoding

/-!
# Slices of a text

A slice of a text is given by the byte offsets of its two ends.  It exists only if both are the
offsets of whole characters and the first is not behind the second: `Utf8.slice?` gives nothing in
all other cases, and `slice?_eq_some_iff` says so without mentioning how characters are counted.

Where a byte of ASCII stands in a text a character ends on either side of it, so bytes of ASCII
that stand in a row can always be cut out (`slice?_of_ascii`).  Between them and the ends of the
text any other characters may stand.
-/

set_option autoImplicit false

namespace LogSplit

namespace Utf8

open String (utf8EncodeChar)

/-! ## Cutting at an offset -/

/-- The characters in front of a byte offset and those behind it.  There is no cut inside a
character and none behind the end. -/
def cutAt? : List Char → Nat → Option (List Char × List Char)
  | cs, 0 => some ([], cs)
  | [], _ + 1 => none
  | c :: cs, n + 1 =>
    if c.utf8Size ≤ n + 1 then
      (cutAt? cs (n + 1 - c.utf8Size)).map fun cut => (c :: cut.1, cut.2)
    else none

/-- The text from one byte offset to another. -/
def slice? (text : String) (start stop : Nat) : Option String :=
  if start ≤ stop then
    (cutAt? text.toList start).bind fun cut =>
      (cutAt? cut.2 (stop - start)).map fun inner => String.ofList inner.1
  else none

theorem length_encodeChars_cons (c : Char) (cs : List Char) :
    (encodeChars (c :: cs)).length = c.utf8Size + (encodeChars cs).length := by
  rw [encodeChars_cons, List.length_append, String.length_utf8EncodeChar]

theorem cutAt?_append (front back : List Char) :
    cutAt? (front ++ back) (encodeChars front).length = some (front, back) := by
  induction front with
  | nil => simp [cutAt?]
  | cons c front ih =>
    have hpos := c.utf8Size_pos
    have hlength := length_encodeChars_cons c front
    cases hn : (encodeChars (c :: front)).length with
    | zero => omega
    | succ n =>
      have hrest : n + 1 - c.utf8Size = (encodeChars front).length := by omega
      rw [List.cons_append, cutAt?, if_pos (by omega), hrest, ih]
      rfl

theorem eq_of_cutAt? {cs : List Char} {n : Nat} {cut : List Char × List Char}
    (h : cutAt? cs n = some cut) : cs = cut.1 ++ cut.2 ∧ (encodeChars cut.1).length = n := by
  fun_induction cutAt? cs n generalizing cut with
  | case1 cs => simp [← Option.some_inj.1 h]
  | case2 n => cases h
  | case3 c cs n hsize ih =>
    obtain ⟨inner, hinner, rfl⟩ := Option.map_eq_some_iff.1 h
    obtain ⟨hcs, hlength⟩ := ih hinner
    refine ⟨by simp [hcs], ?_⟩
    rw [length_encodeChars_cons, hlength]
    omega
  | case4 c cs n hsize => cases h

/-- **A slice begins and ends between characters.** -/
theorem slice?_eq_some_iff {text part : String} {start stop : Nat} :
    slice? text start stop = some part ↔
      ∃ front back, text = front ++ part ++ back ∧ (encode front).length = start ∧
        (encode (front ++ part)).length = stop := by
  constructor
  · intro h
    obtain ⟨hle, h⟩ := Option.ite_none_right_eq_some.1 h
    obtain ⟨⟨front, behind⟩, hfront, h⟩ := Option.bind_eq_some_iff.1 h
    obtain ⟨⟨inner, back⟩, hinner, rfl⟩ := Option.map_eq_some_iff.1 h
    obtain ⟨htext, hstart⟩ := eq_of_cutAt? hfront
    obtain ⟨rfl, hstop⟩ := eq_of_cutAt? hinner
    refine ⟨String.ofList front, String.ofList back, ?_, ?_, ?_⟩
    · simp [← String.toList_inj, htext]
    · simpa [encode_eq] using hstart
    · rw [encode_eq, String.toList_append, String.toList_ofList, String.toList_ofList,
        encodeChars_append, List.length_append, hstart, hstop, Nat.add_sub_cancel' hle]
  · rintro ⟨front, back, rfl, rfl, rfl⟩
    have hfront := cutAt?_append front.toList (part.toList ++ back.toList)
    have hpart := cutAt?_append part.toList back.toList
    simp [slice?, encode_eq, hfront, hpart]

/-! ## Bytes of ASCII -/

theorem toNat_lt_of_mem_utf8EncodeChar {c : Char} {b : UInt8} (hmem : b ∈ utf8EncodeChar c)
    (hb : b.toNat < 128) : c.toNat < 128 :=
  Nat.lt_of_not_le fun hle => Nat.not_le.2 hb (le_of_mem_utf8EncodeChar hle hmem)

/-- Where a byte of ASCII stands in a text a character begins and ends. -/
theorem exists_cut_of_ascii {cs : List Char} {xs ys : Bytes} {b : UInt8} (hb : b.toNat < 128)
    (h : encodeChars cs = xs ++ b :: ys) : ∃ front c back, cs = front ++ c :: back ∧
      encodeChars front = xs ∧ utf8EncodeChar c = [b] ∧ encodeChars back = ys := by
  induction cs generalizing xs with
  | nil => simp at h
  | cons c cs ih =>
    -- if the byte stands behind the first character, it is in the rest of the text
    have hlater : ∀ inner, xs = utf8EncodeChar c ++ inner → encodeChars cs = inner ++ b :: ys →
        ∃ front d back, c :: cs = front ++ d :: back ∧ encodeChars front = xs ∧
          utf8EncodeChar d = [b] ∧ encodeChars back = ys := by
      rintro inner rfl hrest
      obtain ⟨front, d, back, rfl, rfl, hd, hback⟩ := ih hrest
      exact ⟨c :: front, d, back, rfl, rfl, hd, hback⟩
    rcases List.append_eq_append_iff.1 (h : utf8EncodeChar c ++ encodeChars cs = xs ++ b :: ys) with
      ⟨inner, hxs, hrest⟩ | ⟨inner, hc, hrest⟩
    · exact hlater inner hxs hrest
    · cases inner with
      | nil => exact hlater [] (by simpa using hc.symm) hrest.symm
      | cons x inner =>
        obtain ⟨rfl, rfl⟩ := List.cons_eq_cons.1 hrest
        have hascii : c.toNat < 128 := toNat_lt_of_mem_utf8EncodeChar (by simp [hc]) hb
        rw [utf8EncodeChar_of_lt hascii] at hc
        obtain ⟨rfl, rfl, rfl⟩ : xs = [] ∧ b = UInt8.ofNat c.toNat ∧ inner = [] := by
          simpa using List.singleton_eq_append_iff.1 hc
        exact ⟨[], c, cs, rfl, rfl, utf8EncodeChar_of_lt hascii, rfl⟩

/-- Bytes of ASCII are those of characters of ASCII. -/
theorem toNat_lt_of_encodeChars {cs : List Char} (h : ∀ b ∈ encodeChars cs, b.toNat < 128) :
    ∀ c ∈ cs, c.toNat < 128 := by
  intro c hc
  obtain ⟨b, bs, hbytes⟩ := List.exists_cons_of_ne_nil (utf8EncodeChar_ne_nil c)
  have hmem : b ∈ utf8EncodeChar c := by simp [hbytes]
  exact toNat_lt_of_mem_utf8EncodeChar hmem (h b (List.mem_flatMap_of_mem hc hmem))

theorem exists_take_of_ascii {cs : List Char} {piece ys : Bytes}
    (hascii : ∀ b ∈ piece, b.toNat < 128) (h : encodeChars cs = piece ++ ys) :
    ∃ front back, cs = front ++ back ∧ encodeChars front = piece := by
  induction piece generalizing cs with
  | nil => exact ⟨[], cs, rfl, rfl⟩
  | cons b piece ih =>
    obtain ⟨before, c, rest, rfl, hbefore, hc, hrest⟩ :=
      exists_cut_of_ascii (hascii b List.mem_cons_self)
        (show encodeChars cs = [] ++ b :: (piece ++ ys) from h)
    obtain ⟨front, back, rfl, rfl⟩ := ih (fun x hx => hascii x (List.mem_cons_of_mem _ hx)) hrest
    refine ⟨before ++ c :: front, back, by simp, ?_⟩
    simp [hbefore, hc]

/-- **Bytes of ASCII that stand in a row are a slice.**  Only an empty row may lie inside a
character. -/
theorem slice?_of_ascii {text : String} {xs piece ys : Bytes} (hne : piece ≠ [])
    (hascii : ∀ b ∈ piece, b.toNat < 128) (h : encode text = xs ++ (piece ++ ys)) :
    ∃ cs, encodeChars cs = piece ∧
      slice? text xs.length (xs.length + piece.length) = some (String.ofList cs) := by
  obtain ⟨b, rest, rfl⟩ := List.exists_cons_of_ne_nil hne
  rw [encode_eq] at h
  obtain ⟨front, c, behind, htext, hfront, hc, hbehind⟩ :=
    exists_cut_of_ascii (hascii b List.mem_cons_self) h
  obtain ⟨inner, back, rfl, rfl⟩ :=
    exists_take_of_ascii (fun x hx => hascii x (List.mem_cons_of_mem _ hx)) hbehind
  refine ⟨c :: inner, by simp [hc], slice?_eq_some_iff.2
    ⟨String.ofList front, String.ofList back, ?_, ?_, ?_⟩⟩
  · simp [← String.toList_inj, htext]
  · simp [encode_eq, hfront]
  · simp [encode_eq, hfront, hc]

end Utf8

end LogSplit
