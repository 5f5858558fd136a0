import LogSplit.Proofs.Predicate.Regex
import LogSplit.Proofs.Text.Encoding

/-!
# Reading a text as characters and as bytes

An expression whose classes hold ASCII characters only reads a text in the same ways whether
the text is given as characters or as bytes: every byte of another character stops a class just
as the character does.
-/

set_option autoImplicit false

namespace LogSplit

namespace Regex

open String (utf8EncodeChar)
open Utf8 (encodeChars)

/-- A class of bytes holds the same as a class of characters, and both hold ASCII only. -/
structure ClassEncodes (isIn : Char → Bool) (isInByte : UInt8 → Bool) : Prop where
  /-- They agree on ASCII. -/
  ascii : ∀ c : Char, c.toNat < 128 → isInByte (UInt8.ofNat c.toNat) = isIn c
  /-- No other character is in the class. -/
  char : ∀ c : Char, 128 ≤ c.toNat → isIn c = false
  /-- Nor is any other byte. -/
  byte : ∀ b : UInt8, 128 ≤ b.toNat → isInByte b = false

/-- Two expressions that differ in their classes only, which hold the same. -/
inductive Encodes : Regex Char → Regex UInt8 → Prop where
  | chars {isIn : Char → Bool} {isInByte : UInt8 → Bool} (h : ClassEncodes isIn isInByte)
    (least : Nat) (most : Option Nat) : Encodes (chars isIn least most) (chars isInByte least most)
  | seq {r s : Regex Char} {rb sb : Regex UInt8} (hr : Encodes r rb) (hs : Encodes s sb) :
    Encodes (seq r s) (seq rb sb)
  | optional {r : Regex Char} {rb : Regex UInt8} (hr : Encodes r rb) :
    Encodes (optional r) (optional rb)
  | group {r : Regex Char} {rb : Regex UInt8} (number : Nat) (hr : Encodes r rb) :
    Encodes (group number r) (group number rb)

/-- A byte is one wide. -/
def byteWidth (_ : UInt8) : Nat := 1

theorem extent_byteWidth (bs : Bytes) : extent byteWidth bs = bs.length := by
  induction bs with
  | nil => rfl
  | cons b bs ih =>
    rw [extent, List.map_cons, List.sum_cons, ← extent, ih, List.length_cons, Nat.add_comm]
    rfl

theorem extent_utf8Size (cs : List Char) :
    extent Char.utf8Size cs = (encodeChars cs).length := by
  induction cs with
  | nil => rfl
  | cons c cs ih =>
    rw [extent, List.map_cons, List.sum_cons, ← extent, ih, Utf8.encodeChars_cons,
      List.length_append, String.length_utf8EncodeChar]

/-! ## Outcomes -/

/-- A cut of some characters, as a cut of their bytes. -/
def encodeCut (cut : List Char × List Char) : Bytes × Bytes :=
  (encodeChars cut.1, encodeChars cut.2)

/-- A group of characters, as one of bytes. -/
def Capture.encode (c : Capture Char) : Capture UInt8 :=
  ⟨c.number, c.offset, encodeChars c.text⟩

/-- A reading of characters, as one of bytes. -/
def Outcome.encode (o : Outcome Char) : Outcome UInt8 :=
  ⟨o.captures.map Capture.encode, encodeChars o.text, encodeChars o.rest⟩

theorem Outcome.encode_append (o o' : Outcome Char) :
    (o.append o').encode = o.encode.append o'.encode := by
  simp [encode, append]

theorem repeats_encodeChars {isIn : Char → Bool} {isInByte : UInt8 → Bool}
    (h : ClassEncodes isIn isInByte) (cs : List Char) :
    ∀ (least : Nat) (most : Option Nat), repeats isInByte least most (encodeChars cs)
      = (repeats isIn least most cs).map encodeCut := by
  induction cs with
  | nil =>
    intro least most
    rw [Utf8.encodeChars_nil, repeats, repeats]
    split <;> rfl
  | cons c cs ih =>
    intro least most
    rcases Nat.lt_or_ge c.toNat 128 with hc | hc
    · have hlast : (if least = 0 then [([], encodeChars (c :: cs))] else [])
          = (if least = 0 then [([], c :: cs)] else []).map encodeCut := by
        split <;> rfl
      rw [Utf8.encodeChars_cons, Utf8.utf8EncodeChar_of_lt hc, List.singleton_append] at hlast ⊢
      rw [repeats, repeats, h.ascii c hc, List.map_append, ← hlast]
      refine congrArg (· ++ _) ?_
      split
      · rw [ih, List.map_map, List.map_map]
        refine List.map_congr_left fun cut _ => ?_
        simp [encodeCut, Utf8.utf8EncodeChar_of_lt hc]
      · rfl
    · obtain ⟨b, bs, hbs⟩ := List.exists_cons_of_ne_nil (Utf8.utf8EncodeChar_ne_nil c)
      have hb : 128 ≤ b.toNat :=
        Utf8.le_of_mem_utf8EncodeChar hc (hbs ▸ List.mem_cons_self)
      have hcons : encodeChars (c :: cs) = b :: (bs ++ encodeChars cs) := by
        rw [Utf8.encodeChars_cons, hbs, List.cons_append]
      rw [repeats_of_not (h.char c hc), hcons, repeats_of_not (h.byte b hb), ← hcons]
      split <;> rfl

/-- **A text is read in the same ways as characters and as bytes.** -/
theorem outcomes_encodeChars {r : Regex Char} {rb : Regex UInt8} (h : Encodes r rb) :
    ∀ (offset : Nat) (cs : List Char), rb.outcomes byteWidth offset (encodeChars cs)
      = (r.outcomes Char.utf8Size offset cs).map Outcome.encode := by
  induction h with
  | chars h least most =>
    intro offset cs
    rw [outcomes, outcomes, repeats_encodeChars h, List.map_map, List.map_map]
    rfl
  | seq hr hs ihr ihs =>
    intro offset cs
    rw [outcomes, outcomes, ihr, List.flatMap_map, List.map_flatMap]
    refine List.flatMap_congr fun o _ => ?_
    have hoffset : extent byteWidth o.encode.text = extent Char.utf8Size o.text := by
      rw [extent_byteWidth, extent_utf8Size]
      rfl
    rw [hoffset, show o.encode.rest = encodeChars o.rest from rfl, ihs, List.map_map, List.map_map]
    exact List.map_congr_left fun o' _ => (Outcome.encode_append o o').symm
  | optional hr ih =>
    intro offset cs
    rw [outcomes, outcomes, ih, List.map_append]
    rfl
  | group number hr ih =>
    intro offset cs
    rw [outcomes, outcomes, ih, List.map_map, List.map_map]
    refine List.map_congr_left fun o _ => ?_
    simp [Outcome.encode, Capture.encode]

/-! ## Groups -/

theorem groupText_map_encode (captures : List (Capture Char)) (number : Nat) :
    groupText (captures.map Capture.encode) number = encodeChars (groupText captures number) := by
  induction captures with
  | nil => rfl
  | cons c cs ih =>
    by_cases h : c.number = number
    · subst h
      exact (groupText_cons_self _ _ _ _).trans (congrArg _ (groupText_cons_self _ _ _ _).symm)
    · rw [List.map_cons, groupText_cons_of_ne h, groupText_cons_of_ne (c := c.encode) h, ih]

theorem groupOffset_map_encode (captures : List (Capture Char)) (number : Nat) :
    groupOffset (captures.map Capture.encode) number = groupOffset captures number := by
  induction captures with
  | nil => rfl
  | cons c cs ih =>
    by_cases h : c.number = number
    · subst h
      exact (groupOffset_cons_self _ _ _ _).trans (groupOffset_cons_self _ _ _ _).symm
    · rw [List.map_cons, groupOffset_cons_of_ne h, groupOffset_cons_of_ne (c := c.encode) h, ih]

theorem toNat_lt_of_mem_repeats {isIn : Char → Bool} {isInByte : UInt8 → Bool}
    (h : ClassEncodes isIn isInByte) {cs : List Char} :
    ∀ {least : Nat} {most : Option Nat} {cut : List Char × List Char},
      cut ∈ repeats isIn least most cs → ∀ c ∈ cut.1, c.toNat < 128 := by
  induction cs with
  | nil =>
    intro least most cut hcut c hc
    rw [repeats] at hcut
    split at hcut
    · rw [List.mem_singleton.1 hcut] at hc
      exact absurd hc List.not_mem_nil
    · exact absurd hcut List.not_mem_nil
  | cons x xs ih =>
    intro least most cut hcut c hc
    rw [repeats] at hcut
    rcases List.mem_append.1 hcut with hcut | hcut <;> split at hcut
    · rename_i hx
      obtain ⟨cut', hcut', rfl⟩ := List.mem_map.1 hcut
      rcases List.mem_cons.1 hc with rfl | hc
      · exact Nat.lt_of_not_le fun hle => by rw [h.char _ hle] at hx; cases hx.2
      · exact ih hcut' c hc
    · exact absurd hcut List.not_mem_nil
    · rw [List.mem_singleton.1 hcut] at hc
      exact absurd hc List.not_mem_nil
    · exact absurd hcut List.not_mem_nil

/-- Only ASCII is read. -/
theorem toNat_lt_of_mem_readings {r : Regex Char} {rb : Regex UInt8} (h : Encodes r rb) :
    ∀ {cs : List Char} {cut : List Char × List Char}, cut ∈ r.readings cs →
      ∀ c ∈ cut.1, c.toNat < 128 := by
  induction h with
  | chars h least most => exact fun hcut => toNat_lt_of_mem_repeats h hcut
  | seq hr hs ihr ihs =>
    intro cs cut hcut c hc
    obtain ⟨cut₁, h₁, hcut⟩ := List.mem_flatMap.1 hcut
    obtain ⟨cut₂, h₂, rfl⟩ := List.mem_map.1 hcut
    rcases List.mem_append.1 hc with hc | hc
    · exact ihr h₁ c hc
    · exact ihs h₂ c hc
  | optional hr ih =>
    intro cs cut hcut c hc
    rcases List.mem_append.1 hcut with hcut | hcut
    · exact ih hcut c hc
    · rw [List.mem_singleton.1 hcut] at hc
      exact absurd hc List.not_mem_nil
  | group number hr ih => exact fun hcut => ih hcut

/-- So every group notes ASCII. -/
theorem toNat_lt_of_mem_groupText {r : Regex Char} {rb : Regex UInt8} (h : Encodes r rb)
    {width : Char → Nat} {offset : Nat} {cs : List Char} {o : Outcome Char}
    (ho : o ∈ r.outcomes width offset cs) (number : Nat) :
    ∀ c ∈ groupText o.captures number, c.toNat < 128 := by
  intro c hc
  rw [groupText] at hc
  cases hfind : o.captures.find? (·.number == number) with
  | none =>
    rw [hfind] at hc
    exact absurd hc List.not_mem_nil
  | some capture =>
    rw [hfind] at hc
    have hmem : (o.text, o.rest) ∈ r.readings cs := by
      rw [← map_outcomes width r offset cs]
      exact List.mem_map_of_mem ho
    exact toNat_lt_of_mem_readings h hmem c
      (mem_text_of_mem_captures r ho capture (List.mem_of_find?_eq_some hfind) c hc)

end Regex

end LogSplit
