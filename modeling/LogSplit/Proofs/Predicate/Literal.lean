import LogSplit.Predicate.Clause
import LogSplit.Proofs.Number.Numeral
import Mathlib.Data.List.TakeWhile

/-!
# Numbers of clauses are numerals

What stands in the place of the number of a clause spells a binary64 number: it is digits, at
most one point that a digit follows, and a minus sign at most, so no such text can be left over
when the literal is read as a numeral.
-/

set_option autoImplicit false

namespace LogSplit

namespace Clause

/-! ## The shape of a number -/

/-- Digits at the front, and a point and digits behind them unless that part is left out. -/
def IsUnsigned (text : Bytes) : Prop :=
  ∃ whole part, text = whole ++ part ∧ (∀ b ∈ whole, isDigitByte b = true) ∧
    (part = [] ∧ whole ≠ [] ∨
      ∃ ds, part = 46 :: ds ∧ ds ≠ [] ∧ ∀ b ∈ ds, isDigitByte b = true)

theorem forall_mem_takeWhile (p : UInt8 → Bool) (bs : Bytes) : ∀ b ∈ bs.takeWhile p, p b = true :=
  List.all_eq_true.1 List.all_takeWhile

theorem fraction_eq (bs : Bytes) :
    fraction bs = [] ∨
      ∃ ds, fraction bs = 46 :: ds ∧ ds ≠ [] ∧ ∀ b ∈ ds, isDigitByte b = true := by
  cases bs with
  | nil => exact Or.inl rfl
  | cons b bs =>
    by_cases h : b.toNat = 46 ∧ bs.takeWhile isDigitByte ≠ []
    · have hb : b = 46 := UInt8.toNat_inj.1 h.1
      refine Or.inr ⟨bs.takeWhile isDigitByte, ?_, h.2, forall_mem_takeWhile _ _⟩
      rw [fraction, if_pos h, hb]
    · exact Or.inl (if_neg h)

theorem isUnsigned_of_unsigned? {bs text : Bytes} (h : unsigned? bs = some text) :
    IsUnsigned text := by
  rw [unsigned?] at h
  obtain ⟨hne, h⟩ := (Option.ite_none_left_eq_some).1 h
  obtain rfl := Option.some_inj.1 h
  simp only [Bool.and_eq_true, List.isEmpty_iff] at hne
  refine ⟨_, _, rfl, forall_mem_takeWhile _ _, ?_⟩
  rcases fraction_eq (bs.drop (bs.takeWhile isDigitByte).length) with hpart | hpart
  · exact Or.inl ⟨hpart, fun hwhole => hne ⟨hwhole, hpart⟩⟩
  · exact Or.inr hpart

theorem isUnsigned_of_number? {bs literal : Bytes} (h : number? bs = some literal) :
    IsUnsigned literal ∨ ∃ text, literal = 45 :: text ∧ IsUnsigned text := by
  cases bs with
  | nil => cases h
  | cons b bs =>
    rw [number?] at h
    split at h
    · rename_i hb
      obtain ⟨text, htext, rfl⟩ := Option.map_eq_some_iff.1 h
      exact Or.inr ⟨text, by rw [UInt8.toNat_inj.1 (show b.toNat = (45 : UInt8).toNat from hb)],
        isUnsigned_of_unsigned? htext⟩
    · exact Or.inl (isUnsigned_of_unsigned? h)

/-! ## Its characters -/

/-- The character of an ASCII byte. -/
def charOf (b : UInt8) : Char := Char.ofNat b.toNat

theorem toList_asciiText (bs : Bytes) : (asciiText bs).toList = bs.map charOf :=
  String.toList_ofList

theorem toNat_charOf (b : UInt8) : (charOf b).toNat = b.toNat := by
  have hb := UInt8.toNat_lt b
  have hvalid : b.toNat.isValidChar := Or.inl (by omega)
  rw [charOf, Char.ofNat, dif_pos hvalid]
  rfl

theorem isDigit_charOf (b : UInt8) : (charOf b).isDigit = isDigitByte b := by
  rw [Bool.eq_iff_iff, isDigitByte, Char.isDigit]
  rw [← toNat_charOf]
  simp [UInt32.le_iff_toNat_le]

/-- A digit is no other character. -/
theorem ne_of_isDigit_charOf {b : UInt8} (h : isDigitByte b = true) {c : Char}
    (hc : c.isDigit = false) : charOf b ≠ c :=
  Numeral.ne_of_isDigit (by rw [isDigit_charOf, h]) hc

theorem all_isDigit_map_charOf {bs : Bytes} (h : ∀ b ∈ bs, isDigitByte b = true) :
    ∀ c ∈ bs.map charOf, c.isDigit = true := by
  intro c hc
  obtain ⟨b, hb, rfl⟩ := List.mem_map.1 hc
  rw [isDigit_charOf]
  exact h b hb

/-- An unsigned decimal begins with a digit or a point. -/
theorem IsUnsigned.exists_cons {text : Bytes} (h : IsUnsigned text) :
    ∃ b bs, text = b :: bs ∧ (isDigitByte b = true ∨ b = 46) := by
  obtain ⟨whole, part, rfl, hwhole, hpart⟩ := h
  cases whole with
  | cons b bs => exact ⟨b, bs ++ part, rfl, Or.inl (hwhole b List.mem_cons_self)⟩
  | nil =>
    rcases hpart with ⟨-, hne⟩ | ⟨ds, rfl, -, -⟩
    · exact absurd rfl hne
    · exact ⟨46, ds, rfl, Or.inr rfl⟩

theorem IsUnsigned.decimal? {text : Bytes} (h : IsUnsigned text) (negative : Bool) :
    ∃ value, Numeral.decimal? negative (text.map charOf) = some value := by
  obtain ⟨whole, part, rfl, hwhole, hpart⟩ := h
  rw [Numeral.decimal?, List.map_append]
  rcases hpart with ⟨rfl, hne⟩ | ⟨ds, rfl, hne, hds⟩
  · simp [List.takeWhile_eq_self_iff.2 (all_isDigit_map_charOf hwhole),
      List.dropWhile_eq_nil_iff.2 (all_isDigit_map_charOf hwhole), hne, Numeral.exponent?]
  · have hpoint : charOf 46 = '.' := by decide
    have hstop : (charOf 46 :: ds.map charOf).takeWhile Char.isDigit = [] := by simp [hpoint]
    have hrest : (charOf 46 :: ds.map charOf).dropWhile Char.isDigit = '.' :: ds.map charOf := by
      simp [hpoint]
    rw [List.map_cons, List.takeWhile_append_of_pos (all_isDigit_map_charOf hwhole), hstop,
      List.dropWhile_append_of_pos (all_isDigit_map_charOf hwhole), hrest]
    simp [List.takeWhile_eq_self_iff.2 (all_isDigit_map_charOf hds),
      List.dropWhile_eq_nil_iff.2 (all_isDigit_map_charOf hds), hne, Numeral.exponent?]

/-- No unsigned decimal is one of the words for infinity and for a number that is none. -/
theorem IsUnsigned.parse? {text : Bytes} (h : IsUnsigned text) {cs : List Char} {negative : Bool}
    (hsign : Numeral.splitSign cs = (negative, text.map charOf)) :
    ∃ value, Numeral.parse? cs = some (.decimal value) := by
  obtain ⟨value, hvalue⟩ := h.decimal? negative
  obtain ⟨b, bs, rfl, hb⟩ := h.exists_cons
  have hhead : (charOf b).isDigit = true ∨ charOf b = '.' := by
    rcases hb with hb | rfl
    · exact Or.inl (by rw [isDigit_charOf, hb])
    · exact Or.inr (by decide)
  exact ⟨value, by rw [Numeral.parse?_eq_decimal? hsign hhead, ← List.map_cons, hvalue]; rfl⟩

/-- The number of a clause is read as a finite decimal, never as one of the words. -/
theorem exists_parse?_of_number? {bs literal : Bytes} (h : number? bs = some literal) :
    ∃ value, Numeral.parse? (literal.map charOf) = some (.decimal value) := by
  rcases isUnsigned_of_number? h with hlit | ⟨text, rfl, htext⟩
  · obtain ⟨b, bs, rfl, hb⟩ := hlit.exists_cons
    refine hlit.parse? (Numeral.splitSign_of_ne ?_ ?_ _) <;> rcases hb with hb | rfl
    · exact ne_of_isDigit_charOf hb (by decide)
    · decide
    · exact ne_of_isDigit_charOf hb (by decide)
    · decide
  · exact htext.parse? rfl

/-- **The number of a clause always has a value.** -/
theorem exists_ofText?_of_number? {bs literal : Bytes} (h : number? bs = some literal) :
    ∃ threshold, Binary64.ofText? (asciiText literal) = some threshold := by
  obtain ⟨value, hvalue⟩ := exists_parse?_of_number? h
  refine ⟨(Numeral.decimal value).toBinary64, ?_⟩
  rw [Binary64.ofText?, toList_asciiText, hvalue]
  rfl

end Clause
end LogSplit
