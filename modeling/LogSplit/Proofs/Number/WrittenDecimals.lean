import LogSplit.Proofs.Number.Numeral
import LogSplit.Proofs.Number.RoundingOrder
import Mathlib.Data.List.TakeWhile

/-!
# Decimals as they are written

A decimal is written as an optional sign, digits with at most one point among them, and an optional
power of ten (`DecimalText`).  The relation gives the exact value of such a text, a rational number,
without reading it the way numerals are read: what stands before the point counts whole units, what
stands behind it counts the units of its last place, and the two are scaled by the power of ten.

Reading numerals finds that value (`DecimalText.exists_parse?`), however many digits there are and
wherever the point is, so a text has no other one (`DecimalText.unique`).
-/

set_option autoImplicit false

namespace LogSplit

/-! ## Texts and their values -/

/-- A text with a sign in front of it or without one. -/
inductive Signed {α : Type} [Neg α] (Spells : List Char → α → Prop) : List Char → α → Prop where
  /-- No sign. -/
  | unsigned {cs : List Char} {v : α} (h : Spells cs v) : Signed Spells cs v
  /-- A plus sign. -/
  | plus {cs : List Char} {v : α} (h : Spells cs v) : Signed Spells ('+' :: cs) v
  /-- A minus sign. -/
  | minus {cs : List Char} {v : α} (h : Spells cs v) : Signed Spells ('-' :: cs) (-v)

/-- Digits alone, for the number that they spell. -/
inductive WholeText : List Char → Int → Prop where
  /-- At least one of them. -/
  | digits {ds : List Char} (hne : ds ≠ []) (hds : ∀ c ∈ ds, c.isDigit = true) :
    WholeText ds (digitsValue ds)

/-- The power of ten behind a decimal. -/
inductive PowerText : List Char → Int → Prop where
  /-- None is written. -/
  | absent : PowerText [] 0
  /-- A mark, and a whole number with a sign or without. -/
  | marked {mark : Char} {cs : List Char} {e : Int} (hmark : mark = 'e' ∨ mark = 'E')
    (h : Signed WholeText cs e) : PowerText (mark :: cs) e

/-- Digits with at most one point among them. -/
inductive PointText : List Char → ℚ → Prop where
  /-- No point. -/
  | whole {ds : List Char} (hne : ds ≠ []) (hds : ∀ c ∈ ds, c.isDigit = true) :
    PointText ds (digitsValue ds)
  /-- A point, and a digit on one side of it at least. -/
  | point {front back : List Char} (hne : front ++ back ≠ [])
    (hfront : ∀ c ∈ front, c.isDigit = true) (hback : ∀ c ∈ back, c.isDigit = true) :
    PointText (front ++ '.' :: back) (digitsValue front + digitsValue back / 10 ^ back.length)

/-- A decimal without a sign. -/
inductive UnsignedText : List Char → ℚ → Prop where
  /-- Its power of ten scales it. -/
  | scaled {cs ps : List Char} {v : ℚ} {e : Int} (hcs : PointText cs v) (hps : PowerText ps e) :
    UnsignedText (cs ++ ps) (v * 10 ^ e)

/-- A text is a decimal of the given value. -/
def DecimalText : List Char → ℚ → Prop := Signed UnsignedText

/-! ## Signs -/

/-- Texts of a kind do not begin with a sign. -/
def SignFree {α : Type} (Spells : List Char → α → Prop) : Prop :=
  ∀ {c : Char} {cs : List Char} {v : α}, Spells (c :: cs) v → c ≠ '-' ∧ c ≠ '+'

theorem Signed.splitSign {α : Type} [Neg α] {Spells : List Char → α → Prop}
    (hfree : SignFree Spells) {cs : List Char} {v : α} (h : Signed Spells cs v) :
    ∃ negative body w, Numeral.splitSign cs = (negative, body) ∧ Spells body w ∧
      v = if negative then -w else w := by
  cases h with
  | unsigned h =>
    refine ⟨false, cs, v, ?_, h, rfl⟩
    cases cs with
    | nil => rfl
    | cons c rest => exact Numeral.splitSign_of_ne (hfree h).1 (hfree h).2 rest
  | plus h => exact ⟨false, _, _, rfl, h, rfl⟩
  | minus h => exact ⟨true, _, _, rfl, h, rfl⟩

theorem signFree_of_isDigit {c : Char} (h : c.isDigit = true) : c ≠ '-' ∧ c ≠ '+' :=
  ⟨Numeral.ne_of_isDigit h rfl, Numeral.ne_of_isDigit h rfl⟩

/-! ## Powers of ten -/

theorem signFree_wholeText : SignFree WholeText := by
  rintro c cs v ⟨-, hds⟩
  exact signFree_of_isDigit (hds c List.mem_cons_self)

theorem PowerText.exponent? {ps : List Char} {e : Int} (h : PowerText ps e) :
    Numeral.exponent? ps = some e := by
  cases h with
  | absent => rfl
  | marked hmark h =>
    obtain ⟨negative, ds, w, hsplit, ⟨hne, hds⟩, rfl⟩ := h.splitSign signFree_wholeText
    rw [Numeral.exponent?, if_pos hmark, hsplit]
    simp only [List.isEmpty_eq_false_iff.2 hne, List.all_eq_true.2 hds, Bool.not_true,
      Bool.or_false, Bool.false_eq_true, if_false]
    cases negative <;> rfl

/-- The digits of a decimal stop at its power of ten. -/
theorem PowerText.takeWhile_isDigit {ps : List Char} {e : Int} (h : PowerText ps e) :
    ps.takeWhile Char.isDigit = [] ∧ ps.dropWhile Char.isDigit = ps := by
  cases h with
  | absent => exact ⟨rfl, rfl⟩
  | marked hmark h => rcases hmark with rfl | rfl <;> exact ⟨rfl, rfl⟩

/-- So they do not continue with a point. -/
theorem PowerText.ne_point {ps : List Char} {e : Int} (h : PowerText ps e) (tail : List Char) :
    ps ≠ '.' :: tail := by
  cases h with
  | absent => exact (List.cons_ne_nil _ _).symm
  | marked hmark h => rcases hmark with rfl | rfl <;> simp

/-! ## Decimals -/

theorem digitsValue_append (front back : List Char) :
    digitsValue (front ++ back) = digitsValue front * 10 ^ back.length + digitsValue back := by
  change Nat.ofDigitChars 10 _ 0 = Nat.ofDigitChars 10 _ 0 * _ + Nat.ofDigitChars 10 _ 0
  rw [Nat.ofDigitChars_append, Nat.ofDigitChars_eq_ofDigitChars_zero, Nat.mul_comm]

/-- Digits around a point, as a number of units of the last place. -/
theorem size_of_point (negative : Bool) (front back : List Char) (e : Int) :
    Decimal.size ⟨negative, digitsValue (front ++ back), e - back.length⟩
      = (digitsValue front + digitsValue back / 10 ^ back.length) * 10 ^ e := by
  have hten : (10 : ℚ) ^ back.length ≠ 0 := pow_ne_zero _ (by norm_num)
  rw [Decimal.size, digitsValue_append, zpow_sub₀ (by norm_num), zpow_natCast]
  push_cast
  calc (digitsValue front * 10 ^ back.length + digitsValue back : ℚ) * (10 ^ e / 10 ^ back.length)
      = (digitsValue front * 10 ^ back.length + digitsValue back) / 10 ^ back.length * 10 ^ e := by
        rw [div_mul_eq_mul_div, mul_div_assoc]
    _ = (digitsValue front + digitsValue back / 10 ^ back.length) * 10 ^ e := by
        rw [add_div, mul_div_cancel_right₀ _ hten]

theorem decimal?_of_whole {ds ps : List Char} {e : Int} (hne : ds ≠ [])
    (hds : ∀ c ∈ ds, c.isDigit = true) (hps : PowerText ps e) (negative : Bool) :
    Numeral.decimal? negative (ds ++ ps) = some ⟨negative, digitsValue ds, e⟩ := by
  obtain ⟨hstop, hrest⟩ := hps.takeWhile_isDigit
  rw [Numeral.decimal?, List.takeWhile_append_of_pos hds, List.dropWhile_append_of_pos hds, hstop,
    hrest, List.append_nil]
  split
  rename_i fraction rest hpart
  have hnone : fraction = [] ∧ rest = ps := by
    split at hpart
    · exact absurd rfl (hps.ne_point _)
    · cases hpart
      exact ⟨rfl, rfl⟩
  obtain ⟨rfl, rfl⟩ := hnone
  simp [hne, hps.exponent?]

theorem decimal?_of_point {front back ps : List Char} {e : Int} (hne : front ++ back ≠ [])
    (hfront : ∀ c ∈ front, c.isDigit = true) (hback : ∀ c ∈ back, c.isDigit = true)
    (hps : PowerText ps e) (negative : Bool) :
    Numeral.decimal? negative (front ++ '.' :: back ++ ps)
      = some ⟨negative, digitsValue (front ++ back), e - back.length⟩ := by
  obtain ⟨hstop, hrest⟩ := hps.takeWhile_isDigit
  have hpoint : ('.' :: (back ++ ps)).takeWhile Char.isDigit = [] := rfl
  have hbehind : ('.' :: (back ++ ps)).dropWhile Char.isDigit = '.' :: (back ++ ps) := rfl
  rw [Numeral.decimal?, List.append_assoc, List.cons_append, List.takeWhile_append_of_pos hfront,
    List.dropWhile_append_of_pos hfront, hpoint, hbehind]
  simpa [List.takeWhile_append_of_pos hback, List.dropWhile_append_of_pos hback, hstop, hrest,
    hps.exponent?] using hne

/-- A decimal is read as its digits and its power of ten. -/
theorem UnsignedText.exists_decimal? {cs : List Char} {q : ℚ} (h : UnsignedText cs q)
    (negative : Bool) :
    ∃ d, Numeral.decimal? negative cs = some d ∧ d.negative = negative ∧ d.size = q := by
  obtain ⟨hcs, hps⟩ := h
  cases hcs with
  | whole hne hds => exact ⟨_, decimal?_of_whole hne hds hps negative, rfl, rfl⟩
  | point hne hfront hback =>
    exact ⟨_, decimal?_of_point hne hfront hback hps negative, rfl, size_of_point ..⟩

/-- Without a power of ten a decimal is worth its digits. -/
theorem PointText.unsignedText {cs : List Char} {v : ℚ} (h : PointText cs v) :
    UnsignedText cs v := by
  have hscaled := UnsignedText.scaled h .absent
  rwa [List.append_nil, zpow_zero, mul_one] at hscaled

/-- A decimal begins with a digit or a point. -/
theorem UnsignedText.exists_cons {cs : List Char} {q : ℚ} (h : UnsignedText cs q) :
    ∃ c rest, cs = c :: rest ∧ (c.isDigit = true ∨ c = '.') := by
  obtain ⟨hcs, -⟩ := h
  cases hcs with
  | whole hne hds =>
    obtain ⟨c, rest, rfl⟩ := List.exists_cons_of_ne_nil hne
    exact ⟨c, _, rfl, .inl (hds c List.mem_cons_self)⟩
  | @point front back hne hfront hback =>
    cases front with
    | nil => exact ⟨'.', _, rfl, .inr rfl⟩
    | cons c front => exact ⟨c, _, rfl, .inl (hfront c List.mem_cons_self)⟩

theorem signFree_unsignedText : SignFree UnsignedText := by
  intro c cs v h
  obtain ⟨c', rest, hcons, hc⟩ := h.exists_cons
  obtain ⟨rfl, rfl⟩ := List.cons.inj hcons
  rcases hc with hdigit | rfl
  · exact signFree_of_isDigit hdigit
  · decide

/-- **The value of a decimal is the one that is read**, before it is rounded. -/
theorem DecimalText.exists_parse? {cs : List Char} {q : ℚ} (h : DecimalText cs q) :
    ∃ d, Numeral.parse? cs = some (.decimal d) ∧ d.value = q := by
  obtain ⟨negative, body, w, hsplit, hbody, rfl⟩ := h.splitSign signFree_unsignedText
  obtain ⟨d, hd, rfl, rfl⟩ := hbody.exists_decimal? negative
  obtain ⟨c, rest, rfl, hc⟩ := hbody.exists_cons
  refine ⟨d, ?_, rfl⟩
  rw [Numeral.parse?_eq_decimal? hsplit hc, hd]
  rfl

/-- So the number of a decimal is its value, rounded. -/
theorem DecimalText.exists_ofText? {text : String} {q : ℚ} (h : DecimalText text.toList q) :
    ∃ d : Decimal, Binary64.ofText? text = some d.nearest ∧ d.value = q := by
  obtain ⟨d, hd, hvalue⟩ := h.exists_parse?
  exact ⟨d, by rw [Binary64.ofText?, hd]; rfl, hvalue⟩

theorem DecimalText.unique {cs : List Char} {q q' : ℚ} (h : DecimalText cs q)
    (h' : DecimalText cs q') : q = q' := by
  obtain ⟨d, hd, rfl⟩ := h.exists_parse?
  obtain ⟨d', hd', rfl⟩ := h'.exists_parse?
  rw [hd] at hd'
  cases hd'
  rfl

end LogSplit
