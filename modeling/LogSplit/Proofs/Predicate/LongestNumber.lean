import LogSplit.Proofs.Number.RoundingOrder
import LogSplit.Proofs.Predicate.WholeWords
import Mathlib.Computability.Language
import Mathlib.Order.Bounds.Basic

/-!
# The number of a clause is the longest decimal

A decimal is `-?(digits? '.')? digits`, where `digits` are one or more ASCII digits: with a point
there may be no digit in front of it, but there is always one behind.  `Clause.decimals` is the
language of these texts, put together from its parts without regard to how a number is cut off.

Cutting off takes digits for as long as there are any, and a point only if a digit follows, and
never goes back.  It finds the longest decimal all the same (`Clause.numberEnd?_longest`), and what
it finds is a number to the reader of numerals, too.  The two grammars do not have to be compared
any more when a clause is put together: no clause is lost for its literal.
-/

set_option autoImplicit false

namespace LogSplit

namespace Clause

/-! ## Decimals -/

/-- One or more ASCII digits. -/
def digits : Language UInt8 := {bs | bs ≠ [] ∧ ∀ b ∈ bs, isDigitByte b = true}

/-- `(digits? '.')? digits` -/
def unsignedDecimals : Language UInt8 := (1 + (1 + digits) * {[46]}) * digits

/-- `-?(digits? '.')? digits` -/
def decimals : Language UInt8 := (1 + {[45]}) * unsignedDecimals

theorem mem_unsignedDecimals {text : Bytes} : text ∈ unsignedDecimals ↔ IsUnsigned text := by
  constructor
  · rintro ⟨front, hfront, ds, ⟨hne, hds⟩, rfl⟩
    rcases hfront with rfl | ⟨whole, hwhole, point, rfl, rfl⟩
    · exact ⟨ds, [], by simp, hds, Or.inl ⟨rfl, hne⟩⟩
    · refine ⟨whole, 46 :: ds, by simp, ?_, Or.inr ⟨ds, rfl, hne, hds⟩⟩
      rcases hwhole with rfl | hwhole
      · simp
      · exact hwhole.2
  · rintro ⟨whole, part, rfl, hwhole, ⟨rfl, hne⟩ | ⟨ds, rfl, hne, hds⟩⟩
    · exact ⟨[], Or.inl rfl, whole, ⟨hne, hwhole⟩, by simp⟩
    · refine ⟨whole ++ [46], Or.inr ⟨whole, ?_, [46], rfl, rfl⟩, ds, ⟨hne, hds⟩, by simp⟩
      by_cases hnil : whole = []
      · exact Or.inl hnil
      · exact Or.inr ⟨hnil, hwhole⟩

theorem mem_decimals {text : Bytes} :
    text ∈ decimals ↔ IsUnsigned text ∨ ∃ rest, text = 45 :: rest ∧ IsUnsigned rest := by
  simp only [decimals, Language.mem_mul, Language.mem_add, Language.mem_one, mem_unsignedDecimals]
  constructor
  · rintro ⟨sign, rfl | rfl, rest, hrest, rfl⟩
    · exact Or.inl hrest
    · exact Or.inr ⟨rest, rfl, hrest⟩
  · rintro (htext | ⟨rest, rfl, hrest⟩)
    · exact ⟨[], Or.inl rfl, text, htext, rfl⟩
    · exact ⟨[45], Or.inr rfl, rest, hrest, rfl⟩

theorem ne_nil_of_mem_decimals {text : Bytes} (h : text ∈ decimals) : text ≠ [] := by
  rcases mem_decimals.1 h with htext | ⟨rest, rfl, -⟩
  · obtain ⟨b, tail, rfl, -⟩ := htext.exists_cons
    simp
  · simp

/-! ## The longest one -/

/-- No decimal at the front is longer than the one that is cut off. -/
theorem length_le_unsigned? {bs text : Bytes} (htext : IsUnsigned text) (hfront : text <+: bs) :
    ∃ longest, unsigned? bs = some longest ∧ text.length ≤ longest.length := by
  obtain ⟨whole, part, rfl, hwhole, hpart⟩ := htext
  obtain ⟨rest, rfl⟩ := hfront
  rcases hpart with ⟨rfl, hne⟩ | ⟨ds, rfl, hne, hds⟩
  · -- more digits may follow, and a fraction
    have htake : (whole ++ rest).takeWhile isDigitByte = whole ++ rest.takeWhile isDigitByte :=
      List.takeWhile_append_of_pos hwhole
    simp [unsigned?, htake, hne]
  · -- the point ends the digits in front of it
    have htake : (whole ++ 46 :: (ds ++ rest)).takeWhile isDigitByte = whole := by
      rw [takeWhile_append_of_stops (stops_cons rfl _), List.takeWhile_eq_self_iff.2 hwhole]
    have hfraction : fraction (46 :: (ds ++ rest)) = 46 :: (ds ++ rest.takeWhile isDigitByte) := by
      rw [fraction_cons_point rfl, List.takeWhile_append_of_pos hds, if_pos (by simp [hne])]
    simp [unsigned?, htake, hfraction]

theorem length_le_number? {bs text : Bytes} (htext : text ∈ decimals) (hfront : text <+: bs) :
    ∃ longest, number? bs = some longest ∧ text.length ≤ longest.length := by
  rcases mem_decimals.1 htext with htext | ⟨rest, rfl, hrest⟩
  · obtain ⟨b, tail, rfl, hb⟩ := htext.exists_cons
    obtain ⟨longest, hlongest, hle⟩ := length_le_unsigned? htext hfront
    obtain ⟨behind, rfl⟩ := hfront
    have hminus : b.toNat ≠ 45 := by
      rcases hb with hb | rfl
      · intro h
        rw [isDigitByte_of_toNat (Or.inl h)] at hb
        cases hb
      · decide
    exact ⟨longest, by simpa [number?, hminus] using hlongest, hle⟩
  · obtain ⟨behind, rfl⟩ := hfront
    obtain ⟨longest, hlongest, hle⟩ := length_le_unsigned? hrest (List.prefix_append rest behind)
    exact ⟨45 :: longest, by simp [number?, hlongest], by simpa using hle⟩

theorem mem_decimals_of_number? {bs literal : Bytes} (h : number? bs = some literal) :
    literal ∈ decimals :=
  mem_decimals.2 (isUnsigned_of_number? h)

/-! ## Where it ends -/

/-- Where the number that begins at `start` ends. -/
def numberEnd? (bytes : Bytes) (start : Nat) : Option Nat :=
  (number? (bytes.drop start)).map fun literal => start + literal.length

/-- Where a decimal that begins at `start` may end. -/
def decimalEnds (bytes : Bytes) (start : Nat) : Set Nat :=
  {stop | start ≤ stop ∧ stop ≤ bytes.length ∧ bytes.extract start stop ∈ decimals}

theorem extract_prefix_drop (bytes : Bytes) (start stop : Nat) :
    bytes.extract start stop <+: bytes.drop start := by
  rw [List.extract_eq_take_drop]
  exact List.take_prefix _ _

theorem extract_of_number? {bytes literal : Bytes} {start : Nat}
    (h : number? (bytes.drop start) = some literal) :
    bytes.extract start (start + literal.length) = literal := by
  rw [List.extract_eq_take_drop, Nat.add_sub_cancel_left]
  exact (List.prefix_iff_eq_take.1 (prefix_of_number? h)).symm

theorem isGreatest_of_number? {bytes literal : Bytes} {start : Nat}
    (h : number? (bytes.drop start) = some literal) :
    IsGreatest (decimalEnds bytes start) (start + literal.length) := by
  have hlength : 0 < literal.length ∧ start + literal.length ≤ bytes.length := by
    have hle := (prefix_of_number? h).length_le
    have hne : literal ≠ [] := ne_nil_of_mem_decimals (mem_decimals_of_number? h)
    have hpos := List.length_pos_iff.2 hne
    rw [List.length_drop] at hle
    omega
  refine ⟨⟨Nat.le_add_right _ _, hlength.2, ?_⟩, ?_⟩
  · rw [extract_of_number? h]
    exact mem_decimals_of_number? h
  · rintro stop ⟨hstart, hstop, hdecimal⟩
    obtain ⟨longest, hlongest, hle⟩ :=
      length_le_number? hdecimal (extract_prefix_drop bytes start stop)
    obtain rfl : literal = longest := Option.some_inj.1 (h.symm.trans hlongest)
    simp only [List.extract_eq_take_drop, List.length_take, List.length_drop] at hle
    omega

theorem numberEnd?_eq_some_iff {bytes : Bytes} {start stop : Nat} :
    numberEnd? bytes start = some stop ↔ IsGreatest (decimalEnds bytes start) stop := by
  constructor
  · intro h
    obtain ⟨literal, hliteral, rfl⟩ := Option.map_eq_some_iff.1 h
    exact isGreatest_of_number? hliteral
  · intro h
    obtain ⟨literal, hliteral, -⟩ :=
      length_le_number? h.1.2.2 (extract_prefix_drop bytes start stop)
    rw [h.unique (isGreatest_of_number? hliteral)]
    simp [numberEnd?, hliteral]

theorem numberEnd?_eq_none_iff {bytes : Bytes} {start : Nat} :
    numberEnd? bytes start = none ↔ decimalEnds bytes start = ∅ := by
  constructor
  · intro h
    refine Set.eq_empty_of_forall_notMem fun stop hstop => ?_
    obtain ⟨literal, hliteral, -⟩ :=
      length_le_number? hstop.2.2 (extract_prefix_drop bytes start stop)
    simp [numberEnd?, hliteral] at h
  · intro h
    refine Option.eq_none_iff_forall_ne_some.2 fun stop hstop => ?_
    have hmem := (numberEnd?_eq_some_iff.1 hstop).1
    simp [h] at hmem

/-! ## What it is worth -/

/-- The text of a number that is cut off has a value, and that is a number. -/
theorem exists_value_of_number? {bs literal : Bytes} (h : number? bs = some literal) :
    ∃ value, Binary64.ofText? (asciiText literal) = some value ∧ value.isNaN = false := by
  obtain ⟨decimal, hdecimal⟩ := exists_parse?_of_number? h
  refine ⟨decimal.nearest, ?_, decimal.isNaN_nearest⟩
  rw [Binary64.ofText?, toList_asciiText, hdecimal]
  rfl

/-- **The number of a clause is the longest decimal there, and it always has a value.**  From any
place in any bytes on it ends at the last of the places where a decimal from there can end, and
there is none exactly if there is no such place.  What it cuts out is a text of a number, and not
of a not-a-number; so what misses at a place without a clause is a field, an operator or a number,
and never the value of a literal. -/
theorem numberEnd?_longest (bytes : Bytes) (start : Nat) :
    (∀ stop, numberEnd? bytes start = some stop ↔ IsGreatest (decimalEnds bytes start) stop) ∧
    (numberEnd? bytes start = none ↔ decimalEnds bytes start = ∅) ∧
    (∀ stop, numberEnd? bytes start = some stop →
      ∃ value, Binary64.ofText? (asciiText (bytes.extract start stop)) = some value ∧
        value.isNaN = false) ∧
    ∀ offset, matchAt offset bytes = .none ↔
      bytes.takeWhile isWordByte = [] ∨ (operatorCut bytes).1 = [] ∨
        number? (atNumber bytes) = none := by
  refine ⟨fun stop => numberEnd?_eq_some_iff, numberEnd?_eq_none_iff, fun stop hstop => ?_,
    fun offset => matchAt_eq_none_iff⟩
  obtain ⟨literal, hliteral, rfl⟩ := Option.map_eq_some_iff.1 hstop
  rw [extract_of_number? hliteral]
  exact exists_value_of_number? hliteral

/-- In `v > -.5.` the number ends in front of the last point. -/
theorem numberEnd?_longest_points :
    let bytes := Utf8.encode "v > -.5."
    numberEnd? bytes 4 = some 7 ∧ IsGreatest (decimalEnds bytes 4) 7 ∧
      ∃ value, Binary64.ofText? (asciiText (bytes.extract 4 7)) = some value ∧
        value.isNaN = false := by
  intro bytes
  have hstop : numberEnd? bytes 4 = some 7 := by decide +kernel
  obtain ⟨hends, -, hvalue, -⟩ := numberEnd?_longest bytes 4
  exact ⟨hstop, (hends 7).1 hstop, hvalue 7 hstop⟩

end Clause

end LogSplit
