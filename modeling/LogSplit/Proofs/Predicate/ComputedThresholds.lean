import LogSplit.Proofs.Number.ShortestText
import LogSplit.Proofs.Predicate.PrintedConditions

/-!
# Conditions on computed thresholds

A condition that was not read from a text has the shortest text of its threshold for its literal.
That text is a decimal whatever the size of the threshold, never one with a power of ten, so such a
condition is read back as it is, unless its threshold is not finite: then its literal is a word, and
the condition is passed (`ConditionSet.parse_text_computed`).
-/

set_option autoImplicit false

namespace LogSplit

open Clause

/-- What spells a whole number of units is a literal. -/
theorem Decimal.Spells.isUnsignedLiteral {cs : List Char} {digits places : Nat}
    (h : Decimal.Spells cs digits places) : IsUnsignedLiteral cs := by
  cases h with
  | whole hne hds => exact .digits hne hds
  | point hfrontNe hfront hbackNe hback => exact .point hfront hbackNe hback

theorem Binary64.isLiteral_toText {x : Binary64} (h : x.isFinite = true) :
    IsLiteral x.toText.toList := by
  obtain ⟨digits, places, hspells, -⟩ :=
    (Binary64.shortestDecimal x.magnitude).exists_spells_positional
  rw [toText_of_isFinite h, String.toList_ofList]
  cases x.negative with
  | true => exact .minus hspells.isUnsignedLiteral
  | false => exact .unsigned hspells.isUnsignedLiteral

namespace Condition

/-- The literal is the text of the threshold. -/
def IsComputed (c : Condition) : Prop := c = ofThreshold c.field c.op c.threshold

theorem IsComputed.literal_eq {c : Condition} (h : c.IsComputed) : c.literal = c.threshold.toText :=
  congrArg Condition.literal h

theorem IsComputed.isWritten {c : Condition} (h : c.IsComputed) (hname : IsFieldName c.field)
    (hfinite : c.threshold.isFinite = true) : c.IsWritten where
  isFieldName := hname
  isLiteral := by
    rw [h.literal_eq]
    exact Binary64.isLiteral_toText hfinite
  threshold := by
    rw [h.literal_eq]
    exact Binary64.ofText?_toText hfinite

/-- The words for the numbers that are not finite are no literals. -/
theorem isUnreadable_of_mem {c : Condition} (hname : IsFieldName c.field)
    (h : c.literal ∈ ["NaN", "inf", "-inf"]) : c.IsUnreadable := by
  have hwords : ∀ word ∈ ["NaN", "inf", "-inf"], word ≠ "" ∧
      word.toList.all charClasses.operand = true ∧ number? (Utf8.encode word) = none := by decide
  obtain ⟨hne, hoperand, hnumber⟩ := hwords c.literal h
  exact ⟨hname, hne, List.all_eq_true.1 hoperand, hnumber⟩

end Condition

/-- **Conditions on finite thresholds are read as they are printed**, with the same bits in their
thresholds.  A condition on any other threshold is not read and does no harm to those next to
it. -/
theorem ConditionSet.parse_text_computed {cs : List Condition}
    (hname : ∀ c ∈ cs, IsFieldName c.field) (hcomputed : ∀ c ∈ cs, c.IsComputed) :
    ConditionSet.parse (ConditionSet.ofConditions cs).text
      = .ok (.ofConditions (cs.filter fun c => c.threshold.isFinite)) := by
  refine ConditionSet.parse_text_eq _ (fun c hc hfinite => ?_) (fun c hc hfinite => ?_)
  · exact (hcomputed c hc).isWritten (hname c hc) hfinite
  · refine Condition.isUnreadable_of_mem (hname c hc) ?_
    rw [(hcomputed c hc).literal_eq]
    exact Binary64.toText_of_not_isFinite hfinite

/-- Conditions on a negative zero, on infinity, on a sum of two decimals and on a number that is
none. -/
def mixedConditions : List Condition :=
  [.ofThreshold "zero" .eq (.ofBits 0x8000000000000000),
   .ofThreshold "load" .lt (.infinity false),
   .ofThreshold "sum_1" .ge (.ofBits 0x3FD3333333333334),
   .ofThreshold "rest" .ne (.nan true)]

set_option maxRecDepth 100000 in
theorem ConditionSet.parse_text_computed_mixed :
    (∀ c ∈ mixedConditions, IsFieldName c.field) ∧ (∀ c ∈ mixedConditions, c.IsComputed) ∧
      (ConditionSet.ofConditions mixedConditions).text
        = "zero == -0 && load < inf && sum_1 >= 0.30000000000000004 && rest != NaN" ∧
      ConditionSet.parse "zero == -0 && load < inf && sum_1 >= 0.30000000000000004 && rest != NaN"
        = .ok (.ofConditions [.ofThreshold "zero" .eq (.ofBits 0x8000000000000000),
            .ofThreshold "sum_1" .ge (.ofBits 0x3FD3333333333334)]) := by
  have hname : ∀ c ∈ mixedConditions, IsFieldName c.field := by
    have hall : ∀ c ∈ mixedConditions, c.field ≠ "" ∧
        c.field.toList.all charClasses.word = true := by decide
    exact fun c hc => ⟨(hall c hc).1, List.all_eq_true.1 (hall c hc).2⟩
  have hcomputed : ∀ c ∈ mixedConditions, c.IsComputed := by
    intro c hc
    simp only [mixedConditions, List.mem_cons, List.not_mem_nil, or_false] at hc
    rcases hc with rfl | rfl | rfl | rfl <;> rfl
  have htext : (ConditionSet.ofConditions mixedConditions).text
      = "zero == -0 && load < inf && sum_1 >= 0.30000000000000004 && rest != NaN" := by
    decide +kernel
  have hparse := ConditionSet.parse_text_computed hname hcomputed
  rw [htext] at hparse
  exact ⟨hname, hcomputed, htext, hparse.trans (by decide +kernel)⟩

end LogSplit
