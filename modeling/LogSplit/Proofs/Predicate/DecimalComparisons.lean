import LogSplit.Proofs.Number.WrittenDecimals
import LogSplit.Proofs.Predicate.Interpretation
import LogSplit.Proofs.Predicate.PrintedConditions
import Mathlib.Tactic.NormNum

/-!
# Comparisons of decimals

The two sides of a comparison are written as decimals, and both are rounded before they are
compared.  Two decimals that are different may then be equal, so a comparison can be wrong on what
is written; but never the wrong way round, since rounding keeps the order
(`Decimal.rank_nearest_mono`).  `Operator.Respects` says what is left: where a cell is not above the
literal of a condition, `<=` holds and `>` does not, and so on for the other two pairs of operators
(`BoundCondition.holds_respects_decimals`).
-/

set_option autoImplicit false

namespace LogSplit

/-! ## What the order of two values decides -/

/-- The outcome of a comparison does not contradict the order of two values. -/
structure Operator.Respects (op : Operator) (x q : ℚ) (holds : Bool) : Prop where
  /-- The first is not above the second. -/
  of_le : x ≤ q → (op = .le → holds = true) ∧ (op = .gt → holds = false)
  /-- It is not below it. -/
  of_ge : q ≤ x → (op = .ge → holds = true) ∧ (op = .lt → holds = false)
  /-- It is neither. -/
  of_eq : x = q → (op = .eq → holds = true) ∧ (op = .ne → holds = false)

theorem Binary64.le_of_rank_le {x y : Binary64} (hx : x.isNaN = false) (hy : y.isNaN = false)
    (h : x.rank ≤ y.rank) : x.le y = true ∧ y.lt x = false := by
  simp [le, lt, hx, hy, h]

/-- **Comparing the nearest numbers of two decimals does not contradict their order.** -/
theorem Decimal.respects_apply (op : Operator) (d d' : Decimal) :
    op.Respects d.value d'.value (op.apply d.nearest d'.nearest) := by
  have hordered {d d' : Decimal} (h : d.value ≤ d'.value) :=
    Binary64.le_of_rank_le d.isNaN_nearest d'.isNaN_nearest (rank_nearest_mono h)
  refine ⟨fun h => ?_, fun h => ?_, fun h => ?_⟩
  · obtain ⟨hle, hlt⟩ := hordered h
    exact ⟨fun hop => hop ▸ hle, fun hop => hop ▸ hlt⟩
  · obtain ⟨hle, hlt⟩ := hordered h
    exact ⟨fun hop => hop ▸ hle, fun hop => hop ▸ hlt⟩
  · have hrank := le_antisymm (rank_nearest_mono h.le) (rank_nearest_mono h.ge)
    have hequal : d.nearest.equal d'.nearest = true := by
      simp [Binary64.equal, d.isNaN_nearest, d'.isNaN_nearest, hrank]
    exact ⟨fun hop => hop ▸ hequal, fun hop => hop ▸ congrArg Bool.not hequal⟩

/-! ## Literals -/

theorem IsUnsignedLiteral.exists_unsignedText {cs : List Char} (h : IsUnsignedLiteral cs) :
    ∃ q, UnsignedText cs q := by
  cases h with
  | digits hne hds => exact ⟨_, (PointText.whole hne hds).unsignedText⟩
  | point hwhole hne hds =>
    have hpoint := PointText.point (List.append_ne_nil_of_right_ne_nil _ hne) hwhole hds
    exact ⟨_, hpoint.unsignedText⟩

/-- The literal of a clause is a decimal. -/
theorem IsLiteral.exists_decimalText {cs : List Char} (h : IsLiteral cs) :
    ∃ q, DecimalText cs q := by
  cases h with
  | unsigned h =>
    obtain ⟨q, hq⟩ := h.exists_unsignedText
    exact ⟨q, .unsigned hq⟩
  | minus h =>
    obtain ⟨q, hq⟩ := h.exists_unsignedText
    exact ⟨-q, .minus hq⟩

/-! ## Conditions -/

/-- **No comparison contradicts what is written.**  The literal of a condition that was read from a
text is a decimal, and of a cell that is a decimal, blanks around it aside, the condition holds or
does not as the exact values of the two demand. -/
theorem BoundCondition.holds_respects_decimals {text : String} {s : ConditionSet}
    (hparse : ConditionSet.parse text = .ok s) {b : BoundCondition}
    (hb : b.condition ∈ s.conditions) :
    (∃ q, DecimalText b.condition.literal.toList q) ∧
      ∀ q, DecimalText b.condition.literal.toList q →
        ∀ (r : NumberedRow) (cell : String) (x : ℚ), r.row.get? b.column = some cell →
          DecimalText (Text.trim cell).toList x →
            ∃ holds, b.holds r = .ok holds ∧ b.condition.op.Respects x q holds := by
  have hwritten := ConditionSet.isWritten_of_parse hparse b.condition hb
  refine ⟨hwritten.isLiteral.exists_decimalText, fun q hq r cell x hcell hx => ?_⟩
  obtain ⟨d, hd, rfl⟩ := hx.exists_ofText?
  obtain ⟨d', hd', rfl⟩ := hq.exists_ofText?
  have hthreshold : d'.nearest = b.condition.threshold :=
    Option.some.inj (hd'.symm.trans hwritten.threshold)
  have hvalue : b.value r = .ok d.nearest := by
    rw [value, hcell]
    simp only [hd]
  refine ⟨_, holds_eq_ok_iff.2 ⟨_, hvalue, rfl⟩, ?_⟩
  rw [← hthreshold]
  exact d.respects_apply _ d'

/-- A condition that asks for a tenth. -/
def tenthCondition : BoundCondition := ⟨⟨"v", .eq, .ofBits 0x3FB999999999999A, ".1"⟩, 1⟩

theorem BoundCondition.holds_respects_decimals_tenth :
    ConditionSet.parse "v == .1" = .ok (.ofConditions [tenthCondition.condition]) ∧
      DecimalText ".1".toList (1 / 10) ∧ DecimalText (Text.trim " +10.0e-2 ").toList (1 / 10) ∧
      tenthCondition.holds ⟨2, ⟨["t", " +10.0e-2 "]⟩⟩ = .ok true := by
  have hparse : ConditionSet.parse "v == .1"
      = .ok (.ofConditions [tenthCondition.condition]) := by decide +kernel
  have hdigit {ds : List Char} (h : ds.all Char.isDigit = true) := List.all_eq_true.1 h
  have hliteral : DecimalText ".1".toList (1 / 10) := by
    have htext : DecimalText ".1".toList ((0 : ℕ) + (1 : ℕ) / 10 ^ 1) :=
      .unsigned (@PointText.point [] ['1'] (List.cons_ne_nil _ _) (hdigit rfl)
        (hdigit rfl)).unsignedText
    have hvalue : ((0 : ℕ) + (1 : ℕ) / 10 ^ 1 : ℚ) = 1 / 10 := by norm_num
    rwa [hvalue] at htext
  have hcell : DecimalText (Text.trim " +10.0e-2 ").toList (1 / 10) := by
    have htrim : (Text.trim " +10.0e-2 ").toList = "+10.0e-2".toList := by decide +kernel
    have hpower : PowerText "e-2".toList (-(2 : ℕ)) :=
      .marked (.inl rfl) (.minus (@WholeText.digits ['2'] (List.cons_ne_nil _ _) (hdigit rfl)))
    have htext : DecimalText "+10.0e-2".toList
        (((10 : ℕ) + (0 : ℕ) / 10 ^ 1) * 10 ^ (-(2 : ℕ) : ℤ)) :=
      .plus (.scaled (@PointText.point ['1', '0'] ['0'] (List.cons_ne_nil _ _) (hdigit rfl)
        (hdigit rfl)) hpower)
    have hvalue : ((10 : ℕ) + (0 : ℕ) / 10 ^ 1 : ℚ) * 10 ^ (-(2 : ℕ) : ℤ) = 1 / 10 := by norm_num
    rwa [hvalue, ← htrim] at htext
  obtain ⟨-, hrespects⟩ := BoundCondition.holds_respects_decimals hparse
    (b := tenthCondition) List.mem_cons_self
  obtain ⟨holds, hholds, hrespect⟩ := hrespects _ hliteral ⟨2, ⟨["t", " +10.0e-2 "]⟩⟩ _ _ rfl hcell
  refine ⟨hparse, hliteral, hcell, ?_⟩
  rw [hholds, (hrespect.of_eq rfl).1 rfl]

end LogSplit
