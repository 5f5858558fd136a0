import LogSplit.Predicate.Operator
import LogSplit.Proofs.Number.DenotedValue

/-!
# Operators compare exact values

An operator decides about two words what its relation says of the values that they denote, rational
numbers or infinities (`Operator.apply_compares_denoted`).  No bit of a word has a meaning of its
own there: both zeros denote zero, and of two negative numbers the one with the larger word is the
smaller one.  Every operator but `!=` fails when a word denotes nothing, so it is only among
denoted values that one of two opposite operators always holds.
-/

set_option autoImplicit false

namespace LogSplit

namespace Operator

/-! ## Relations -/

section Relates

variable {α β : Type} {v w : α}

/-- The relation that an operator stands for. -/
def Relates [LT α] [LE α] (op : Operator) (v w : α) : Prop :=
  match op with
  | lt => v < w
  | le => v ≤ w
  | gt => v > w
  | ge => v ≥ w
  | eq => v = w
  | ne => v ≠ w

/-- The operator that holds where the given one does not. -/
def complement : Operator → Operator
  | lt => ge
  | le => gt
  | gt => le
  | ge => lt
  | eq => ne
  | ne => eq

/-- The operator that holds with the two sides exchanged. -/
def converse : Operator → Operator
  | lt => gt
  | le => ge
  | gt => lt
  | ge => le
  | eq => eq
  | ne => ne

theorem relates_complement [LinearOrder α] (op : Operator) :
    op.complement.Relates v w ↔ ¬ op.Relates v w := by
  cases op with
  | lt => exact not_lt.symm
  | le => exact not_le.symm
  | gt => exact not_lt.symm
  | ge => exact not_le.symm
  | eq => exact Iff.rfl
  | ne => exact not_not.symm

/-- What preserves the strict order preserves all six relations. -/
theorem relates_of_strictMonoOn [LinearOrder α] [Preorder β] {f : α → β} {s : Set α}
    (hf : StrictMonoOn f s) (hv : v ∈ s) (hw : w ∈ s) (op : Operator) :
    op.Relates (f v) (f w) ↔ op.Relates v w := by
  cases op with
  | lt => exact hf.lt_iff_lt hv hw
  | le => exact hf.le_iff_le hv hw
  | gt => exact hf.lt_iff_lt hw hv
  | ge => exact hf.le_iff_le hw hv
  | eq => exact hf.injOn.eq_iff hv hw
  | ne => exact (hf.injOn.eq_iff hv hw).not

end Relates

/-! ## Ranks -/

variable {x y : Binary64}

theorem apply_iff_rank (hx : x.isNaN = false) (hy : y.isNaN = false) (op : Operator) :
    op.apply x y = true ↔ op.Relates x.rank y.rank := by
  cases op <;> simp [apply, Relates, Binary64.lt, Binary64.le, Binary64.equal, hx, hy]

theorem apply_iff_of_isNaN (h : x.isNaN = true ∨ y.isNaN = true) (op : Operator) :
    op.apply x y = true ↔ op = .ne := by
  rcases h with h | h <;> cases op <;>
    simp [apply, Binary64.lt, Binary64.le, Binary64.equal, h]

theorem apply_converse (op : Operator) (x y : Binary64) :
    op.converse.apply y x = op.apply x y := by
  have hequal : y.equal x = x.equal y := by
    rw [Binary64.equal, Binary64.equal, Bool.and_comm (!y.isNaN)]
    simp only [eq_comm]
  cases op with
  | lt => rfl
  | le => rfl
  | gt => rfl
  | ge => rfl
  | eq => exact hequal
  | ne => exact congrArg Bool.not hequal

/-! ## Words -/

open Binary64

/-- **Operators compare what two words denote.**  Where both denote a value, an operator holds just
if its relation does, and so just if the opposite operator does not.  Where one of them denotes
nothing, `!=` holds and no other operator.  To exchange the words is to exchange `<` with `>` and
`<=` with `>=`, whatever they denote. -/
theorem apply_compares_denoted (a b : BitVec 64) :
    (∀ v w, denoted? a = some v → denoted? b = some w → ∀ op : Operator,
      (op.apply (ofWord a) (ofWord b) = true ↔ op.Relates v w) ∧
      op.complement.apply (ofWord a) (ofWord b) = !op.apply (ofWord a) (ofWord b)) ∧
    (denoted? a = none ∨ denoted? b = none → ∀ op : Operator,
      op.apply (ofWord a) (ofWord b) = true ↔ op = .ne) ∧
    ∀ op : Operator, op.converse.apply (ofWord b) (ofWord a) = op.apply (ofWord a) (ofWord b) := by
  refine ⟨?_, fun hnone => ?_, fun op => apply_converse op _ _⟩
  · rintro v w hv hw op
    obtain ⟨ha, rfl⟩ := denoted?_eq_some_iff.1 hv
    obtain ⟨hb, rfl⟩ := denoted?_eq_some_iff.1 hw
    have hrelates (op : Operator) : op.apply (ofWord a) (ofWord b) = true ↔
        op.Relates (valueAt (ofWord a).rank) (valueAt (ofWord b).rank) :=
      (apply_iff_rank ha hb op).trans (relates_of_strictMonoOn strictMonoOn_valueAt
        (rank_mem_numberRanks.2 ha) (rank_mem_numberRanks.2 hb) op).symm
    refine ⟨hrelates op, Bool.eq_iff_iff.2 ?_⟩
    rw [hrelates, relates_complement, ← hrelates, Bool.not_eq_true, Bool.not_eq_true']
  · exact apply_iff_of_isNaN (hnone.imp denoted?_eq_none_iff.1 denoted?_eq_none_iff.1)

/-- Both zeros, the largest number below them, negative infinity and a not-a-number, in the order of
their words. -/
theorem apply_compares_denoted_negatives :
    let zero : BitVec 64 := 0
    let minusZero : BitVec 64 := 0x8000000000000000
    let below : BitVec 64 := 0x8000000000000001
    let lowest : BitVec 64 := 0xFFF0000000000000
    let nothing : BitVec 64 := 0xFFF0000000000001
    (denoted? zero = some 0 ∧ denoted? minusZero = some 0 ∧
      denoted? below = some ((-unit : ℚ) : WithBotTop ℚ) ∧ denoted? lowest = some ⊥ ∧
      denoted? nothing = none) ∧
    eq.apply (ofWord minusZero) (ofWord zero) = true ∧
    ge.apply (ofWord below) (ofWord minusZero) = false ∧
    gt.apply (ofWord below) (ofWord lowest) = true ∧
    ne.apply (ofWord nothing) (ofWord lowest) = true := by
  intro zero minusZero below lowest nothing
  have hzero : denoted? zero = some 0 := by
    have hunits : (ofWord zero).signedUnits = 0 := by decide
    rw [denoted?_of_isFinite (by decide), hunits, Int.cast_zero, zero_mul]
    rfl
  have hminusZero : denoted? minusZero = some 0 := by
    have hunits : (ofWord minusZero).signedUnits = 0 := by decide
    rw [denoted?_of_isFinite (by decide), hunits, Int.cast_zero, zero_mul]
    rfl
  have hbelow : denoted? below = some ((-unit : ℚ) : WithBotTop ℚ) := by
    have hunits : (ofWord below).signedUnits = -1 := by decide
    rw [denoted?_of_isFinite (by decide), hunits, Int.cast_neg, Int.cast_one, neg_one_mul]
  have hlowest : denoted? lowest = some ⊥ := by
    have hnegative : (ofWord lowest).negative = true := by decide
    rw [denoted?_of_isInfinite (by decide), hnegative, if_pos rfl]
  have hnothing : denoted? nothing = none := denoted?_eq_none_iff.2 (by decide)
  refine ⟨⟨hzero, hminusZero, hbelow, hlowest, hnothing⟩, ?_, ?_, ?_, ?_⟩
  · exact (((apply_compares_denoted minusZero zero).1 _ _ hminusZero hzero eq).1).2 rfl
  · obtain ⟨hrelates, hcomplement⟩ :=
      (apply_compares_denoted below minusZero).1 _ _ hbelow hminusZero lt
    have hlt := hrelates.2 (WithBotTop.coe_lt_coe.2 (neg_neg_of_pos unit_pos))
    rw [hlt] at hcomplement
    exact hcomplement
  · exact (((apply_compares_denoted below lowest).1 _ _ hbelow hlowest gt).1).2
      (bot_lt_iff_ne_bot.2 (WithBotTop.coe_ne_bot _))
  · exact ((apply_compares_denoted nothing lowest).2.1 (.inl hnothing) ne).2 rfl

end Operator

end LogSplit
