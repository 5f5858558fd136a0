import LogSplit.Proofs.Predicate.Compiled
import LogSplit.Proofs.Segment.AgreeingScans
import LogSplit.Proofs.Segment.FewerConditions

/-!
# The order of conditions

Two condition sets that ask for the same comparisons may list them in different orders and repeat
some of them.  A row passes the one if it passes the other, and since no condition is skipped it
cannot be tested with the one if it cannot be tested with the other.  What differs is which
condition is the first to find no number in the row, and so which field the error names; its line is
that of the row in either case.

`segmentTable_of_sameConditions` carries this over to two scans of one table.  The sinks need not be
the same either, as long as they give the same answers.
-/

set_option autoImplicit false

namespace LogSplit

/-! ## The same comparisons -/

/-- Two conditions compare the same field with the same number in the same way; how the number is
written does not matter.  The two zeros are one number. -/
structure Condition.SameComparison (c c' : Condition) : Prop where
  /-- The same field. -/
  field_eq : c.field = c'.field
  /-- The same comparison. -/
  op_eq : c.op = c'.op
  /-- The same word, or words of one number. -/
  threshold : c.threshold = c'.threshold ∨ c.threshold.equal c'.threshold = true

/-- Two condition sets have the same conditions, in whatever order and however often. -/
structure ConditionSet.SameConditions (s s' : ConditionSet) : Prop where
  /-- Each condition of the first is one of the second. -/
  of_left : ∀ c ∈ s.conditions, ∃ c' ∈ s'.conditions, c.SameComparison c'
  /-- Each condition of the second is one of the first. -/
  of_right : ∀ c' ∈ s'.conditions, ∃ c ∈ s.conditions, c'.SameComparison c

/-- It is enough that each of two sets has all conditions of the other. -/
theorem ConditionSet.SameConditions.of_subset {s s' : ConditionSet}
    (hleft : s.conditions ⊆ s'.conditions) (hright : s'.conditions ⊆ s.conditions) :
    s.SameConditions s' :=
  ⟨fun c hc => ⟨c, hleft hc, rfl, rfl, .inl rfl⟩, fun c hc => ⟨c, hright hc, rfl, rfl, .inl rfl⟩⟩

theorem ConditionSet.SameConditions.symm {s s' : ConditionSet} (h : s.SameConditions s') :
    s'.SameConditions s :=
  ⟨h.of_right, h.of_left⟩

/-- A comparison does not tell words of one number apart. -/
theorem Operator.apply_congr {op : Operator} {x y y' : Binary64} (h : y.equal y' = true) :
    op.apply x y = op.apply x y' := by
  simp only [Binary64.equal, Bool.and_eq_true, Bool.not_eq_true', decide_eq_true_eq] at h
  obtain ⟨⟨hy, hy'⟩, hrank⟩ := h
  cases op <;> simp [apply, Binary64.lt, Binary64.le, Binary64.equal, hy, hy', hrank]

variable {h : Header} {s s' : ConditionSet} {p p' : CompiledPredicate} {r : NumberedRow}

/-- A condition that is bound to the same column as another says the same of every row. -/
theorem BoundCondition.holds_eq {b b' : BoundCondition} (hcolumn : b.column = b'.column)
    (hsame : b.condition.SameComparison b'.condition) (r : NumberedRow) :
    b.holds r = b'.holds r := by
  have hvalue : b.value r = b'.value r := by rw [value, value, hcolumn, hsame.field_eq]
  rw [holds, holds, hvalue, hsame.op_eq]
  obtain hthreshold | hequal := hsame.threshold
  · rw [hthreshold]
  · simp only [Operator.apply_congr hequal]

namespace CompiledPredicate

/-- Both sets compile, or none of them does. -/
theorem exists_compile_of_sameConditions (hsame : s.SameConditions s')
    (hp : ∃ p, compile h s = .ok p) : ∃ p', compile h s' = .ok p' := by
  rw [exists_compile_iff] at hp ⊢
  intro c' hc'
  obtain ⟨c, hc, hcomparison⟩ := hsame.of_right c' hc'
  rw [hcomparison.field_eq]
  exact hp c hc

/-- Each bound condition has a counterpart that says the same of every row. -/
theorem exists_holds_eq (hsame : s.SameConditions s') (hp : compile h s = .ok p)
    (hp' : compile h s' = .ok p') {b : BoundCondition} (hb : b ∈ p.conditions) :
    ∃ b' ∈ p'.conditions, ∀ r, b.holds r = b'.holds r := by
  obtain ⟨hmem, hcolumn⟩ := (mem_conditions_iff hp).1 hb
  obtain ⟨c', hc', hcomparison⟩ := hsame.of_left b.condition hmem
  rw [hcomparison.field_eq] at hcolumn
  exact ⟨⟨c', b.column⟩, (mem_conditions_iff hp').2 ⟨hc', hcolumn⟩,
    BoundCondition.holds_eq rfl hcomparison⟩

theorem test_eq_ok_of_sameConditions (hsame : s.SameConditions s') (hp : compile h s = .ok p)
    (hp' : compile h s' = .ok p') {passes : Bool} (htest : p.test r = .ok passes) :
    p'.test r = .ok passes := by
  obtain ⟨hnumbers, hpasses⟩ := test_eq_ok_iff.1 htest
  refine test_eq_ok_iff.2
    ⟨fun b' hb' => ?_, hpasses.trans ⟨fun hall b' hb' => ?_, fun hall b hb => ?_⟩⟩
  · obtain ⟨b, hb, heq⟩ := exists_holds_eq hsame.symm hp' hp hb'
    rw [heq]
    exact hnumbers b hb
  · obtain ⟨b, hb, heq⟩ := exists_holds_eq hsame.symm hp' hp hb'
    rw [heq]
    exact hall b hb
  · obtain ⟨b', hb', heq⟩ := exists_holds_eq hsame hp hp' hb
    rw [heq]
    exact hall b' hb'

/-- **The order of conditions does not matter to a row**, but for the field that an error names. -/
theorem test_sameConditions (hsame : s.SameConditions s') (hp : compile h s = .ok p)
    (hp' : compile h s' = .ok p') (r : NumberedRow) :
    SameUpTo (fun e e' => e.line = e'.line) (p.test r) (p'.test r) := by
  cases htest : p.test r with
  | ok passes =>
    rw [test_eq_ok_of_sameConditions hsame hp hp' htest]
    exact .ok passes
  | error e =>
    cases htest' : p'.test r with
    | ok passes => cases htest.symm.trans (test_eq_ok_of_sameConditions hsame.symm hp' hp htest')
    | error e' =>
      refine .error ?_
      rw [line_of_test_eq_error htest, line_of_test_eq_error htest']

end CompiledPredicate

/-! ## Two scans -/

variable {σ τ : Type} {sink : Segment → StateM σ (Except SplitError Unit)} {st : σ}
  {sink' : Segment → StateM τ (Except SplitError Unit)} {st' : τ}

/-- **The order and repetition of conditions do not matter.**  Two sets with the same conditions
both compile or both do not.  If they do, two scans of a table hand the same segments to sinks that
give the same answers, test the same rows, and end with the same counts, with the same refusal, or
with errors of one row.  Each sink has accepted the segments that are in its notes, or has refused
the last of them (`accepts_of_notes`). -/
theorem segmentTable_of_sameConditions (hsame : s.SameConditions s') (t : Table)
    (hsinks : AnswersAlike (· = ·) sink st sink' st') :
    (∃ e e', CompiledPredicate.compile t.header s = .error e ∧
      CompiledPredicate.compile t.header s' = .error e') ∨
    ∃ p p' outcome outcome' st₂ st₂' told told',
      CompiledPredicate.compile t.header s = .ok p ∧
        CompiledPredicate.compile t.header s' = .ok p' ∧
        segmentTable noteEvent (besideNotes sink) p t (st, []) = (outcome, (st₂, told)) ∧
        segmentTable noteEvent (besideNotes sink') p' t (st', []) = (outcome', (st₂', told')) ∧
        closedSegments told = closedSegments told' ∧ testedRows told = testedRows told' ∧
        SameUpTo (SplitError.Alike fun e e' => e.line = e'.line) outcome outcome' := by
  cases hp : CompiledPredicate.compile t.header s with
  | error e =>
    cases hp' : CompiledPredicate.compile t.header s' with
    | error e' => exact .inl ⟨e, e', rfl, rfl⟩
    | ok p' =>
      obtain ⟨p, hp₁⟩ := CompiledPredicate.exists_compile_of_sameConditions hsame.symm ⟨p', hp'⟩
      cases hp.symm.trans hp₁
  | ok p =>
    obtain ⟨p', hp'⟩ := CompiledPredicate.exists_compile_of_sameConditions hsame ⟨p, hp⟩
    have htest : ∀ r r', r = r' →
        SameUpTo (fun e e' => e.line = e'.line) (p.test r) (p'.test r') := by
      rintro r _ rfl
      exact CompiledPredicate.test_sameConditions hsame hp hp' r
    have hrows : List.Forall₂ (· = ·) t.body t.body := List.forall₂_same.2 fun _ _ => rfl
    obtain ⟨outcome, outcome', st₂, st₂', told, told', hrun, hrun', htold, houtcome⟩ :=
      segmentTable_agree htest hrows hsinks
    have hclosed : closedSegments told = closedSegments told' := by
      rw [← List.forall₂_eq_eq_eq]
      exact (closedSegments_agree htold).imp fun _ _ => Segment.Agree.eq
    exact .inr ⟨p, p', outcome, outcome', st₂, st₂', told, told', rfl, hp', hrun, hrun', hclosed,
      testedRows_agree htold, houtcome⟩

/-- A sink that counts down and then has no room. -/
def countDown (_ : Segment) : StateM Nat (Except SplitError Unit)
  | 0 => (.error (.config "no room"), 0)
  | room + 1 => (.ok (), room)

theorem length_of_accepts_countDown {room room' : Nat} {segments : List Segment}
    (h : Accepts countDown room segments room') : room = room' + segments.length := by
  induction h with
  | nil => rfl
  | @cons st _ _ _ _ hs _ ih =>
    cases st with
    | zero => cases hs
    | succ room =>
      obtain rfl := (Prod.mk.inj hs).2
      rw [ih, List.length_cons]
      rfl

theorem answersAlike_countDown (rel : NumberedRow → NumberedRow → Prop) (room : Nat) :
    AnswersAlike rel (keepUpTo room) [] countDown room := by
  intro front front' s s' kept left hfront _ hkept hleft
  have hkept := length_of_accepts_keepUpTo hkept
  have hleft := length_of_accepts_countDown hleft
  rw [List.length_nil, hfront.length_eq] at hkept
  cases left with
  | zero =>
    have hfull : ¬ kept.length < room := by omega
    rw [keepUpTo, if_neg hfull]
    rfl
  | succ left =>
    have hroom : kept.length < room := by omega
    rw [keepUpTo, if_pos hroom]
    rfl

/-- Two columns with a run of ones each, and a row without a number in either. -/
def unreadable : Table :=
  .ofRows ⟨["v", "w"]⟩ [⟨["1", "1"]⟩, ⟨["0", "1"]⟩, ⟨["x", "y"]⟩, ⟨["1", "1"]⟩]

/-- The condition that both fields are one or more. -/
def bothOnes : ConditionSet := .ofConditions [atLeastOne "v", atLeastOne "w"]

/-- The same the other way round, and with a repetition. -/
def bothOnesAgain : ConditionSet := .ofConditions [atLeastOne "w", atLeastOne "v", atLeastOne "w"]

/-- The error names the field of the condition that comes first. -/
theorem segmentTable_of_sameConditions_unreadable :
    bothOnes.SameConditions bothOnesAgain ∧
      AnswersAlike (· = ·) (keepUpTo 1) [] countDown 1 ∧
      ((∃ e e', CompiledPredicate.compile unreadable.header bothOnes = .error e ∧
        CompiledPredicate.compile unreadable.header bothOnesAgain = .error e') ∨
      ∃ p p' outcome outcome' st₂ st₂' told told',
        CompiledPredicate.compile unreadable.header bothOnes = .ok p ∧
          CompiledPredicate.compile unreadable.header bothOnesAgain = .ok p' ∧
          segmentTable noteEvent (besideNotes (keepUpTo 1)) p unreadable ([], [])
            = (outcome, (st₂, told)) ∧
          segmentTable noteEvent (besideNotes countDown) p' unreadable (1, [])
            = (outcome', (st₂', told')) ∧
          closedSegments told = closedSegments told' ∧ testedRows told = testedRows told' ∧
          SameUpTo (SplitError.Alike fun e e' => e.line = e'.line) outcome outcome') ∧
      (segmentTable noteEvent (besideNotes (keepUpTo 1))
          ⟨[⟨atLeastOne "v", 0⟩, ⟨atLeastOne "w", 1⟩]⟩ unreadable ([], [])).1
        = .error (.row (.notNumeric 4 "v" "x")) ∧
      (segmentTable noteEvent (besideNotes countDown)
          ⟨[⟨atLeastOne "w", 1⟩, ⟨atLeastOne "v", 0⟩, ⟨atLeastOne "w", 1⟩]⟩ unreadable (1, [])).1
        = .error (.row (.notNumeric 4 "w" "y")) := by
  have hsame : bothOnes.SameConditions bothOnesAgain := by
    apply ConditionSet.SameConditions.of_subset <;>
      simp [bothOnes, bothOnesAgain, ConditionSet.ofConditions]
  have hsinks : AnswersAlike (· = ·) (keepUpTo 1) [] countDown 1 := answersAlike_countDown _ 1
  exact ⟨hsame, hsinks, segmentTable_of_sameConditions hsame unreadable hsinks,
    by decide +kernel, by decide +kernel⟩

end LogSplit
