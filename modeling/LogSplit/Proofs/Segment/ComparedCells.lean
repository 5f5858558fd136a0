import LogSplit.Proofs.Predicate.Compiled
import LogSplit.Proofs.Segment.AgreeingScans

/-!
# Only compared cells count

A test of a row reads the cells in the columns of the conditions and nothing else, and blanks around
them are of no account.  So two tables can be scanned alike that have the same cells in these
columns but for blanks, or the same rows too short for them (`NumberedRow.AgreeOn`): what stands in
the other columns, and how many there are, has no influence on the segments
(`segmentTable_of_agreeOn`).

Only the text of an error can tell the two tables apart, since it shows a cell that is no number
with its blanks.
-/

set_option autoImplicit false

namespace LogSplit

variable {p : CompiledPredicate} {r r' : NumberedRow}

/-! ## Rows -/

/-- Two rows have one line and, in every column that is compared, the same cell but for the blanks
around it, or no cell. -/
structure NumberedRow.AgreeOn (p : CompiledPredicate) (r r' : NumberedRow) : Prop where
  /-- The same line. -/
  line_eq : r.line = r'.line
  /-- The same compared cells. -/
  cells : ∀ b ∈ p.conditions,
    (r.row.get? b.column).map Text.trim = (r'.row.get? b.column).map Text.trim

/-- Two errors are of one kind, and name the same line and the same field. -/
inductive RowError.SameKind : RowError → RowError → Prop where
  /-- A cell is missing. -/
  | missingCell (line : Nat) (field : String) :
    SameKind (.missingCell line field) (.missingCell line field)
  /-- A cell is no number. -/
  | notNumeric (line : Nat) (field : String) {value value' : String}
    (h : Text.trim value = Text.trim value') :
    SameKind (.notNumeric line field value) (.notNumeric line field value')

theorem RowError.SameKind.refl (e : RowError) : e.SameKind e := by
  cases e with
  | missingCell line field => exact .missingCell line field
  | notNumeric line field value => exact .notNumeric line field rfl

/-- Two errors are of rows, of one kind, and name the same line and the same field. -/
inductive SplitError.SameKind : SplitError → SplitError → Prop where
  /-- Errors of rows. -/
  | row {e e' : RowError} (h : e.SameKind e') : SameKind (.row e) (.row e')

/-- A condition reads the same from rows that agree. -/
theorem NumberedRow.AgreeOn.value (h : r.AgreeOn p r') {b : BoundCondition}
    (hb : b ∈ p.conditions) : SameUpTo RowError.SameKind (b.value r) (b.value r') := by
  have hcell := h.cells b hb
  rw [BoundCondition.value, BoundCondition.value, h.line_eq]
  cases hget : r.row.get? b.column with
  | none =>
    rw [hget] at hcell
    rw [Option.map_eq_none_iff.1 hcell.symm]
    exact .error (.missingCell _ _)
  | some cell =>
    rw [hget] at hcell
    obtain ⟨cell', hget', htrim⟩ := Option.map_eq_some_iff.1 hcell.symm
    rw [hget']
    dsimp only
    rw [htrim]
    cases Binary64.ofText? (Text.trim cell) with
    | none => exact .error (.notNumeric _ _ htrim.symm)
    | some x => exact .ok x

theorem NumberedRow.AgreeOn.holds (h : r.AgreeOn p r') {b : BoundCondition}
    (hb : b ∈ p.conditions) : SameUpTo RowError.SameKind (b.holds r) (b.holds r') := by
  have hvalue := h.value hb
  rw [BoundCondition.holds, BoundCondition.holds]
  generalize b.value r = found, b.value r' = found' at hvalue
  cases hvalue with
  | ok x => exact .ok _
  | error he => exact .error he

/-- **Rows that agree in the compared cells are tested alike.** -/
theorem NumberedRow.AgreeOn.test (h : r.AgreeOn p r') :
    SameUpTo RowError.SameKind (p.test r) (p.test r') := by
  cases htest : p.test r with
  | ok passes =>
    obtain ⟨hnumbers, hpasses⟩ := CompiledPredicate.test_eq_ok_iff.1 htest
    have htest' : p.test r' = .ok passes := by
      refine CompiledPredicate.test_eq_ok_iff.2 ⟨fun b hb => ?_, hpasses.trans ?_⟩
      · obtain ⟨holds, hholds⟩ := hnumbers b hb
        exact ⟨holds, (h.holds hb).eq_ok_iff.1 hholds⟩
      · exact forall₂_congr fun b hb => (h.holds hb).eq_ok_iff
    rw [htest']
    exact .ok passes
  | error e =>
    obtain ⟨front, b, back, hsplit, hfront, hb⟩ := CompiledPredicate.test_eq_error_iff.1 htest
    have hagree : ∀ b' ∈ front ++ b :: back,
        SameUpTo RowError.SameKind (b'.holds r) (b'.holds r') := by
      rw [← hsplit]
      exact fun b' hb' => h.holds hb'
    obtain ⟨e', hb', he⟩ := (hb ▸ hagree b (by simp)).exists_error
    have htest' : p.test r' = .error e' := by
      refine CompiledPredicate.test_eq_error_iff.2
        ⟨front, b, back, hsplit, fun b' hfront' => ?_, hb'⟩
      obtain ⟨holds, hholds⟩ := hfront b' hfront'
      exact ⟨holds, (hagree b' (List.mem_append_left _ hfront')).eq_ok_iff.1 hholds⟩
    rw [htest']
    exact .error he

/-! ## Two scans -/

/-- The number, the place and the length of a segment. -/
def Segment.span (s : Segment) : Nat × Nat × Nat := (s.index, s.start, s.length)

theorem Segment.Agree.span_eq {rel : NumberedRow → NumberedRow → Prop} {s s' : Segment}
    (h : s.Agree rel s') : s.span = s'.span := by
  rw [Segment.span, Segment.span, h.index_eq, h.start_eq, h.length_eq]

variable {σ τ : Type} {sink : Segment → StateM σ (Except SplitError Unit)}
  {sink' : Segment → StateM τ (Except SplitError Unit)}

/-- **Only compared cells count.**  Two tables have the same number of rows, on the same lines, with
the same cells in the compared columns but for blanks.  Then two scans hand segments of the same
number, place and length to sinks that accept whatever they are given, test the same rows, and end
with the same counts or with errors of one kind, line and field.  The segments are read off the
notes; they are those that the sinks have accepted (`accepts_of_notes_of_neverFails`). -/
theorem segmentTable_of_agreeOn (p : CompiledPredicate) {t t' : Table}
    (hrows : List.Forall₂ (NumberedRow.AgreeOn p) t.body t'.body)
    (hsink : ∀ s, NeverFails (sink s)) (hsink' : ∀ s, NeverFails (sink' s)) (st : σ) (st' : τ) :
    ∃ outcome outcome' st₂ st₂' told told',
      segmentTable noteEvent (besideNotes sink) p t (st, []) = (outcome, (st₂, told)) ∧
        segmentTable noteEvent (besideNotes sink') p t' (st', []) = (outcome', (st₂', told')) ∧
        (closedSegments told).map Segment.span = (closedSegments told').map Segment.span ∧
        testedRows told = testedRows told' ∧ SameUpTo SplitError.SameKind outcome outcome' := by
  obtain ⟨outcome, outcome', st₂, st₂', told, told', hrun, hrun', htold, houtcome⟩ :=
    segmentTable_agree (fun _ _ => NumberedRow.AgreeOn.test) hrows
      (answersAlike_of_neverFails hsink hsink' : AnswersAlike _ sink st sink' st')
  have hspans :
      (closedSegments told).map Segment.span = (closedSegments told').map Segment.span := by
    rw [← List.forall₂_eq_eq_eq, List.forall₂_map_left_iff, List.forall₂_map_right_iff]
    exact (closedSegments_agree htold).imp fun _ _ => Segment.Agree.span_eq
  refine ⟨outcome, outcome', st₂, st₂', told, told', hrun, hrun', hspans,
    testedRows_agree htold, ?_⟩
  obtain ⟨outcome₁, st₁, told₁, hrun₁, hended⟩ := segmentTable_notes sink st p t
  obtain ⟨rfl, -⟩ := Prod.mk.inj (hrun.symm.trans hrun₁)
  cases houtcome with
  | ok summary => exact .ok summary
  | error he =>
    -- a sink that never fails leaves a row that cannot be tested
    obtain ⟨cause, -, hcause⟩ | ⟨-, -, hok⟩ := hended.of_neverFails hsink
    · obtain rfl := Except.error.inj hcause
      cases he with
      | refusal => exact .error (.row (.refl cause))
      | row hkind => exact .error (.row hkind)
    · cases hok

/-- A run of two ones, and a row at the end that is no number. -/
def narrow : Table :=
  .ofRows ⟨["v", "w"]⟩ [⟨["1", "a"]⟩, ⟨["1"]⟩, ⟨["0", "b"]⟩, ⟨["x"]⟩]

/-- The same with blanks, other notes and more cells. -/
def padded : Table :=
  .ofRows ⟨["v", "w"]⟩ [⟨[" 1"]⟩, ⟨["1", "c", "d"]⟩, ⟨["0\t"]⟩, ⟨["x ", "e"]⟩]

/-- The error shows the cell with its blanks. -/
theorem segmentTable_of_agreeOn_padded :
    List.Forall₂ (NumberedRow.AgreeOn isOne) narrow.body padded.body ∧ (∀ s, NeverFails (keep s)) ∧
      (∃ outcome outcome' st₂ st₂' told told',
        segmentTable noteEvent (besideNotes keep) isOne narrow ([], []) = (outcome, (st₂, told)) ∧
          segmentTable noteEvent (besideNotes keep) isOne padded ([], [])
            = (outcome', (st₂', told')) ∧
          (closedSegments told).map Segment.span = (closedSegments told').map Segment.span ∧
          testedRows told = testedRows told' ∧ SameUpTo SplitError.SameKind outcome outcome') ∧
      (segmentTable noteEvent (besideNotes keep) isOne narrow ([], [])).1
        = .error (.row (.notNumeric 5 "v" "x")) ∧
      (segmentTable noteEvent (besideNotes keep) isOne padded ([], [])).1
        = .error (.row (.notNumeric 5 "v" "x ")) := by
  have hrows : List.Forall₂ (NumberedRow.AgreeOn isOne) narrow.body padded.body :=
    .cons ⟨rfl, by decide +kernel⟩ (.cons ⟨rfl, by decide +kernel⟩
      (.cons ⟨rfl, by decide +kernel⟩ (.cons ⟨rfl, by decide +kernel⟩ .nil)))
  have hkeep : ∀ s, NeverFails (keep s) := fun _ => rfl
  exact ⟨hrows, hkeep, segmentTable_of_agreeOn isOne hrows hkeep hkeep [] [], by decide +kernel,
    by decide +kernel⟩

end LogSplit
