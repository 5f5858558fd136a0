import LogSplit.Proofs.Predicate.Interpretation
import LogSplit.Proofs.Segment.AgreeingScans

/-!
# Tables one behind the other

Behind a row that does not pass, no run is open.  If the last row of a table is such a row, the rule
that the last row is in no segment asks nothing of it, and a scan can go on with the rows of another
table as if it began there.  What it finds in them is what a scan of the other table finds, further
down and with higher numbers (`Segment.shift`).

`scanFrom_append` and `scanFrom_shift` say this of the events of a scan, each by one induction over
the rows.  `segmentTable_append` says it of two tables and a third one that has the rows of both.
The lines of the rows may be others there, since no test looks at them.
-/

set_option autoImplicit false

namespace LogSplit

variable {p : CompiledPredicate}

/-! ## Rows on other lines -/

theorem BoundCondition.value_eq_ok_iff {b : BoundCondition} {r : NumberedRow} {x : Binary64} :
    b.value r = .ok x ↔
      ∃ cell, r.row.get? b.column = some cell ∧ Binary64.ofText? (Text.trim cell) = some x := by
  rw [value]
  cases r.row.get? b.column with
  | none => simp
  | some cell => cases hnumber : Binary64.ofText? (Text.trim cell) <;> simp [hnumber]

/-- Whether a row passes is a matter of its cells and not of its line. -/
theorem CompiledPredicate.test_eq_ok_iff_of_row_eq {r r' : NumberedRow} (h : r.row = r'.row)
    {passes : Bool} : p.test r = .ok passes ↔ p.test r' = .ok passes := by
  simp only [test_eq_ok_iff, BoundCondition.holds_eq_ok_iff, BoundCondition.value_eq_ok_iff, h]

theorem CompiledPredicate.isTestable_eq_of_row_eq {r r' : NumberedRow} (h : r.row = r'.row) :
    p.isTestable r = p.isTestable r' := by
  rw [Bool.eq_iff_iff, isTestable_iff, isTestable_iff]
  simp only [test_eq_ok_iff_of_row_eq h]

theorem CompiledPredicate.test_of_row_eq {r r' : NumberedRow} (h : r.row = r'.row) :
    SameUpTo (fun _ _ => True) (p.test r) (p.test r') := by
  cases htest : p.test r with
  | ok passes =>
    rw [(test_eq_ok_iff_of_row_eq h).1 htest]
    exact .ok passes
  | error e =>
    cases htest' : p.test r' with
    | ok passes => cases htest.symm.trans ((test_eq_ok_iff_of_row_eq h).2 htest')
    | error e' => exact .error trivial

/-! ## Further down -/

/-- A segment further down, and with a higher number. -/
def Segment.shift (rows segments : Nat) (s : Segment) : Segment :=
  { s with index := s.index + segments, start := s.start + rows }

/-- An open run further down. -/
def OpenRun.shift (rows : Nat) (o : OpenRun) : OpenRun := { o with start := o.start + rows }

/-- An event further down, and with a higher number. -/
def ScanEvent.shift (rows segments : Nat) : ScanEvent → ScanEvent
  | .tested position passes member => .tested (position + rows) passes member
  | .closed s => .closed (s.shift rows segments)
  | .failed e => .failed e

theorem Segment.length_comp_shift (rows segments : Nat) :
    Segment.length ∘ Segment.shift rows segments = Segment.length := rfl

theorem closedSegments_map_shift (rows segments : Nat) (events : List ScanEvent) :
    closedSegments (events.map (.shift rows segments))
      = (closedSegments events).map (.shift rows segments) := by
  induction events with
  | nil => rfl
  | cons event events ih =>
    cases event with
    | tested => exact ih
    | closed s => exact congrArg (s.shift rows segments :: ·) ih
    | failed => rfl

/-- **A scan that begins further down finds the same there.** -/
theorem scanFrom_shift (rows segments : Nat) (body : List NumberedRow) :
    ∀ (position found : Nat) (run : Option OpenRun),
      scanFrom p (position + rows) (found + segments) (run.map (.shift rows)) body
        = (scanFrom p position found run body).map (.shift rows segments) := by
  induction body with
  | nil => exact fun _ _ _ => rfl
  | cons r rest ih =>
    intro position found run
    rw [scanFrom, scanFrom, Nat.add_right_comm position, Nat.add_right_comm found]
    cases p.test r with
    | error e => rfl
    | ok passes =>
      refine congrArg (_ :: ·) ?_
      cases run with
      | none =>
        cases passes && !rest.isEmpty with
        | false => exact ih _ _ none
        | true => exact ih _ _ (some (.single position r))
      | some o =>
        cases passes && !rest.isEmpty with
        | false => exact congrArg (_ :: ·) (ih _ _ none)
        | true => exact ih _ _ (some (o.push r))

/-! ## Behind a row that does not pass -/

/-- A row that does not pass closes the run that is open, if one is. -/
theorem scanFrom_of_test_false {r : NumberedRow} (htest : p.test r = .ok false)
    (position found : Nat) (run : Option OpenRun) (rest : List NumberedRow) :
    scanFrom p position found run (r :: rest)
      = .tested position false false ::
          (run.toList.map fun o => .closed (o.close (found + 1))) ++
          scanFrom p (position + 1) (found + run.toList.length) none rest := by
  rw [scanFrom, htest]
  cases run <;> rfl

/-- A row that passes, with another one behind it, is in a run. -/
theorem scanFrom_of_test_true {r : NumberedRow} (htest : p.test r = .ok true)
    (position found : Nat) (run : Option OpenRun) {rest : List NumberedRow} (hrest : rest ≠ []) :
    scanFrom p position found run (r :: rest)
      = .tested position true true :: scanFrom p (position + 1) found
          (some (run.elim (.single position r) (·.push r))) rest := by
  have hmember : (true && !rest.isEmpty) = true := by simpa using hrest
  rw [scanFrom, htest]
  dsimp only
  rw [hmember]
  cases run <;> rfl

/-- **A scan goes on behind a row that does not pass** as if it began there.  The induction is over
the rows in front.  Only the last of them could be tested with another outcome, since it is the
last row of one table and not of the other, but it is no member of either. -/
theorem scanFrom_append {front : List NumberedRow} (back : List NumberedRow)
    (hlast : ∃ r, front.getLast? = some r ∧ p.test r = .ok false)
    (hfront : ∀ r ∈ front, p.isTestable r = true) :
    ∀ (position found : Nat) (run : Option OpenRun),
      scanFrom p position found run (front ++ back)
        = scanFrom p position found run front ++
          scanFrom p (position + front.length)
            (found + (closedSegments (scanFrom p position found run front)).length) none back := by
  induction front with
  | nil =>
    obtain ⟨r, hr, -⟩ := hlast
    cases hr
  | cons r rest ih =>
    intro position found run
    obtain ⟨hr, hrest⟩ := List.forall_mem_cons.1 hfront
    cases rest with
    | nil =>
      obtain ⟨last, hlast, htest⟩ := hlast
      obtain rfl : r = last := Option.some.inj hlast
      rw [List.cons_append, scanFrom_of_test_false htest, scanFrom_of_test_false htest]
      cases run <;> simp [scanFrom]
    | cons r' rest =>
      rw [List.getLast?_cons_cons] at hlast
      have ih := ih hlast hrest
      have hposition : position + (r :: r' :: rest).length
          = position + 1 + (r' :: rest).length := by
        rw [List.length_cons, Nat.add_right_comm, Nat.add_assoc]
      obtain ⟨passes, htest⟩ := CompiledPredicate.isTestable_iff.1 hr
      rw [List.cons_append, hposition]
      cases passes with
      | false =>
        rw [scanFrom_of_test_false htest, scanFrom_of_test_false htest, ih]
        cases run <;> simp [Nat.add_assoc, Nat.add_comm 1]
      | true =>
        rw [scanFrom_of_test_true htest _ _ _ (by simp),
          scanFrom_of_test_true htest _ _ _ (by simp), ih]
        rfl

variable {t u v : Table}

/-- The events of a scan of two tables one behind the other. -/
theorem scan_append (header : Header)
    (hlast : ∃ r, t.body.getLast? = some r ∧ p.test r = .ok false)
    (ht : ∀ r ∈ t.body, p.isTestable r = true) :
    scan p ⟨header, t.body ++ u.body⟩
      = scan p t ++ (scan p u).map (.shift t.body.length (closedSegments (scan p t)).length) := by
  rw [scan, scanFrom_append _ hlast ht, scan, scan, ← scanFrom_shift _ _ u.body 0 0 none]
  rfl

/-! ## Two tables -/

/-- The number, the place and the rows of a segment, without the lines of the rows. -/
def Segment.content (s : Segment) : Nat × Nat × List Row := (s.index, s.start, s.bareRows)

theorem Segment.Agree.content_eq {s s' : Segment} (h : s.Agree (fun r r' => r.row = r'.row) s') :
    s.content = s'.content := by
  have hrows : s.bareRows = s'.bareRows := by
    rw [bareRows, bareRows, ← List.forall₂_eq_eq_eq, List.forall₂_map_left_iff,
      List.forall₂_map_right_iff]
    exact h.rows
  rw [content, content, h.index_eq, h.start_eq, hrows]

/-- The lengths of segments can be read off what they contain. -/
theorem Segment.map_length_eq (segments : List Segment) :
    segments.map length = (segments.map content).map fun c => c.2.2.length := by
  rw [List.map_map]
  exact List.map_congr_left fun s _ => (List.length_map _).symm

/-- Tables with the same rows have the same segments, whatever the lines of the rows. -/
theorem content_scan_of_rows_eq (h : t.rows = u.rows) :
    (closedSegments (scan p t)).map Segment.content
      = (closedSegments (scan p u)).map Segment.content := by
  have hrows : List.Forall₂ (fun r r' : NumberedRow => r.row = r'.row) t.body u.body := by
    rw [Table.rows, Table.rows, ← List.forall₂_eq_eq_eq, List.forall₂_map_left_iff,
      List.forall₂_map_right_iff] at h
    exact h
  have hevents : List.Forall₂ (ScanEvent.Agree (fun r r' => r.row = r'.row) fun _ _ => True)
      (scan p t) (scan p u) :=
    scanFrom_agree (fun _ _ => CompiledPredicate.test_of_row_eq) hrows 0 0 .none
  rw [← List.forall₂_eq_eq_eq, List.forall₂_map_left_iff, List.forall₂_map_right_iff]
  exact (closedSegments_agree hevents).imp fun _ _ => Segment.Agree.content_eq

theorem isTestable_of_rows_eq (h : t.rows = u.rows) (ht : ∀ r ∈ t.body, p.isTestable r = true) :
    ∀ r ∈ u.body, p.isTestable r = true := by
  intro r hr
  have hmem : r.row ∈ t.rows := h ▸ List.mem_map_of_mem hr
  obtain ⟨r', hr', hrow⟩ := List.mem_map.1 hmem
  rw [← CompiledPredicate.isTestable_eq_of_row_eq hrow]
  exact ht r' hr'

variable {σ : Type} {sink : Segment → StateM σ (Except SplitError Unit)}

/-- **Segmenting goes through tables that stand one behind the other.**  Every row of two tables can
be tested, and the last row of the first one does not pass.  Then a table with the rows of both has
the segments of the first and behind them those of the second, at places that follow the rows of the
first and with numbers that follow its segments, and the counts add up.  The segments are read off
the notes; they are those that the sink has accepted (`accepts_of_notes_of_neverFails`). -/
theorem segmentTable_append (hrows : v.rows = t.rows ++ u.rows)
    (hlast : ∃ r, t.body.getLast? = some r ∧ p.test r = .ok false)
    (ht : ∀ r ∈ t.body, p.isTestable r = true) (hu : ∀ r ∈ u.body, p.isTestable r = true)
    (hsink : ∀ s, NeverFails (sink s)) (st : σ) :
    ∃ first second both st₁ st₂ st₃ told₁ told₂ told₃,
      segmentTable noteEvent (besideNotes sink) p t (st, []) = (.ok first, (st₁, told₁)) ∧
        segmentTable noteEvent (besideNotes sink) p u (st, []) = (.ok second, (st₂, told₂)) ∧
        segmentTable noteEvent (besideNotes sink) p v (st, []) = (.ok both, (st₃, told₃)) ∧
        (closedSegments told₃).map Segment.content
          = (closedSegments told₁ ++ (closedSegments told₂).map
              (Segment.shift t.body.length (closedSegments told₁).length)).map Segment.content ∧
        both = { rows := first.rows + second.rows
                 matchedRows := first.matchedRows + second.matchedRows
                 segments := first.segments + second.segments } := by
  have hjoined : (⟨v.header, t.body ++ u.body⟩ : Table).rows = v.rows := by
    rw [hrows, Table.rows, List.map_append]
    rfl
  have hv : ∀ r ∈ v.body, p.isTestable r = true :=
    isTestable_of_rows_eq hjoined (List.forall_mem_append.2 ⟨ht, hu⟩)
  have hokt := failed_not_mem_scan_iff.2 ht
  obtain ⟨st₁, hrun₁⟩ := segmentTable_of_neverFails hsink st hokt
  obtain ⟨st₂, hrun₂⟩ := segmentTable_of_neverFails hsink st (failed_not_mem_scan_iff.2 hu)
  obtain ⟨st₃, hrun₃⟩ := segmentTable_of_neverFails hsink st (failed_not_mem_scan_iff.2 hv)
  have hsegments : (closedSegments (scan p v)).map Segment.content
      = (closedSegments (scan p t) ++ (closedSegments (scan p u)).map
          (Segment.shift t.body.length (closedSegments (scan p t)).length)).map
            Segment.content := by
    rw [← content_scan_of_rows_eq hjoined, scan_append v.header hlast ht,
      closedSegments_append hokt, closedSegments_map_shift]
  have hcount := congrArg List.length hsegments
  have hlengths : (closedSegments (scan p v)).map Segment.length
      = (closedSegments (scan p t)).map Segment.length
        ++ (closedSegments (scan p u)).map Segment.length := by
    rw [Segment.map_length_eq, hsegments, ← Segment.map_length_eq, List.map_append, List.map_map,
      Segment.length_comp_shift]
  refine ⟨_, _, _, st₁, st₂, st₃, _, _, _, hrun₁, hrun₂, hrun₃, hsegments, ?_⟩
  rw [hlengths, List.sum_append, ← Table.length_rows v, hrows, List.length_append]
  simpa [Table.length_rows] using hcount

/-- A column `v` with two runs of ones, and a zero at the end. -/
def morning : Table := .ofRows ⟨["v"]⟩ [⟨["1"]⟩, ⟨["0"]⟩, ⟨["1"]⟩, ⟨["1"]⟩, ⟨["0"]⟩]

/-- A column `v` that begins with a run of ones. -/
def evening : Table := .ofRows ⟨["v"]⟩ [⟨["1"]⟩, ⟨["1"]⟩, ⟨["0"]⟩, ⟨["1"]⟩]

/-- Both, with lines of its own. -/
def wholeDay : Table :=
  .ofRows ⟨["v"]⟩ [⟨["1"]⟩, ⟨["0"]⟩, ⟨["1"]⟩, ⟨["1"]⟩, ⟨["0"]⟩, ⟨["1"]⟩, ⟨["1"]⟩, ⟨["0"]⟩, ⟨["1"]⟩]

/-- The run at the start of the evening is the third one of the day. -/
theorem segmentTable_append_wholeDay :
    wholeDay.rows = morning.rows ++ evening.rows ∧
      (∃ r, morning.body.getLast? = some r ∧ isOne.test r = .ok false) ∧
      (∀ r ∈ morning.body, isOne.isTestable r = true) ∧
      (∀ r ∈ evening.body, isOne.isTestable r = true) ∧ (∀ s, NeverFails (keep s)) ∧
      (∃ first second both st₁ st₂ st₃ told₁ told₂ told₃,
        segmentTable noteEvent (besideNotes keep) isOne morning ([], [])
            = (.ok first, (st₁, told₁)) ∧
          segmentTable noteEvent (besideNotes keep) isOne evening ([], [])
            = (.ok second, (st₂, told₂)) ∧
          segmentTable noteEvent (besideNotes keep) isOne wholeDay ([], [])
            = (.ok both, (st₃, told₃)) ∧
          (closedSegments told₃).map Segment.content
            = (closedSegments told₁ ++ (closedSegments told₂).map
                (Segment.shift morning.body.length (closedSegments told₁).length)).map
                  Segment.content ∧
          both = { rows := first.rows + second.rows
                   matchedRows := first.matchedRows + second.matchedRows
                   segments := first.segments + second.segments }) ∧
      (segmentTable noteEvent (besideNotes keep) isOne wholeDay ([], [])).1 = .ok ⟨9, 5, 3⟩ ∧
      (closedSegments (scan isOne wholeDay)).map Segment.content
        = [(1, 0, [⟨["1"]⟩]), (2, 2, [⟨["1"]⟩, ⟨["1"]⟩]), (3, 5, [⟨["1"]⟩, ⟨["1"]⟩])] := by
  have hrows : wholeDay.rows = morning.rows ++ evening.rows := by decide +kernel
  have hlast : ∃ r, morning.body.getLast? = some r ∧ isOne.test r = .ok false :=
    ⟨⟨6, ⟨["0"]⟩⟩, by decide +kernel, by decide +kernel⟩
  have hmorning : ∀ r ∈ morning.body, isOne.isTestable r = true := by decide +kernel
  have hevening : ∀ r ∈ evening.body, isOne.isTestable r = true := by decide +kernel
  have hkeep : ∀ s, NeverFails (keep s) := fun _ => rfl
  exact ⟨hrows, hlast, hmorning, hevening, hkeep,
    segmentTable_append hrows hlast hmorning hevening hkeep [], by decide +kernel,
    by decide +kernel⟩

end LogSplit
