import LogSplit.Proofs.Segment.JoinedTables

/-!
# Segments as tables

The rows of a segment are a table of their own, and it can be scanned with the same predicate.  All
of its rows pass, since a run is made of rows that do, also when the scan that found it has failed
later.  So nothing can go wrong with them, and only the rule about the last row has something to do:
it takes the last row away (`closedSegments_scan_of_passes`).

`segmentTable_segment` says what is found in a segment that was handed over: nothing if it has one
row, and else itself without its last row.
-/

set_option autoImplicit false

namespace LogSplit

variable {p : CompiledPredicate} {t : Table} {s : Segment}

/-! ## Tables whose rows all pass -/

/-- An open run takes in rows that all pass, but for the last one. -/
theorem closedSegments_scanFrom_of_passes (found : Nat) (rest : List NumberedRow) :
    ∀ (r : NumberedRow) (position : Nat) (o : OpenRun),
      (∀ r' ∈ r :: rest, p.test r' = .ok true) →
        closedSegments (scanFrom p position found (some o) (r :: rest))
          = [⟨found + 1, o.start, o.rows.reverse ++ (r :: rest).dropLast⟩] := by
  induction rest with
  | nil =>
    intro r position o hpass
    rw [scanFrom, hpass r List.mem_cons_self, List.dropLast_singleton, List.append_nil]
    rfl
  | cons r' rest ih =>
    intro r position o hpass
    obtain ⟨hr, hrest⟩ := List.forall_mem_cons.1 hpass
    rw [scanFrom_of_test_true hr _ _ _ (by simp), closedSegments_tested]
    refine (ih r' (position + 1) (o.push r) hrest).trans ?_
    simp [OpenRun.push]

/-- **A table whose rows all pass has one segment**, which is the table without its last row, and
none if nothing is left of it. -/
theorem closedSegments_scan_of_passes (hpass : ∀ r ∈ t.body, p.test r = .ok true) :
    closedSegments (scan p t)
      = if t.body.length ≤ 1 then [] else [⟨1, 0, t.body.dropLast⟩] := by
  rw [scan]
  rcases hbody : t.body with _ | ⟨r, _ | ⟨r', rest⟩⟩ <;> rw [hbody] at hpass
  · rfl
  · rw [scanFrom, hpass r List.mem_cons_self]
    rfl
  · obtain ⟨hr, hrest⟩ := List.forall_mem_cons.1 hpass
    rw [scanFrom_of_test_true hr _ _ _ (by simp), closedSegments_tested]
    exact closedSegments_scanFrom_of_passes 0 rest r' 1 (.single 0 r) hrest

/-! ## Rows of a segment -/

/-- The segments that are closed by some events are among those that more events close. -/
theorem closedSegments_mono {front events : List ScanEvent} (h : front <+: events) :
    closedSegments front <+: closedSegments events := by
  obtain ⟨back, rfl⟩ := h
  induction front with
  | nil => exact List.nil_prefix
  | cons event front ih =>
    cases event with
    | tested => exact ih
    | closed s => exact (List.prefix_cons_inj s).2 ih
    | failed => exact List.prefix_rfl

/-- The events that a sink sees are the first ones of a scan. -/
theorem HandedOver.told_prefix {σ : Type} {sink : Segment → StateM σ (Except SplitError Unit)}
    {st st' : σ} {summary : ScanSummary} {events told : List ScanEvent}
    {outcome : Except SplitError ScanSummary}
    (h : HandedOver sink st summary events outcome st' told) : told <+: events := by
  cases h with
  | refused front hevents => exact ⟨_, by rw [hevents, List.append_assoc]; rfl⟩
  | failed front hevents => exact ⟨_, by rw [hevents, List.append_assoc]; rfl⟩
  | completed => exact List.prefix_rfl

/-- The rows of a run pass. -/
theorem IsRun.passes (h : IsRun p t s) {r : NumberedRow} (hr : r ∈ s.rows) :
    p.test r = .ok true := by
  obtain ⟨i, hi, hget⟩ := List.mem_iff_getElem.1 hr
  have hrow : t.body[s.start + i]? = some r := by
    rw [← h.getElem?_rows hi, List.getElem?_eq_getElem hi, hget]
  obtain ⟨-, r', hr', hpasses⟩ :=
    h.isMember (s.start + i) (Nat.le_add_right _ _) (Nat.add_lt_add_left hi _)
  obtain rfl : r = r' := Option.some.inj (hrow.symm.trans hr')
  rw [CompiledPredicate.passes] at hpasses
  cases htest : p.test r with
  | ok passes =>
    rw [htest] at hpasses
    exact congrArg _ hpasses
  | error e =>
    rw [htest] at hpasses
    cases hpasses

/-- They still do as the rows of a table. -/
theorem IsRun.passes_ofRows (h : IsRun p t s) (header : Header) :
    ∀ r ∈ (Table.ofRows header s.bareRows).body, p.test r = .ok true := by
  intro r hr
  have hmem : r.row ∈ s.bareRows := by
    rw [← Table.rows_ofRows header s.bareRows]
    exact List.mem_map_of_mem hr
  obtain ⟨r', hr', hrow⟩ := List.mem_map.1 hmem
  exact (CompiledPredicate.test_eq_ok_iff_of_row_eq hrow).1 (h.passes hr')

/-! ## Scanning once more -/

theorem length_body_ofRows_bareRows (header : Header) (s : Segment) :
    (Table.ofRows header s.bareRows).body.length = s.length := by
  rw [← Table.length_rows, Table.rows_ofRows, Segment.bareRows, List.length_map, Segment.length]

theorem bareRows_take_ofRows (header : Header) (rows : List Row) (index start n : Nat) :
    (Segment.mk index start ((Table.ofRows header rows).body.take n)).bareRows = rows.take n := by
  rw [Segment.bareRows, List.map_take]
  exact congrArg (List.take n) (Table.rows_ofRows header rows)

/-- A run has itself in it, without its last row, if it has another one. -/
theorem IsRun.content_scan_ofRows (h : IsRun p t s) (header : Header) :
    (closedSegments (scan p (.ofRows header s.bareRows))).map Segment.content
      = if s.length = 1 then [] else [(1, 0, s.bareRows.take (s.length - 1))] := by
  have hpos := h.length_pos
  rw [closedSegments_scan_of_passes (h.passes_ofRows header), length_body_ofRows_bareRows]
  by_cases hone : s.length = 1
  · rw [if_pos hone, if_pos (Nat.le_of_eq hone)]
    rfl
  · rw [if_neg hone, if_neg (by omega), List.dropLast_eq_take, length_body_ofRows_bareRows,
      List.map_singleton, Segment.content, bareRows_take_ofRows]

variable {σ τ : Type} {sink : Segment → StateM σ (Except SplitError Unit)}
  {sink' : Segment → StateM τ (Except SplitError Unit)} {st st₂ : σ}
  {outcome : Except SplitError ScanSummary} {told : List ScanEvent}

/-- **What is found in a segment.**  A scan has handed over a segment, whether or not the sink has
taken it and however the scan has ended.  The rows of the segment, made a table of their own, can be
scanned with the same predicate.  A segment of one row has no segment in it.  Any other one has
itself in it, without its last row.  Of the first scan the notes may end with a segment that the
sink has refused (`accepts_of_notes`); of the second they hold what the other sink has accepted
(`accepts_of_notes_of_neverFails`). -/
theorem segmentTable_segment
    (hrun : segmentTable noteEvent (besideNotes sink) p t (st, []) = (outcome, (st₂, told)))
    (hs : s ∈ closedSegments told) (hsink' : ∀ x, NeverFails (sink' x)) (st' : τ) :
    0 < s.length ∧
      ∃ st₂' told',
        segmentTable noteEvent (besideNotes sink') p (.ofRows t.header s.bareRows) (st', [])
            = (.ok { rows := s.length
                     matchedRows := s.length - 1
                     segments := if s.length = 1 then 0 else 1 }, (st₂', told')) ∧
          (closedSegments told').map Segment.content
            = if s.length = 1 then [] else [(1, 0, s.bareRows.take (s.length - 1))] := by
  obtain ⟨outcome₁, st₁, told₁, hrun₁, hended⟩ := segmentTable_notes sink st p t
  obtain ⟨-, rfl⟩ := Prod.mk.inj (Prod.mk.inj (hrun.symm.trans hrun₁)).2
  have hisRun : IsRun p t s := (finishedRuns_scan p t).isRun s
    ((closedSegments_mono hended.told_prefix).subset hs)
  have hok : ∀ e, ScanEvent.failed e ∉ scan p (.ofRows t.header s.bareRows) :=
    failed_not_mem_scan_iff.2 fun r hr =>
      CompiledPredicate.isTestable_iff.2 ⟨true, hisRun.passes_ofRows t.header r hr⟩
  have hcontent := hisRun.content_scan_ofRows t.header
  have hlengths : (closedSegments (scan p (.ofRows t.header s.bareRows))).map Segment.length
      = if s.length = 1 then [] else [s.length - 1] := by
    have hbare : s.bareRows.length = s.length := List.length_map _
    rw [Segment.map_length_eq, hcontent]
    split <;> simp [hbare]
  have hcount := congrArg List.length hlengths
  rw [List.length_map] at hcount
  obtain ⟨st₂', hrun'⟩ := segmentTable_of_neverFails hsink' st' hok
  refine ⟨hisRun.length_pos, st₂', _, hrun'.trans ?_, hcontent⟩
  rw [length_body_ofRows_bareRows, hlengths, hcount]
  by_cases hone : s.length = 1 <;> simp [hone]

/-- A column `v` with a run of three ones, and a row that is no number. -/
def broken : Table :=
  .ofRows ⟨["v"]⟩ [⟨["0"]⟩, ⟨["1"]⟩, ⟨["1"]⟩, ⟨["1"]⟩, ⟨["0"]⟩, ⟨["x"]⟩, ⟨["1"]⟩]

/-- The run of this table. -/
def threeOnes : Segment := ⟨1, 1, [⟨3, ⟨["1"]⟩⟩, ⟨4, ⟨["1"]⟩⟩, ⟨5, ⟨["1"]⟩⟩]⟩

/-- The run has been handed over when the scan fails, and two of its rows are found in it. -/
theorem segmentTable_segment_broken :
    (∀ x, NeverFails (keep x)) ∧
      ∃ st₂ told,
        segmentTable noteEvent (besideNotes keep) isOne broken ([], [])
            = (.error (.row (.notNumeric 7 "v" "x")), (st₂, told)) ∧
          threeOnes ∈ closedSegments told ∧ 0 < threeOnes.length ∧
          ∃ st₂' told',
            segmentTable noteEvent (besideNotes keep) isOne
                (.ofRows broken.header threeOnes.bareRows) ([], [])
              = (.ok { rows := threeOnes.length
                       matchedRows := threeOnes.length - 1
                       segments := if threeOnes.length = 1 then 0 else 1 }, (st₂', told')) ∧
            (closedSegments told').map Segment.content
              = if threeOnes.length = 1 then []
                else [(1, 0, threeOnes.bareRows.take (threeOnes.length - 1))] := by
  have hkeep : ∀ x, NeverFails (keep x) := fun _ => rfl
  have hfails : (segmentTable noteEvent (besideNotes keep) isOne broken ([], [])).1
      = .error (.row (.notNumeric 7 "v" "x")) := by decide +kernel
  have hs : threeOnes ∈ closedSegments
      (segmentTable noteEvent (besideNotes keep) isOne broken ([], [])).2.2 := by decide +kernel
  obtain ⟨outcome, st₂, told, hrun, -⟩ := segmentTable_notes keep [] isOne broken
  rw [hrun] at hfails hs
  obtain rfl : outcome = .error (.row (.notNumeric 7 "v" "x")) := hfails
  obtain ⟨hpos, hagain⟩ := segmentTable_segment hrun hs hkeep []
  exact ⟨hkeep, st₂, told, hrun, hs, hpos, hagain⟩

end LogSplit
