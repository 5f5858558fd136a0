import LogSplit.Proofs.Tsv.Layout
import LogSplit.Tsv.Reader

/-!
# Lines of records

A record is attributed to the line on which its reading began.  The machine carries that line
along as it goes, and it never goes back: the lines of the closed records, the line of the open one
and the line it stands on ascend from line one (`Scan.trail`).  A log of `n` line feeds ends on line
`n + 1`, so the lines of its records lie between these two and ascend (`pairwise_lines`).

A table has the lines of the records below its header, one for each row
(`getElem?_lines_of_decode`), so its rows are in the order of their lines as well
(`linesAscend_of_decode`).
-/

set_option autoImplicit false

namespace LogSplit

/-- The rows of a table have lines up to a last one, in the order of the rows. -/
structure Table.LinesAscend (t : Table) (last : Nat) : Prop where
  /-- There is one line for each row. -/
  length_eq : (t.body.map (·.line)).length = t.rows.length
  /-- Lines are counted from one. -/
  one_le : ∀ i < t.rows.length, 1 ≤ t.lineNumber i
  /-- No line lies behind the last one. -/
  le_last : ∀ i < t.rows.length, t.lineNumber i ≤ last
  /-- No row has an earlier line than a row before it. -/
  mono : ∀ i j, i ≤ j → j < t.rows.length → t.lineNumber i ≤ t.lineNumber j

namespace Tsv

/-! ## One step of the machine -/

namespace Scan

variable (s : Scan) (b : UInt8)

theorem here_step : (s.step b).here = s.here.advance b := by
  rw [step]
  obtain ⟨phase, effect⟩ := s.phase.next b
  cases effect <;> rfl

theorem phase_step : (s.step b).phase = (s.phase.next b).1 := by
  rw [step]
  obtain ⟨phase, effect⟩ := s.phase.next b
  cases effect <;> rfl

variable {s b}

/-- A byte that ends a record closes it, and the reading of the next one begins behind that byte. -/
theorem step_of_endRecord (h : (s.phase.next b).2 = .endRecord) :
    (s.step b).origin = s.here.advance b ∧ (s.step b).records = s.openRecord :: s.records := by
  rw [step]
  generalize s.phase.next b = next at h
  obtain ⟨phase, effect⟩ := next
  cases h
  exact ⟨rfl, rfl⟩

/-- Any other byte leaves the records alone. -/
theorem step_of_ne_endRecord (h : (s.phase.next b).2 ≠ .endRecord) :
    (s.step b).origin = s.origin ∧ (s.step b).records = s.records := by
  rw [step]
  generalize s.phase.next b = next at h
  obtain ⟨phase, effect⟩ := next
  cases effect with
  | drop | keep | endCell => exact ⟨rfl, rfl⟩
  | endRecord => exact absurd rfl h

end Scan

/-- **What holds at the start and is kept by every byte** holds behind a whole log. -/
theorem scan_induction {P : Scan → Prop} (hstart : ∀ skipped, P (Scan.start skipped))
    (hstep : ∀ s b, P s → P (s.step b)) (bytes : Bytes) : P (scan bytes) := by
  have hsteps : ∀ (rest : Bytes) (s : Scan), P s → P (s.steps rest) := by
    intro rest
    induction rest with
    | nil => exact fun s h => h
    | cons b rest ih => exact fun s h => ih (s.step b) (hstep s b h)
  rw [scan]
  split
  · exact hsteps _ _ (hstart 3)
  · exact hsteps _ _ (hstart 0)

/-! ## The way back to line one -/

theorem Position.line_le_advance (p : Position) (b : UInt8) : p.line ≤ (p.advance b).line := by
  rw [advance]
  dsimp only
  split
  · exact Nat.le_succ _
  · exact Nat.le_refl _

namespace Scan

/-- The line the machine stands on, the one on which the reading of the open record began, those of
the closed records and line one. -/
def trail (s : Scan) : List Nat :=
  s.here.line :: s.origin.line :: (s.records.map (·.origin.line) ++ [1])

/-- The machine has never gone back to an earlier line. -/
def Descends (s : Scan) : Prop := s.trail.Pairwise (· ≥ ·)

/-- The line that the machine comes to takes the place of the one it stands on. -/
theorem Descends.here {s : Scan} (h : s.Descends) {line : Nat} (hline : s.here.line ≤ line) :
    (line :: s.trail.tail).Pairwise (· ≥ ·) := by
  obtain ⟨hhere, htail⟩ := List.pairwise_cons.1 h
  exact List.pairwise_cons.2 ⟨fun old hold => Nat.le_trans (hhere old hold) hline, htail⟩

theorem Descends.step {s : Scan} (h : s.Descends) (b : UInt8) : (s.step b).Descends := by
  have hnext := h.here (s.here.line_le_advance b)
  rw [Descends, trail, here_step]
  by_cases heffect : (s.phase.next b).2 = .endRecord
  · obtain ⟨horigin, hrecords⟩ := step_of_endRecord heffect
    rw [horigin, hrecords]
    refine List.pairwise_cons.2 ⟨fun old hold => ?_, hnext⟩
    rcases List.mem_cons.1 hold with rfl | hold
    · exact Nat.le_refl _
    · exact List.rel_of_pairwise_cons hnext hold
  · obtain ⟨horigin, hrecords⟩ := step_of_ne_endRecord heffect
    rw [horigin, hrecords]
    exact hnext

theorem descends_start (skipped : Nat) : (start skipped).Descends := by
  simp [Descends, trail, start]

/-- The records that are there at the end are on the way back. -/
theorem sublist_trail (s : Scan) :
    (s.here.line :: ((s.finish.map (·.origin.line)).reverse ++ [1])).Sublist s.trail := by
  rw [finish, trail, List.cons_sublist_cons]
  split
  · rw [List.map_reverse, List.reverse_reverse]
    exact List.sublist_cons_self _ _
  · rw [List.map_reverse, List.reverse_reverse]
    exact List.Sublist.refl _

theorem line_here_steps (bytes : Bytes) : ∀ s : Scan,
    (s.steps bytes).here.line = s.here.line + bytes.count lineFeed := by
  induction bytes with
  | nil => exact fun s => rfl
  | cons b bytes ih =>
    intro s
    rw [steps_cons, ih, here_step, Position.advance, List.count_cons]
    by_cases hb : b = lineFeed
    · simp [hb, Nat.add_right_comm, Nat.add_assoc]
    · simp [hb]

end Scan

theorem descends_scan (bytes : Bytes) : (scan bytes).Descends :=
  scan_induction Scan.descends_start (fun _ b h => h.step b) bytes

/-- A log ends on the line behind its last line feed. -/
theorem line_here_scan (bytes : Bytes) : (scan bytes).here.line = 1 + bytes.count lineFeed := by
  rw [scan]
  split
  · rename_i hmark
    have hcount : bytes.count lineFeed = (bytes.drop 3).count lineFeed := by
      have hsplit := congrArg (List.count lineFeed) (List.take_append_drop 3 bytes)
      rw [hmark, List.count_append] at hsplit
      exact hsplit.symm.trans (Nat.zero_add _)
    rw [Scan.line_here_steps, hcount]
    rfl
  · exact Scan.line_here_steps _ _

/-- **The lines of records ascend** from the first line of the log to its last. -/
theorem pairwise_lines (bytes : Bytes) :
    (1 :: ((records bytes).map (·.origin.line) ++ [1 + bytes.count lineFeed])).Pairwise
      (· ≤ ·) := by
  have hback := List.pairwise_reverse.2 ((descends_scan bytes).sublist (scan bytes).sublist_trail)
  simpa [line_here_scan, records] using hback

/-! ## Lines of rows -/

/-- Unless a record is no text, the rows have the lines of the records. -/
theorem Reading.map_line_ofRecords {rs : List Record} : ∀ {index : Nat},
    (ofRecords index rs).failure = none →
      (ofRecords index rs).rows.map (·.line) = rs.map (·.origin.line) := by
  induction rs with
  | nil => exact fun _ => rfl
  | cons r rs ih =>
    intro index h
    rw [ofRecords] at h ⊢
    cases hcells : decodeCells index r.origin 0 r.cells with
    | error e =>
      rw [hcells] at h
      cases h
    | ok cells =>
      rw [hcells] at h
      exact congrArg (r.origin.line :: ·) (ih h)

/-- Below the record of the header there is one for each row, and the row has its line. -/
theorem exists_lines_of_decode {bytes : Bytes} {t : Table} (h : decode bytes = .ok t) :
    ∃ first, (records bytes).map (·.origin.line) = first :: t.body.map (·.line) := by
  rw [decode, Reading.ofBytes, Reading.table] at h
  split at h
  · cases h
  · cases h
  · rename_i header body hfailure hrows
    cases h
    exact ⟨header.line, by rw [← Reading.map_line_ofRecords hfailure, hrows, List.map_cons]⟩

theorem length_records_of_decode {bytes : Bytes} {t : Table} (h : decode bytes = .ok t) :
    (records bytes).length = t.body.length + 1 := by
  obtain ⟨first, hlines⟩ := exists_lines_of_decode h
  simpa using congrArg List.length hlines

theorem getElem?_lines_of_decode {bytes : Bytes} {t : Table} (h : decode bytes = .ok t) {i : Nat}
    (hi : i < t.body.length) :
    ((records bytes).map (·.origin.line))[i + 1]? = some (t.lineNumber i) := by
  obtain ⟨first, hlines⟩ := exists_lines_of_decode h
  have hrow : t.body[i]? = some t.body[i] := List.getElem?_eq_getElem hi
  rw [hlines, List.getElem?_cons_succ, List.getElem?_map, hrow, t.lineNumber_of_getElem? hrow,
    Option.map_some]

/-- **The lines of rows ascend** from the first line of the log to its last. -/
theorem linesAscend_of_decode {bytes : Bytes} {t : Table} (h : decode bytes = .ok t) :
    t.LinesAscend (1 + bytes.count lineFeed) := by
  have hlines := pairwise_lines bytes
  obtain ⟨hfirst, hrest⟩ := List.pairwise_cons.1 hlines
  obtain ⟨hordered, -, hlast⟩ := List.pairwise_append.1 hrest
  have hmem : ∀ i < t.rows.length, t.lineNumber i ∈ (records bytes).map (·.origin.line) :=
    fun i hi => List.mem_of_getElem? (getElem?_lines_of_decode h (t.length_rows ▸ hi))
  refine ⟨(List.length_map _).trans t.length_rows.symm,
    fun i hi => hfirst _ (List.mem_append_left _ (hmem i hi)),
    fun i hi => hlast _ (hmem i hi) _ List.mem_cons_self, fun i j hij hj => ?_⟩
  rcases Nat.eq_or_lt_of_le hij with rfl | hlt
  · exact Nat.le_refl _
  · have hget := fun k (hk : k < t.rows.length) =>
      List.getElem?_eq_some_iff.1 (getElem?_lines_of_decode h (t.length_rows ▸ hk))
    obtain ⟨hi', hline⟩ := hget i (Nat.lt_trans hlt hj)
    obtain ⟨hj', hline'⟩ := hget j hj
    have hle := List.pairwise_iff_getElem.1 hordered _ _ hi' hj' (Nat.succ_lt_succ hlt)
    rwa [hline, hline'] at hle

end Tsv

end LogSplit
