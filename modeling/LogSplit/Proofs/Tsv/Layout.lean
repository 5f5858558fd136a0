import LogSplit.Tsv.Writer

/-!
# Layouts of records

The same records can be laid out in many ways: a cell may be quoted without need, a record may
end in any of three ways, and empty lines may stand anywhere in front of a record.  `RecordsLayout`
describes all of them and has nothing to do with the machine that reads them;
`RecordsLayout.map_cells_records` is the bridge: whatever the layout, the machine finds the cells
it is a layout of.

A place in the middle of a log is described by `Scan.At`, which leaves out lines and byte
offsets.  One lemma for each effect of a byte moves it along, and everything else here goes from
bytes to cells, from cells to records and from records to the log.
-/

set_option autoImplicit false

namespace LogSplit

namespace Tsv

/-! ## The layouts -/

/-- The ways of writing a cell. -/
inductive CellLayout : Bytes → Bytes → Prop where
  /-- As it is, if nothing in it is special. -/
  | bare {cell : Bytes} (h : ∀ b ∈ cell, isSpecial b = false) : CellLayout cell cell
  /-- In quotes, with the quotes in it doubled. -/
  | quoted (cell : Bytes) : CellLayout cell
    ([quote] ++ cell.flatMap (fun b => if b = quote then [quote, quote] else [b]) ++ [quote])

/-- The ways of writing some cells, with tabs between. -/
inductive CellsLayout : List Bytes → Bytes → Prop where
  /-- A single cell. -/
  | single {cell text : Bytes} (h : CellLayout cell text) : CellsLayout [cell] text
  /-- A cell and more behind it. -/
  | cons {cell text : Bytes} {cells : List Bytes} {texts : Bytes} (h : CellLayout cell text)
    (hs : CellsLayout cells texts) : CellsLayout (cell :: cells) (text ++ [tab] ++ texts)

/-- The ways of writing a record without its end: a lone empty cell has to be quoted, or the
line would be empty. -/
structure RecordLayout (cells : List Bytes) (text : Bytes) : Prop where
  /-- The cells are written one by one. -/
  written : CellsLayout cells text
  /-- A lone empty cell is quoted. -/
  quoted_of_empty : cells = [[]] → text = [quote, quote]

/-- The ends of a record. -/
def terminators : List Bytes := [[lineFeed], [carriageReturn], [carriageReturn, lineFeed]]

/-- Empty lines. -/
def IsBlankLines (text : Bytes) : Prop :=
  ∃ ends : List Bytes, (∀ e ∈ ends, e ∈ terminators) ∧ text = ends.flatten

theorem isBlankLines_nil : IsBlankLines [] :=
  ⟨[], by simp, rfl⟩

/-- The ways of writing records. -/
inductive RecordsLayout : List (List Bytes) → Bytes → Prop where
  /-- Nothing is written for no records. -/
  | nil : RecordsLayout [] []
  /-- The last record may go without its end. -/
  | last {cells : List Bytes} {blank text : Bytes} (hblank : IsBlankLines blank)
    (h : RecordLayout cells text) : RecordsLayout [cells] (blank ++ text)
  /-- A record with its end, and more behind it. -/
  | cons {cells : List Bytes} {blank text terminator : Bytes} {records : List (List Bytes)}
    {texts : Bytes} (hblank : IsBlankLines blank) (h : RecordLayout cells text)
    (hterminator : terminator ∈ terminators) (hs : RecordsLayout records texts) :
    RecordsLayout (cells :: records) (blank ++ text ++ terminator ++ texts)

/-! ## Where the machine stands -/

/-- The machine stands in a phase with an open cell, the closed cells of the open record and the
cells of the closed records, all newest first. -/
structure Scan.At (s : Scan) (phase : Phase) (cell : Bytes) (cells : List Bytes)
    (done : List (List Bytes)) : Prop where
  /-- The phase. -/
  phase : s.phase = phase
  /-- The open cell. -/
  cell : s.cell = cell
  /-- The closed cells. -/
  cells : s.cells = cells
  /-- The closed records. -/
  done : s.records.map (·.cells) = done

namespace Scan

variable {s : Scan} {phase phase' : Phase} {cell : Bytes} {cells : List Bytes}
  {done : List (List Bytes)} {b : UInt8}

theorem at_start (skipped : Nat) : (start skipped).At .recordStart [] [] [] :=
  ⟨rfl, rfl, rfl, rfl⟩

theorem At.drop (h : s.At phase cell cells done) (hnext : phase.next b = (phase', .drop)) :
    (s.step b).At phase' cell cells done := by
  rw [step, h.phase, hnext]
  exact ⟨rfl, h.cell, h.cells, h.done⟩

theorem At.keep (h : s.At phase cell cells done) (hnext : phase.next b = (phase', .keep)) :
    (s.step b).At phase' (b :: cell) cells done := by
  rw [step, h.phase, hnext]
  exact ⟨rfl, congrArg (b :: ·) h.cell, h.cells, h.done⟩

theorem At.endCell (h : s.At phase cell cells done) (hnext : phase.next b = (phase', .endCell)) :
    (s.step b).At phase' [] (cell.reverse :: cells) done := by
  rw [step, h.phase, hnext]
  exact ⟨rfl, rfl, by rw [← h.cell, ← h.cells], h.done⟩

theorem At.endRecord (h : s.At phase cell cells done)
    (hnext : phase.next b = (phase', .endRecord)) :
    (s.step b).At phase' [] [] ((cell.reverse :: cells).reverse :: done) := by
  rw [step, h.phase, hnext]
  exact ⟨rfl, rfl, rfl, by rw [← h.cell, ← h.cells, ← h.done]; rfl⟩

theorem steps_cons (s : Scan) (b : UInt8) (bs : Bytes) : s.steps (b :: bs) = (s.step b).steps bs :=
  rfl

theorem steps_singleton (s : Scan) (b : UInt8) : s.steps [b] = s.step b :=
  rfl

/-- Between records nothing is open. -/
theorem At.finish_recordStart (h : s.At .recordStart cell cells done) :
    s.finish.map (·.cells) = done.reverse := by
  rw [finish, if_pos h.phase, List.map_reverse, h.done]

/-- An open record ends with the log. -/
theorem At.finish_open (h : s.At phase cell cells done) (hphase : phase ≠ .recordStart) :
    s.finish.map (·.cells) = ((cell.reverse :: cells).reverse :: done).reverse := by
  rw [finish, if_neg (by rwa [h.phase]), List.map_reverse, List.map_cons, h.done, openRecord,
    h.cell, h.cells]

end Scan

/-! ## Steps of the machine -/

theorem isSpecial_eq_false_iff {b : UInt8} :
    isSpecial b = false ↔ b ≠ tab ∧ b ≠ quote ∧ isTerminator b = false := by
  simp [isSpecial, and_assoc]

namespace Phase

theorem nextBare_of_not_special {b : UInt8} (h : isSpecial b = false) :
    nextBare b = (bare, .keep) := by
  obtain ⟨htab, -, hterm⟩ := isSpecial_eq_false_iff.1 h
  rw [nextBare, if_neg htab, if_neg (by simp [hterm])]

/-- A byte that is not special belongs to a cell that is not quoted. -/
theorem next_of_not_special {p : Phase} (hp : p = recordStart ∨ p = cellStart ∨ p = bare)
    {b : UInt8} (h : isSpecial b = false) : p.next b = (bare, .keep) := by
  obtain ⟨-, hquote, hterm⟩ := isSpecial_eq_false_iff.1 h
  rcases hp with rfl | rfl | rfl
  · rw [next, if_neg (by simp [hterm]), nextCell, if_neg hquote, nextBare_of_not_special h]
  · rw [next, nextCell, if_neg hquote, nextBare_of_not_special h]
  · rw [next, nextBare_of_not_special h]

/-- A cell may begin with a quote. -/
theorem next_quote {p : Phase} (hp : p = recordStart ∨ p = cellStart) :
    p.next quote = (quoted, .drop) := by
  rcases hp with rfl | rfl <;> rfl

/-- Outside quotes a tab ends the cell. -/
theorem next_tab {p : Phase} (hp : p ≠ quoted) : p.next tab = (cellStart, .endCell) := by
  cases p with
  | quoted => exact absurd rfl hp
  | recordStart => rfl
  | cellStart => rfl
  | bare => rfl
  | quoteSeen => rfl

/-- Outside quotes and behind the start of a record, the end of a line ends the record. -/
theorem next_terminator {p : Phase} (hp : p ≠ quoted) (hstart : p ≠ recordStart) {b : UInt8}
    (hb : b = lineFeed ∨ b = carriageReturn) : p.next b = (recordStart, .endRecord) := by
  rcases hb with rfl | rfl <;> cases p with
  | quoted => exact absurd rfl hp
  | recordStart => exact absurd rfl hstart
  | cellStart => rfl
  | bare => rfl
  | quoteSeen => rfl

end Phase

/-! ## From bytes to cells -/

namespace Scan

variable {s : Scan} {phase : Phase} {cell : Bytes} {cells : List Bytes} {done : List (List Bytes)}

/-- Bytes that are not special, in a cell that is not quoted. -/
theorem At.steps_bare {bs : Bytes} (h : ∀ b ∈ bs, isSpecial b = false) :
    ∀ {s : Scan} {phase : Phase} {cell : Bytes}, s.At phase cell cells done →
      phase = .recordStart ∨ phase = .cellStart ∨ phase = .bare →
      ∃ phase', (s.steps bs).At phase' (bs.reverse ++ cell) cells done ∧
        (phase' = .bare ∨ phase' = phase ∧ bs = []) := by
  induction bs with
  | nil => exact fun {s phase cell} hs _ => ⟨phase, hs, Or.inr ⟨rfl, rfl⟩⟩
  | cons b bs ih =>
    intro s phase cell hs hp
    have hstep := hs.keep (Phase.next_of_not_special hp (h b List.mem_cons_self))
    obtain ⟨phase', hat, hp'⟩ :=
      ih (fun x hx => h x (List.mem_cons_of_mem _ hx)) hstep (Or.inr (Or.inr rfl))
    refine ⟨phase', ?_, Or.inl (hp'.elim id And.left)⟩
    rw [steps_cons, List.reverse_cons, List.append_assoc]
    exact hat

/-- Bytes with the quotes among them doubled, between quotes. -/
theorem At.steps_doubled (bs : Bytes) : ∀ {s : Scan} {cell : Bytes},
    s.At .quoted cell cells done →
      (s.steps (bs.flatMap fun b => if b = quote then [quote, quote] else [b])).At .quoted
        (bs.reverse ++ cell) cells done := by
  induction bs with
  | nil => exact fun hs => hs
  | cons b bs ih =>
    intro s cell hs
    rw [List.flatMap_cons, steps_append, List.reverse_cons, List.append_assoc]
    refine ih ?_
    by_cases hb : b = quote
    · subst hb
      have hseen : (s.step quote).At .quoteSeen cell cells done := hs.drop rfl
      exact hseen.keep rfl
    · rw [if_neg hb]
      exact hs.keep (by rw [Phase.next, if_neg hb])

end Scan

variable {s : Scan} {phase : Phase} {done : List (List Bytes)}

/-- Behind a cell in any layout the cell is open, and it can be ended unless nothing at all has
been read of its record. -/
theorem CellLayout.at_steps {cell text : Bytes} {cells : List Bytes} (h : CellLayout cell text)
    (hp : phase = .recordStart ∨ phase = .cellStart) (hs : s.At phase [] cells done) :
    ∃ phase', (s.steps text).At phase' cell.reverse cells done ∧ phase' ≠ .quoted ∧
      (phase' = .recordStart → phase = .recordStart ∧ text = []) := by
  cases h with
  | bare h =>
    obtain ⟨phase', hat, hp'⟩ := hs.steps_bare h (hp.imp_right Or.inl)
    rw [List.append_nil] at hat
    refine ⟨phase', hat, ?_, ?_⟩
    · rintro rfl
      rcases hp' with hp' | ⟨rfl, -⟩
      · cases hp'
      · rcases hp with hp | hp <;> cases hp
    · rintro rfl
      rcases hp' with hp' | hp'
      · cases hp'
      · exact ⟨hp'.1.symm, hp'.2⟩
  | quoted =>
    have hopen := (hs.drop (Phase.next_quote hp)).steps_doubled cell
    rw [List.append_nil] at hopen
    have hclose : (s.steps ([quote] ++ cell.flatMap
        (fun b => if b = quote then [quote, quote] else [b]) ++ [quote])).At .quoteSeen
          cell.reverse cells done := by
      rw [Scan.steps_append]
      exact hopen.drop rfl
    exact ⟨.quoteSeen, hclose, by simp, by simp⟩

/-- Behind some cells the last of them is open. -/
theorem CellsLayout.at_steps {cells : List Bytes} {text : Bytes} (h : CellsLayout cells text) :
    ∀ {s : Scan} {phase : Phase} {closed : List Bytes}, s.At phase [] closed done →
      phase = .recordStart ∨ phase = .cellStart →
      ∃ phase' cell' closed', (s.steps text).At phase' cell' closed' done ∧ phase' ≠ .quoted ∧
        (phase' = .recordStart → phase = .recordStart ∧ text = []) ∧
        (cell'.reverse :: closed').reverse = closed.reverse ++ cells := by
  induction h with
  | single h =>
    intro s phase closed hs hp
    obtain ⟨phase', hat, hquoted, hstart⟩ := h.at_steps hp hs
    exact ⟨phase', _, closed, hat, hquoted, hstart, by simp⟩
  | cons h hs' ih =>
    intro s phase closed hs hp
    obtain ⟨phase₁, hat₁, hquoted₁, -⟩ := h.at_steps hp hs
    obtain ⟨phase₂, cell', closed', hat₂, hquoted₂, hstart₂, hcells⟩ :=
      ih (hat₁.endCell (Phase.next_tab hquoted₁)) (Or.inr rfl)
    rw [← Scan.steps_singleton, ← Scan.steps_append, ← Scan.steps_append,
      ← List.append_assoc] at hat₂
    refine ⟨phase₂, cell', closed', hat₂, hquoted₂, fun hp₂ => ?_, ?_⟩
    · cases (hstart₂ hp₂).1
    · rw [hcells]
      simp

/-- Nothing is written only for a lone empty cell. -/
theorem CellsLayout.eq_of_nil {cells : List Bytes} (h : CellsLayout cells []) : cells = [[]] := by
  generalize htext : ([] : Bytes) = text at h
  cases h with
  | single h =>
    cases h with
    | bare h => rw [← htext]
    | quoted => simp at htext
  | cons h hs => simp at htext

/-! ## From cells to records -/

/-- **Behind a record in any layout** the record is open and can be ended. -/
theorem RecordLayout.at_steps {cells : List Bytes} {text : Bytes} (h : RecordLayout cells text)
    (hs : s.At .recordStart [] [] done) :
    ∃ phase' cell' closed', (s.steps text).At phase' cell' closed' done ∧ phase' ≠ .quoted ∧
      phase' ≠ .recordStart ∧ (cell'.reverse :: closed').reverse = cells := by
  obtain ⟨phase', cell', closed', hat, hquoted, hstart, hcells⟩ :=
    h.written.at_steps hs (Or.inl rfl)
  refine ⟨phase', cell', closed', hat, hquoted, fun hp => ?_, hcells⟩
  obtain rfl := (hstart hp).2
  exact absurd (h.quoted_of_empty h.written.eq_of_nil) (by simp)

/-- Behind its end the record is closed. -/
theorem RecordLayout.at_steps_terminator {cells : List Bytes} {text terminator : Bytes}
    (h : RecordLayout cells text) (hterminator : terminator ∈ terminators)
    (hs : s.At .recordStart [] [] done) :
    (s.steps (text ++ terminator)).At .recordStart [] [] (cells :: done) := by
  obtain ⟨phase', cell', closed', hat, hquoted, hstart, rfl⟩ := h.at_steps hs
  have hend := fun b hb => hat.endRecord (Phase.next_terminator hquoted hstart (b := b) hb)
  rw [Scan.steps_append]
  simp only [terminators, List.mem_cons, List.not_mem_nil, or_false] at hterminator
  rcases hterminator with rfl | rfl | rfl
  · exact hend lineFeed (Or.inl rfl)
  · exact hend carriageReturn (Or.inr rfl)
  · exact (hend carriageReturn (Or.inr rfl)).drop rfl

/-- Empty lines leave no trace. -/
theorem IsBlankLines.at_steps {text : Bytes} (h : IsBlankLines text)
    (hs : s.At .recordStart [] [] done) : (s.steps text).At .recordStart [] [] done := by
  obtain ⟨ends, hends, rfl⟩ := h
  induction ends generalizing s with
  | nil => exact hs
  | cons e ends ih =>
    have hline : (s.steps e).At .recordStart [] [] done := by
      have he := hends e List.mem_cons_self
      simp only [terminators, List.mem_cons, List.not_mem_nil, or_false] at he
      rcases he with rfl | rfl | rfl
      · exact hs.drop rfl
      · exact hs.drop rfl
      · have hreturn : (s.step carriageReturn).At .recordStart [] [] done := hs.drop rfl
        exact hreturn.drop rfl
    rw [List.flatten_cons, Scan.steps_append]
    exact ih hline fun x hx => hends x (List.mem_cons_of_mem _ hx)

/-! ## From records to the log -/

theorem RecordsLayout.map_cells_finish {records : List (List Bytes)} {text : Bytes}
    (h : RecordsLayout records text) : ∀ {s : Scan} {done : List (List Bytes)},
      s.At .recordStart [] [] done →
        (s.steps text).finish.map (·.cells) = done.reverse ++ records := by
  induction h with
  | nil =>
    intro s done hs
    rw [List.append_nil]
    exact hs.finish_recordStart
  | last hblank h =>
    intro s done hs
    obtain ⟨phase', cell', closed', hat, -, hstart, hcells⟩ := h.at_steps (hblank.at_steps hs)
    rw [Scan.steps_append, hat.finish_open hstart, hcells, List.reverse_cons]
  | cons hblank h hterminator hs' ih =>
    intro s done hs
    have hat := h.at_steps_terminator hterminator (hblank.at_steps hs)
    rw [← Scan.steps_append, ← List.append_assoc] at hat
    rw [Scan.steps_append, ih hat, List.reverse_cons, List.append_assoc, List.singleton_append]

/-- **The machine reads back every layout**, with a byte order mark or without one, as long as
the text does not begin with what would be taken for the mark. -/
theorem RecordsLayout.map_cells_records {records : List (List Bytes)} {text : Bytes}
    (h : RecordsLayout records text) :
    (Tsv.records (byteOrderMark ++ text)).map (·.cells) = records ∧
      (text.take 3 ≠ byteOrderMark → (Tsv.records text).map (·.cells) = records) := by
  constructor
  · have hmark : (byteOrderMark ++ text).take 3 = byteOrderMark := rfl
    rw [Tsv.records, scan, if_pos hmark]
    exact h.map_cells_finish (Scan.at_start 3)
  · intro hmark
    rw [Tsv.records, scan, if_neg hmark]
    exact h.map_cells_finish (Scan.at_start 0)

end Tsv

end LogSplit
