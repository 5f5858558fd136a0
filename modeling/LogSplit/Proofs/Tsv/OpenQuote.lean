import LogSplit.Proofs.Tsv.TextLogs

/-!
# A quote that is left open

If a log ends between the quotes of a cell, the quote that is missing is no error: the end of the
log stands for it, and the log is read as if it had been written (`decode_open_quote`).  So a text
with an open quote is always a table.  Its last cell is all that stands behind that quote, through
tabs and ends of lines, with doubled quotes undone; rows that may have been meant there are lost.

Which quote that is can be told at any place of the log: `Scan.IsRead` says what has been read of
the cell that is open there, and every byte keeps it up to date.
-/

set_option autoImplicit false

namespace LogSplit

namespace Tsv

/-! ## The text of what was read -/

theorem map_encode_of_decodeCells {record : Nat} {origin : Position} {cells : List Bytes} :
    ∀ {column : Nat} {texts : List String}, decodeCells record origin column cells = .ok texts →
      cells = texts.map Utf8.encode := by
  induction cells with
  | nil =>
    intro column texts h
    cases h
    rfl
  | cons cell cells ih =>
    intro column texts h
    rw [decodeCells] at h
    cases hcell : Utf8.decode cell with
    | error e =>
      rw [hcell] at h
      cases h
    | ok text =>
      rw [hcell] at h
      cases hcells : decodeCells record origin (column + 1) cells with
      | error e =>
        rw [hcells] at h
        cases h
      | ok rest =>
        rw [hcells] at h
        cases h
        rw [List.map_cons, Utf8.encode_of_decode hcell, ← ih hcells]

theorem Reading.map_cells_of_ofRecords {rs : List Record} : ∀ {index : Nat},
    (ofRecords index rs).failure = none →
      rs.map (·.cells) = (ofRecords index rs).rows.map (·.row.cells.map Utf8.encode) := by
  induction rs with
  | nil => exact fun _ => rfl
  | cons r rs ih =>
    intro index h
    rw [ofRecords] at h ⊢
    cases hcells : decodeCells index r.origin 0 r.cells with
    | error e =>
      rw [hcells] at h
      cases h
    | ok cells =>
      rw [hcells] at h
      rw [List.map_cons, ih h, map_encode_of_decodeCells hcells]
      rfl

/-- The records of a log are those of the table that is read of it. -/
theorem map_cells_of_decode {bytes : Bytes} {t : Table} (h : decode bytes = .ok t) :
    (records bytes).map (·.cells) = (tableRecords t.header t.rows).map (·.map Utf8.encode) := by
  rw [decode, Reading.ofBytes, Reading.table] at h
  split at h
  · cases h
  · cases h
  · rename_i header body hfailure hrows
    cases h
    rw [Reading.map_cells_of_ofRecords hfailure, hrows, tableRecords, Table.rows]
    simp

/-- The last cell of the last row, or of the header if there are no rows. -/
def lastCell? (t : Table) : Option String :=
  (tableRecords t.header t.rows).getLast?.bind (·.getLast?)

/-- The last cell of a table has the bytes of the last cell of the log. -/
theorem lastCell?_of_decode {bytes : Bytes} {t : Table} (h : decode bytes = .ok t) :
    (lastCell? t).map Utf8.encode = (records bytes).getLast?.bind (·.cells.getLast?) := by
  have hlast := congrArg List.getLast? (map_cells_of_decode h)
  rw [List.getLast?_map, List.getLast?_map] at hlast
  rw [lastCell?, Option.map_bind]
  have hbind := congrArg (·.bind List.getLast?) hlast
  simpa [Option.bind_map, Function.comp_def] using hbind.symm

/-! ## The open cell -/

/-- A cell with the quotes in it doubled. -/
def doubled (cell : Bytes) : Bytes :=
  cell.flatMap fun b => if b = quote then [quote, quote] else [b]

theorem doubled_append_of_ne {b : UInt8} (hb : b ≠ quote) (cell : Bytes) :
    doubled (cell ++ [b]) = doubled cell ++ [b] := by
  simp [doubled, hb]

theorem doubled_append_quote (cell : Bytes) :
    doubled (cell ++ [quote]) = doubled cell ++ [quote, quote] := by
  simp [doubled]

/-- A cell begins with the next byte, if that is no end of an empty line. -/
def Phase.StartsCell (p : Phase) : Prop := p = .recordStart ∨ p = .cellStart

namespace Phase

theorem nextBare_cases (b : UInt8) :
    nextBare b = (cellStart, .endCell) ∨ nextBare b = (recordStart, .endRecord) ∨
      nextBare b = (bare, .keep) := by
  rw [nextBare]
  split
  · exact .inl rfl
  · split
    · exact .inr (.inl rfl)
    · exact .inr (.inr rfl)

end Phase

namespace Scan

/-- A cell is open that began with a quote.  Behind that quote the bytes of the cell have been read,
with the quotes among them doubled, and a tail. -/
def OpenedBy (origin : Scan) (bytes cell tail : Bytes) : Prop :=
  ∃ front, bytes = front ++ quote :: (doubled cell ++ tail) ∧ (origin.steps front).phase.StartsCell

/-- What has been read of a cell that is open, the newest byte first, in each phase. -/
def IsRead (origin : Scan) (bytes : Bytes) : Phase → Bytes → Prop
  | .recordStart, cell => cell = []
  | .cellStart, cell => cell = []
  | .bare, _ => True
  | .quoted, cell => OpenedBy origin bytes cell.reverse []
  | .quoteSeen, cell => OpenedBy origin bytes cell.reverse [quote]

variable {origin s : Scan} {bytes : Bytes} {b : UInt8}

/-- The machine stands where it stands. -/
theorem at_self (s : Scan) : s.At s.phase s.cell s.cells (s.records.map (·.cells)) :=
  ⟨rfl, rfl, rfl, rfl⟩

/-- Outside quotes nothing has to be remembered. -/
theorem isRead_of_nextBare (h : s.phase.next b = Phase.nextBare b) :
    IsRead origin bytes (s.step b).phase (s.step b).cell := by
  rcases Phase.nextBare_cases b with hnext | hnext | hnext
  · have hat := s.at_self.endCell (h.trans hnext)
    rw [hat.phase, hat.cell]
    rfl
  · have hat := s.at_self.endRecord (h.trans hnext)
    rw [hat.phase, hat.cell]
    rfl
  · rw [(s.at_self.keep (h.trans hnext)).phase]
    trivial

/-- A quote in front of a cell opens it. -/
theorem isRead_of_opening (hstart : (origin.steps bytes).phase.StartsCell)
    (hcell : (origin.steps bytes).cell = []) :
    IsRead origin (bytes ++ [quote]) ((origin.steps bytes).step quote).phase
      ((origin.steps bytes).step quote).cell := by
  have hat := (at_self (origin.steps bytes)).drop (Phase.next_quote hstart)
  rw [hat.phase, hat.cell, hcell]
  exact ⟨bytes, rfl, hstart⟩

theorem OpenedBy.append {cell tail cell' tail' new : Bytes} (h : OpenedBy origin bytes cell tail)
    (hnew : doubled cell ++ tail ++ new = doubled cell' ++ tail') :
    OpenedBy origin (bytes ++ new) cell' tail' := by
  obtain ⟨front, rfl, hstart⟩ := h
  exact ⟨front, by rw [← hnew, List.append_assoc, List.cons_append], hstart⟩

/-- A quote begins a cell, ends the quoted part of one or is doubled. -/
theorem IsRead.step_quote
    (h : IsRead origin bytes (origin.steps bytes).phase (origin.steps bytes).cell) :
    IsRead origin (bytes ++ [quote]) ((origin.steps bytes).step quote).phase
      ((origin.steps bytes).step quote).cell := by
  have hself := at_self (origin.steps bytes)
  cases hphase : (origin.steps bytes).phase with
  | recordStart => exact isRead_of_opening (.inl hphase) (by rwa [hphase] at h)
  | cellStart => exact isRead_of_opening (.inr hphase) (by rwa [hphase] at h)
  | bare => exact isRead_of_nextBare (by rw [hphase]; rfl)
  | quoted =>
    rw [hphase] at h hself
    have hat := hself.drop (rfl : Phase.quoted.next quote = (.quoteSeen, .drop))
    rw [hat.phase, hat.cell]
    exact h.append (by rw [List.append_nil])
  | quoteSeen =>
    rw [hphase] at h hself
    have hat := hself.keep (rfl : Phase.quoteSeen.next quote = (.quoted, .keep))
    rw [hat.phase, hat.cell]
    refine h.append ?_
    rw [List.reverse_cons, doubled_append_quote, List.append_nil, List.append_assoc]
    rfl

/-- Any other byte is read of the cell, or it ends the cell. -/
theorem IsRead.step_of_ne
    (h : IsRead origin bytes (origin.steps bytes).phase (origin.steps bytes).cell)
    (hb : b ≠ quote) :
    IsRead origin (bytes ++ [b]) ((origin.steps bytes).step b).phase
      ((origin.steps bytes).step b).cell := by
  have hself := at_self (origin.steps bytes)
  cases hphase : (origin.steps bytes).phase with
  | recordStart =>
    by_cases hend : isTerminator b = true
    · rw [hphase] at h hself
      have hat := hself.drop (if_pos hend : Phase.recordStart.next b = (.recordStart, .drop))
      rw [hat.phase, hat.cell]
      exact h
    · refine isRead_of_nextBare ?_
      rw [hphase, Phase.next, if_neg hend, Phase.nextCell, if_neg hb]
  | cellStart => exact isRead_of_nextBare (by rw [hphase, Phase.next, Phase.nextCell, if_neg hb])
  | bare => exact isRead_of_nextBare (by rw [hphase]; rfl)
  | quoted =>
    rw [hphase] at h hself
    have hat := hself.keep (if_neg hb : Phase.quoted.next b = (.quoted, .keep))
    rw [hat.phase, hat.cell]
    refine h.append ?_
    rw [List.reverse_cons, doubled_append_of_ne hb, List.append_nil, List.append_nil]
  | quoteSeen => exact isRead_of_nextBare (by rw [hphase, Phase.next, if_neg hb])

theorem IsRead.step (h : IsRead origin bytes (origin.steps bytes).phase (origin.steps bytes).cell)
    (b : UInt8) :
    IsRead origin (bytes ++ [b]) ((origin.steps bytes).step b).phase
      ((origin.steps bytes).step b).cell := by
  by_cases hb : b = quote
  · exact hb ▸ h.step_quote
  · exact h.step_of_ne hb

/-- **At every place** it is known what has been read of the open cell. -/
theorem isRead_steps (hphase : origin.phase = .recordStart) (hcell : origin.cell = [])
    (bytes : Bytes) :
    IsRead origin bytes (origin.steps bytes).phase (origin.steps bytes).cell := by
  induction bytes using List.reverseRecOn with
  | nil =>
    change IsRead origin [] origin.phase origin.cell
    rw [hphase, hcell]
    rfl
  | append_singleton bytes b ih =>
    have hstep := ih.step b
    rwa [← steps_singleton, ← steps_append] at hstep

theorem phase_steps (bytes : Bytes) : ∀ s : Scan,
    (s.steps bytes).phase = bytes.foldl (fun phase b => (phase.next b).1) s.phase := by
  induction bytes with
  | nil => exact fun s => rfl
  | cons b bytes ih =>
    intro s
    rw [steps_cons, ih, phase_step, List.foldl_cons]

end Scan

/-! ## Logs that end between quotes -/

/-- A log ends in a cell that is opened by a quote at an offset and closed nowhere: behind that
quote there are the bytes of the cell, with the quotes among them doubled. -/
structure IsOpened (bytes : Bytes) (n : Nat) (cell : Bytes) : Prop where
  /-- A cell begins at the offset. -/
  startsCell : markLength bytes ≤ n ∧ (phaseAt bytes n).StartsCell
  /-- The rest of the log. -/
  rest : bytes.drop n = quote :: doubled cell

/-- Between quotes there is one that opened the cell. -/
theorem exists_isOpened {bytes : Bytes} (h : (scan bytes).phase = .quoted) :
    ∃ n, IsOpened bytes n (scan bytes).cell.reverse := by
  have hphase : (Scan.start (markLength bytes)).phase = .recordStart := rfl
  have hread := Scan.isRead_steps hphase rfl (bytes.drop (markLength bytes))
  rw [← scan_eq_steps, h] at hread
  obtain ⟨front, hrest, hstart⟩ := hread
  rw [List.append_nil] at hrest
  refine ⟨markLength bytes + front.length, ⟨Nat.le_add_right _ _, ?_⟩, ?_⟩
  · have hfront :
        (bytes.take (markLength bytes + front.length)).drop (markLength bytes) = front := by
      rw [List.drop_take, Nat.add_sub_cancel_left, hrest, List.take_left]
    rw [phaseAt, hfront]
    rwa [Scan.phase_steps] at hstart
  · rw [← List.drop_drop, hrest, List.drop_left]

/-! ## The end of the log stands for the quote -/

theorem markLength_append_quote (bytes : Bytes) :
    markLength (bytes ++ [quote]) = markLength bytes := by
  rw [markLength, markLength]
  by_cases hmark : (bytes ++ [quote]).take 3 = byteOrderMark
  · obtain ⟨rest, hrest⟩ := exists_append_of_take_three (by decide) hmark
    have hmark' : bytes.take 3 = byteOrderMark := hrest ▸ rfl
    rw [if_pos hmark, if_pos hmark']
  · rw [if_neg hmark, if_neg]
    intro hmark'
    have hlength : 3 ≤ bytes.length := by
      have hmin : min 3 bytes.length = 3 := by rw [← List.length_take, hmark']; rfl
      exact hmin ▸ Nat.min_le_right 3 bytes.length
    exact hmark (by rw [List.take_append_of_le_length hlength, hmark'])

/-- Closing the quote makes no other records. -/
theorem records_append_quote {bytes : Bytes} (h : (scan bytes).phase = .quoted) :
    records (bytes ++ [quote]) = records bytes := by
  have hscan : scan (bytes ++ [quote]) = (scan bytes).step quote := by
    rw [scan_eq_steps, scan_eq_steps, markLength_append_quote,
      List.drop_append_of_le_length (markLength_le bytes), Scan.steps_append, Scan.steps_singleton]
  rw [records, records, hscan, Scan.step, h]
  simp only [Phase.next, if_pos, Scan.finish, h]
  rfl

/-- **A quote that is left open is no error.**  A log that ends between quotes is read as if the
closing quote stood at its end, so it is read whenever it is text.  The last cell that is read of it
is the rest of the log behind the quote that opened the cell, whatever was meant by it. -/
theorem decode_open_quote {bytes : Bytes} (h : (scan bytes).phase = .quoted) :
    decode bytes = decode (bytes ++ [quote]) ∧
      (IsText bytes → ∃ t, decode bytes = .ok t) ∧
      ∃ n cell, IsOpened bytes n cell ∧
        ∀ t, decode bytes = .ok t → (lastCell? t).map Utf8.encode = some cell := by
  have hopen : (scan bytes).phase ≠ .recordStart := by
    rw [h]
    decide
  have hfinish : records bytes = ((scan bytes).openRecord :: (scan bytes).records).reverse := by
    rw [records, Scan.finish, if_neg hopen]
  refine ⟨?_, fun htext => exists_decode_of_isText htext (by simp [hfinish]), ?_⟩
  · rw [decode, decode, Reading.ofBytes, Reading.ofBytes, records_append_quote h]
  · obtain ⟨n, hopened⟩ := exists_isOpened h
    refine ⟨n, _, hopened, fun t ht => ?_⟩
    rw [lastCell?_of_decode ht, hfinish]
    simp [Scan.openRecord]

/-- A log with a quote before a note that is closed nowhere. -/
def openNote : Bytes := Utf8.encode "t\tnote\n1\t\"lost\n2\tkept\n"

/-- The second row is read as part of the note. -/
theorem decode_open_quote_note :
    (scan openNote).phase = .quoted ∧
      decode openNote = .ok ⟨⟨["t", "note"]⟩, [⟨2, ⟨["1", "lost\n2\tkept\n"]⟩⟩]⟩ ∧
      decode openNote = decode (openNote ++ [quote]) ∧
      ∃ n cell, IsOpened openNote n cell ∧
        ∀ t, decode openNote = .ok t → (lastCell? t).map Utf8.encode = some cell := by
  have hquoted : (scan openNote).phase = .quoted := by decide +kernel
  obtain ⟨hclosed, -, hopened⟩ := decode_open_quote hquoted
  exact ⟨hquoted, by decide +kernel, hclosed, hopened⟩

end Tsv

end LogSplit
