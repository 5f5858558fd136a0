import LogSplit.Proofs.Tsv.Rewriting
import LogSplit.Proofs.Tsv.TextStarts
import Mathlib.Data.Set.List

/-!
# A log that is text is a table

Two things can be wrong with a log: it has no record, or a cell in it is not text.  The first is the
case for a log of ends of lines only, with a byte order mark in front or without one
(`records_eq_nil_iff`), and for no other, since any other byte makes a record that no byte behind it
takes back.

The second cannot happen if the log as a whole is text (`isText_of_mem_records`), although cells are
cut out of it byte by byte.  The machine looks at a byte of ASCII only to tell what to do; it keeps
every other byte where it stands, whatever its phase, so the bytes of one character stay together.
So a text that has anything but ends of lines in it is always read (`decode_text`).
-/

set_option autoImplicit false

namespace LogSplit

namespace Tsv

open String (utf8EncodeChar)

/-! ## Logs without records -/

/-- Behind the byte order mark there are only ends of lines. -/
def HasNoText (bytes : Bytes) : Prop :=
  ∀ b ∈ bytes.drop (markLength bytes), b = carriageReturn ∨ b = lineFeed

theorem isTerminator_iff {b : UInt8} :
    isTerminator b = true ↔ b = carriageReturn ∨ b = lineFeed := by
  rw [isTerminator, Bool.or_eq_true, beq_iff_eq, beq_iff_eq, or_comm]

namespace Scan

variable {s : Scan} {b : UInt8}

theorem finish_eq_nil_iff : s.finish = [] ↔ s.phase = .recordStart ∧ s.records = [] := by
  rw [finish]
  split
  · rename_i hphase
    simp [hphase]
  · rename_i hphase
    simp [hphase]

/-- There is no record behind a byte just if there was none and the byte is the end of a line. -/
theorem finish_step_eq_nil_iff :
    (s.step b).finish = [] ↔ s.finish = [] ∧ isTerminator b = true := by
  rw [finish_eq_nil_iff, finish_eq_nil_iff, phase_step]
  by_cases hb : isTerminator b = false ∨ s.phase = .quoted
  · -- the byte belongs to a record
    have hopen := (Phase.next_in_record hb).1
    refine ⟨fun h => absurd h.1 hopen, fun ⟨hstart, hterminator⟩ => ?_⟩
    rcases hb with hb | hquoted
    · rw [hb] at hterminator
      cases hterminator
    · rw [hstart.1] at hquoted
      cases hquoted
  · obtain ⟨hb, hquoted⟩ := not_or.1 hb
    rw [Bool.not_eq_false] at hb
    by_cases hstart : s.phase = .recordStart
    · have hnext : s.phase.next b = (.recordStart, .drop) := by rw [hstart, Phase.next, if_pos hb]
      have hrecords := (step_of_ne_endRecord (s := s) (b := b) (by rw [hnext]; decide)).2
      rw [hnext, hrecords]
      simp [hstart, hb]
    · -- it ends the open one
      have hnext : s.phase.next b = (.recordStart, .endRecord) :=
        Phase.next_terminator hquoted hstart (isTerminator_iff.1 hb).symm
      have hrecords := (step_of_endRecord (s := s) (b := b) (by rw [hnext])).2
      rw [hrecords]
      simp [hstart]

theorem finish_steps_eq_nil_iff (bytes : Bytes) : ∀ {s : Scan},
    (s.steps bytes).finish = [] ↔ s.finish = [] ∧ ∀ b ∈ bytes, isTerminator b = true := by
  induction bytes with
  | nil => exact fun {s} => by simp [steps]
  | cons b bytes ih =>
    intro s
    rw [steps_cons, ih, finish_step_eq_nil_iff, List.forall_mem_cons, and_assoc]

end Scan

theorem records_eq_nil_iff {bytes : Bytes} : records bytes = [] ↔ HasNoText bytes := by
  rw [records, scan_eq_steps, Scan.finish_steps_eq_nil_iff, HasNoText]
  simp only [isTerminator_iff]
  exact and_iff_right rfl

/-- **A header is missing just if there is no record.** -/
theorem decode_eq_missingHeader_iff {bytes : Bytes} :
    decode bytes = .error .missingHeader ↔ records bytes = [] := by
  rw [decode, Reading.ofBytes, Reading.table]
  cases hrecords : records bytes with
  | nil => exact iff_of_true rfl rfl
  | cons r rest =>
    refine iff_of_false (fun h => ?_) (List.cons_ne_nil r rest)
    rw [Reading.ofRecords] at h
    cases hcells : decodeCells 0 r.origin 0 r.cells with
    | error e =>
      rw [hcells] at h
      cases h
    | ok cells =>
      rw [hcells] at h
      simp only [Reading.cons] at h
      split at h
      · cases h
      · rename_i hrows
        cases hrows
      · cases h

/-! ## Cells of a text -/

/-- Some bytes are those of a text. -/
def IsText (bytes : Bytes) : Prop := ∃ text, Utf8.encode text = bytes

theorem isText_nil : IsText [] := ⟨"", rfl⟩

theorem IsText.append_char {bytes : Bytes} (h : IsText bytes) (c : Char) :
    IsText (bytes ++ utf8EncodeChar c) := by
  obtain ⟨text, rfl⟩ := h
  exact ⟨text ++ String.singleton c, by rw [Utf8.encode_append, Utf8.encode_singleton]⟩

theorem isSpecial_eq_false_of_le {b : UInt8} (h : 128 ≤ b.toNat) : isSpecial b = false := by
  have hne : ∀ a : UInt8, a.toNat < 128 → b ≠ a := fun a ha hb => absurd (hb ▸ h) (Nat.not_le.2 ha)
  simp [isSpecial, isTerminator, hne tab, hne quote, hne lineFeed, hne carriageReturn,
    (by decide : tab.toNat < 128 ∧ quote.toNat < 128 ∧ lineFeed.toNat < 128 ∧
      carriageReturn.toNat < 128)]

/-- A byte that is not special is kept wherever it stands. -/
theorem Phase.effect_of_not_special {b : UInt8} (h : isSpecial b = false) (p : Phase) :
    (p.next b).2 = .keep := by
  have hquote := (isSpecial_eq_false_iff.1 h).2.1
  cases p with
  | recordStart => rw [next_of_not_special (.inl rfl) h]
  | cellStart => rw [next_of_not_special (.inr (.inl rfl)) h]
  | bare => rw [next_of_not_special (.inr (.inr rfl)) h]
  | quoted => rw [next, if_neg hquote]
  | quoteSeen => rw [next, if_neg hquote, nextBare_of_not_special h]

namespace Scan

/-- Everything that has been cut out is text. -/
structure Texts (s : Scan) : Prop where
  /-- The open cell. -/
  cell : IsText s.cell.reverse
  /-- The closed cells of the open record. -/
  cells : ∀ cell ∈ s.cells, IsText cell
  /-- The cells of the closed records. -/
  records : ∀ r ∈ s.records, ∀ cell ∈ r.cells, IsText cell

variable {s : Scan}

theorem texts_start (skipped : Nat) : (start skipped).Texts :=
  ⟨isText_nil, fun _ h => absurd h List.not_mem_nil, fun _ h => absurd h List.not_mem_nil⟩

theorem Texts.openRecord (h : s.Texts) : ∀ cell ∈ s.openRecord.cells, IsText cell := by
  intro cell hcell
  rcases List.mem_cons.1 (List.mem_reverse.1 hcell) with rfl | hcell
  · exact h.cell
  · exact h.cells cell hcell

theorem Texts.finish (h : s.Texts) : ∀ r ∈ s.finish, ∀ cell ∈ r.cells, IsText cell := by
  intro r hr
  rw [Scan.finish] at hr
  split at hr
  · exact h.records r (List.mem_reverse.1 hr)
  · rcases List.mem_cons.1 (List.mem_reverse.1 hr) with rfl | hr
    · exact h.openRecord
    · exact h.records r hr

/-- Bytes that are not special go to the open cell together. -/
theorem steps_of_not_special {bs : Bytes} (h : ∀ b ∈ bs, isSpecial b = false) : ∀ {s : Scan},
    (s.steps bs).cell = bs.reverse ++ s.cell ∧ (s.steps bs).cells = s.cells ∧
      (s.steps bs).records = s.records := by
  induction bs with
  | nil => exact ⟨rfl, rfl, rfl⟩
  | cons b bs ih =>
    intro s
    obtain ⟨hb, hbs⟩ := List.forall_mem_cons.1 h
    have hstep : (s.step b).cell = b :: s.cell ∧ (s.step b).cells = s.cells ∧
        (s.step b).records = s.records := by
      have heffect := Phase.effect_of_not_special hb s.phase
      rw [step]
      generalize s.phase.next b = next at heffect
      obtain ⟨phase, effect⟩ := next
      cases heffect
      exact ⟨rfl, rfl, rfl⟩
    obtain ⟨hcell, hcells, hrecords⟩ := ih hbs (s := s.step b)
    rw [steps_cons, hcell, hcells, hrecords, hstep.1, hstep.2.1, hstep.2.2, List.reverse_cons,
      List.append_assoc]
    exact ⟨rfl, rfl, rfl⟩

/-- A character is kept as a whole or not at all. -/
theorem Texts.steps_char (h : s.Texts) (c : Char) : (s.steps (utf8EncodeChar c)).Texts := by
  have hcell := h.cell.append_char c
  rcases Nat.lt_or_ge c.toNat 128 with hascii | hother
  · rw [Utf8.utf8EncodeChar_of_lt hascii] at hcell ⊢
    rw [← List.reverse_cons] at hcell
    rw [steps_singleton, step]
    obtain ⟨phase, effect⟩ := s.phase.next (UInt8.ofNat c.toNat)
    cases effect with
    | drop => exact ⟨h.cell, h.cells, h.records⟩
    | keep => exact ⟨hcell, h.cells, h.records⟩
    | endCell => exact ⟨isText_nil, List.forall_mem_cons.2 ⟨h.cell, h.cells⟩, h.records⟩
    | endRecord =>
      exact ⟨isText_nil, fun _ hnone => absurd hnone List.not_mem_nil,
        List.forall_mem_cons.2 ⟨h.openRecord, h.records⟩⟩
  · have hkept : ∀ b ∈ utf8EncodeChar c, isSpecial b = false := fun b hb =>
      isSpecial_eq_false_of_le (Utf8.le_of_mem_utf8EncodeChar hother hb)
    obtain ⟨hcell', hcells, hrecords⟩ := steps_of_not_special hkept (s := s)
    refine ⟨?_, hcells ▸ h.cells, hrecords ▸ h.records⟩
    rw [hcell', List.reverse_append, List.reverse_reverse]
    exact hcell

theorem Texts.steps_chars (cs : List Char) : ∀ {s : Scan}, s.Texts →
    (s.steps (Utf8.encodeChars cs)).Texts := by
  induction cs with
  | nil => exact fun h => h
  | cons c cs ih =>
    intro s h
    rw [Utf8.encodeChars_cons, steps_append]
    exact ih (h.steps_char c)

end Scan

/-- What stands behind the byte order mark of a text is text. -/
theorem isText_drop_markLength (text : String) :
    IsText ((Utf8.encode text).drop (markLength (Utf8.encode text))) := by
  rw [markLength]
  split
  · rename_i hmark
    have hne : text ≠ "" := by
      rintro rfl
      cases hmark
    have hhead := take_three_encode hne ((List.append_nil (Utf8.encode text)).symm ▸ hmark)
    obtain ⟨cs, hcs⟩ := List.head?_eq_some_iff.1 hhead
    exact ⟨withoutFirst text, by rw [encode_of_head hcs]; rfl⟩
  · exact ⟨text, rfl⟩

/-- **The cells of a text are texts.** -/
theorem isText_of_mem_records {bytes : Bytes} (h : IsText bytes) :
    ∀ r ∈ records bytes, ∀ cell ∈ r.cells, IsText cell := by
  obtain ⟨text, rfl⟩ := h
  obtain ⟨rest, hrest⟩ := isText_drop_markLength text
  rw [records, scan_eq_steps, ← hrest, Utf8.encode_eq rest]
  exact ((Scan.texts_start _).steps_chars rest.toList).finish

/-- Records of texts are the records of some lists of texts. -/
theorem exists_map_cells_eq {rs : List Record} (h : ∀ r ∈ rs, ∀ cell ∈ r.cells, IsText cell) :
    ∃ texts : List (List String), rs.map (·.cells) = texts.map (·.map Utf8.encode) := by
  have hcells : ∀ cells ∈ rs.map (·.cells), cells ∈ Set.range (List.map Utf8.encode) := by
    intro cells hcells
    obtain ⟨r, hr, rfl⟩ := List.mem_map.1 hcells
    rw [Set.range_list_map]
    exact h r hr
  have hrange : rs.map (·.cells) ∈ Set.range (List.map (List.map Utf8.encode)) := by
    rw [Set.range_list_map]
    exact hcells
  obtain ⟨texts, htexts⟩ := hrange
  exact ⟨texts, htexts.symm⟩

/-- A text that has a record is read. -/
theorem exists_decode_of_isText {bytes : Bytes} (h : IsText bytes) (hrecords : records bytes ≠ []) :
    ∃ t, decode bytes = .ok t := by
  obtain ⟨texts, htexts⟩ := exists_map_cells_eq (isText_of_mem_records h)
  have hread := decodeRecords_of_map_cells htexts
  have hne : texts ≠ [] := by
    rintro rfl
    exact hrecords (List.map_eq_nil_iff.1 htexts)
  rw [if_neg hne, decodeRecords] at hread
  cases hdecode : decode bytes with
  | error e =>
    rw [hdecode] at hread
    cases hread
  | ok t => exact ⟨t, rfl⟩

/-- **A log has no header just if it has no text, and every other text is read.**  Wherever quotes,
tabs, ends of lines and characters outside ASCII stand in it, and also if a quote is left open, it
is a table with a name in its header and a cell in each of its rows. -/
theorem decode_text :
    (∀ bytes, decode bytes = .error .missingHeader ↔ HasNoText bytes) ∧
      ∀ text, ¬ HasNoText (Utf8.encode text) ↔
        ∃ t, decode (Utf8.encode text) = .ok t ∧ t.header.names ≠ [] ∧
          ∀ r ∈ t.rows, r.cells ≠ [] := by
  have hmissing : ∀ bytes, decode bytes = .error .missingHeader ↔ HasNoText bytes := fun bytes =>
    decode_eq_missingHeader_iff.trans records_eq_nil_iff
  refine ⟨hmissing, fun text => ⟨fun htext => ?_, ?_⟩⟩
  · obtain ⟨t, ht⟩ := exists_decode_of_isText ⟨text, rfl⟩ (mt records_eq_nil_iff.1 htext)
    have hfilled := tableRecords_ne_nil_of_decode ht
    refine ⟨t, ht, hfilled _ List.mem_cons_self, fun r hr => hfilled _ ?_⟩
    exact List.mem_cons_of_mem _ (List.mem_map_of_mem hr)
  · rintro ⟨t, ht, -⟩ hnone
    rw [(hmissing _).2 hnone] at ht
    cases ht

end Tsv

end LogSplit
