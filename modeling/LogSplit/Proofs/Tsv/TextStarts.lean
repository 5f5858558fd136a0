import LogSplit.Proofs.Tsv.RecordLines
import Mathlib.Data.List.DropRight
import Mathlib.Data.List.Range

/-!
# Where the text of a record begins

The line that a record is attributed to is sampled before its text is reached: the line ends that
are passed over on the way, empty lines and the line feed of a carriage return and line feed, come
afterwards.  What an editor shows is the line on which the text begins.

Both are described here by offsets into the log, without the book-keeping of the machine.  A text
begins where the machine is between records and the byte is not the end of a line (`startsText`).
In front of it stand the ends of lines `lineEnds`, of which the first ended the record before.
`Follows` says that a line is the one behind that first end, so that it differs from the line of
the text by the line feeds among the others, and `forall₂_textStarts` that this is the line which
the machine gives to the record.
-/

set_option autoImplicit false

namespace LogSplit

namespace Tsv

variable {bytes : Bytes} {n line : Nat} {b : UInt8}

/-! ## Places in a log -/

/-- The line of the place behind the first bytes of a log, as an editor counts: one more than there
are line feeds before it. -/
def lineAt (bytes : Bytes) (n : Nat) : Nat := 1 + (bytes.take n).count lineFeed

/-- The number of bytes of the byte order mark. -/
def markLength (bytes : Bytes) : Nat := if bytes.take 3 = byteOrderMark then 3 else 0

/-- The phase behind the first bytes of a log, the byte order mark aside. -/
def phaseAt (bytes : Bytes) (n : Nat) : Phase :=
  ((bytes.take n).drop (markLength bytes)).foldl (fun phase b => (phase.next b).1) .recordStart

/-- The ends of lines directly before an offset. -/
def lineEnds (bytes : Bytes) (n : Nat) : Bytes := (bytes.take n).rtakeWhile isTerminator

/-- The text of a record begins at an offset: no record is open there, and the byte is not the end
of an empty line. -/
def startsText (bytes : Bytes) (n : Nat) : Bool :=
  decide (markLength bytes ≤ n ∧ phaseAt bytes n = .recordStart)
    && bytes[n]?.any fun b => !isTerminator b

/-- The texts that begin before an offset. -/
def textStartsBefore (bytes : Bytes) (n : Nat) : List Nat :=
  (List.range n).filter (startsText bytes)

/-- The offsets at which the texts of a log begin. -/
def textStarts (bytes : Bytes) : List Nat := textStartsBefore bytes bytes.length

theorem lineAt_succ (h : bytes[n]? = some b) :
    lineAt bytes (n + 1) = if b = lineFeed then lineAt bytes n + 1 else lineAt bytes n := by
  rw [lineAt, lineAt, List.take_add_one, h, List.count_append, ← Nat.add_assoc]
  by_cases hb : b = lineFeed
  · simp [hb]
  · simp [hb]

theorem phaseAt_succ (hn : markLength bytes ≤ n) (h : bytes[n]? = some b) :
    phaseAt bytes (n + 1) = ((phaseAt bytes n).next b).1 := by
  have hlt : n < bytes.length := (List.getElem?_eq_some_iff.1 h).1
  have hle : markLength bytes ≤ (bytes.take n).length := by
    rw [List.length_take]
    omega
  rw [phaseAt, phaseAt, List.take_add_one, h, List.drop_append_of_le_length hle,
    List.foldl_append]
  rfl

theorem lineEnds_succ_of_terminator (h : bytes[n]? = some b) (hb : isTerminator b = true) :
    lineEnds bytes (n + 1) = lineEnds bytes n ++ [b] := by
  rw [lineEnds, List.take_add_one, h]
  exact List.rtakeWhile_concat_pos _ _ _ hb

theorem lineEnds_succ_of_text (h : bytes[n]? = some b) (hb : isTerminator b = false) :
    lineEnds bytes (n + 1) = [] := by
  rw [lineEnds, List.take_add_one, h]
  exact List.rtakeWhile_concat_neg _ _ _ (by simp [hb])

theorem startsText_iff (h : bytes[n]? = some b) (hn : markLength bytes ≤ n) :
    startsText bytes n = true ↔ phaseAt bytes n = .recordStart ∧ isTerminator b = false := by
  simp [startsText, h, hn]

theorem exists_getElem?_of_startsText (h : startsText bytes n = true) :
    ∃ b, bytes[n]? = some b ∧ isTerminator b = false := by
  rw [startsText, Bool.and_eq_true, Option.any_eq_true] at h
  obtain ⟨-, b, hbyte, hb⟩ := h
  exact ⟨b, hbyte, by simpa using hb⟩

theorem textStartsBefore_succ (h : startsText bytes n = true) :
    textStartsBefore bytes (n + 1) = textStartsBefore bytes n ++ [n] := by
  rw [textStartsBefore, List.range_succ, List.filter_append, List.filter_singleton, h]
  rfl

theorem textStartsBefore_succ_of_not (h : startsText bytes n = false) :
    textStartsBefore bytes (n + 1) = textStartsBefore bytes n := by
  rw [textStartsBefore, List.range_succ, List.filter_append, List.filter_singleton, h]
  exact List.append_nil _

/-- No text begins in the byte order mark. -/
theorem textStartsBefore_markLength (bytes : Bytes) :
    textStartsBefore bytes (markLength bytes) = [] := by
  refine List.filter_eq_nil_iff.2 fun n hn => ?_
  have hlt := Nat.not_le_of_lt (List.mem_range.1 hn)
  simp [startsText, hlt]

/-! ## Steps between records and in them -/

namespace Phase

/-- The end of a line ends the record, unless it is quoted. -/
theorem next_of_terminator (p : Phase) (hb : isTerminator b = true) :
    (p.next b).1 = .recordStart ∨ (p.next b).1 = .quoted := by
  have hb' : b = lineFeed ∨ b = carriageReturn := by simpa [isTerminator] using hb
  rcases hb' with rfl | rfl <;> cases p <;> decide

/-- Any other byte, and a quoted one, leaves a record open. -/
theorem next_in_record {p : Phase} (h : isTerminator b = false ∨ p = .quoted) :
    (p.next b).1 ≠ .recordStart ∧ (p.next b).2 ≠ .endRecord := by
  by_cases hp : p = .quoted
  · subst hp
    rw [next]
    split <;> decide
  · have hb := h.resolve_right hp
    have hbare : (nextBare b).1 ≠ .recordStart ∧ (nextBare b).2 ≠ .endRecord := by
      rw [nextBare]
      split
      · decide
      · rw [hb]
        decide
    have hcell : (nextCell b).1 ≠ .recordStart ∧ (nextCell b).2 ≠ .endRecord := by
      rw [nextCell]
      split
      · decide
      · exact hbare
    cases p with
    | recordStart => rwa [next, if_neg (by simp [hb])]
    | cellStart => exact hcell
    | bare => exact hbare
    | quoted => exact absurd rfl hp
    | quoteSeen =>
      rw [next]
      split
      · decide
      · exact hbare

end Phase

/-! ## The line of a record and the line of its text -/

/-- A line is the one behind the first of the ends of lines before an offset. -/
structure Follows (bytes : Bytes) (line n : Nat) : Prop where
  /-- A line has ended there. -/
  ne_nil : lineEnds bytes n ≠ []
  /-- The line at the offset is as many lines behind as line feeds come after the first end. -/
  lineAt_eq : lineAt bytes n = line + (lineEnds bytes n).tail.count lineFeed

/-- At an offset the reading of a record with this line has begun: it is the first record, or the
line is the one behind the end of the record before. -/
def Attributed (bytes : Bytes) (line n : Nat) : Prop :=
  textStartsBefore bytes n = [] ∨ Follows bytes line n

/-- Directly behind the end of a record. -/
theorem follows_of_end (h : bytes[n]? = some b) (hb : isTerminator b = true)
    (hends : lineEnds bytes n = []) : Follows bytes (lineAt bytes (n + 1)) (n + 1) := by
  have hsingle : lineEnds bytes (n + 1) = [b] := by
    rw [lineEnds_succ_of_terminator h hb, hends, List.nil_append]
  exact ⟨by simp [hsingle], by simp [hsingle]⟩

/-- One more end of a line does not change the line of the record. -/
theorem Follows.succ (hline : Follows bytes line n) (h : bytes[n]? = some b)
    (hb : isTerminator b = true) : Follows bytes line (n + 1) := by
  have hends := lineEnds_succ_of_terminator h hb
  refine ⟨by simp [hends], ?_⟩
  rw [hends, List.tail_append_of_ne_nil hline.ne_nil, List.count_append, lineAt_succ h,
    hline.lineAt_eq]
  by_cases hfeed : b = lineFeed
  · simp [hfeed, Nat.add_assoc]
  · simp [hfeed]

/-- It is the line at the offset unless a line feed comes after the first end. -/
theorem Follows.eq_lineAt_iff (h : Follows bytes line n) :
    line = lineAt bytes n ↔ lineFeed ∉ (lineEnds bytes n).tail := by
  rw [h.lineAt_eq, ← List.count_eq_zero, eq_comm]
  exact Nat.add_eq_left

/-! ## What the machine keeps -/

namespace Scan

/-- The lines of the closed records and, when a record is open, of that one, newest first. -/
def lines (s : Scan) : List Nat :=
  if s.phase = .recordStart then s.records.map (·.origin.line)
  else s.origin.line :: s.records.map (·.origin.line)

theorem map_line_finish (s : Scan) : s.finish.map (·.origin.line) = s.lines.reverse := by
  rw [finish, lines]
  split
  · rw [List.map_reverse]
  · rw [List.map_reverse]
    rfl

/-- The machine stands at an offset of a log. -/
structure StandsAt (bytes : Bytes) (s : Scan) (n : Nat) : Prop where
  /-- It is behind the byte order mark. -/
  markLength_le : markLength bytes ≤ n
  /-- It knows the line. -/
  line : s.here.line = lineAt bytes n
  /-- The phase is that of the bytes before. -/
  phase : s.phase = phaseAt bytes n
  /-- An open record that is not quoted does not end with the end of a line. -/
  lineEnds_eq : s.phase ≠ .recordStart → s.phase ≠ .quoted → lineEnds bytes n = []

/-- The machine has attributed every text up to an offset. -/
structure Tracks (bytes : Bytes) (s : Scan) (n : Nat) : Prop extends s.StandsAt bytes n where
  /-- The lines of the records belong to the texts that have begun, newest first. -/
  attributed : List.Forall₂ (Attributed bytes) s.lines (textStartsBefore bytes n).reverse
  /-- Between records the line of the next one is known. -/
  next_line : s.phase = .recordStart → Attributed bytes s.origin.line n

theorem standsAt_start (bytes : Bytes) :
    (start (markLength bytes)).StandsAt bytes (markLength bytes) where
  markLength_le := Nat.le_refl _
  line := by
    rw [lineAt, markLength]
    split
    · rename_i hmark
      rw [hmark]
      rfl
    · rfl
  phase := by
    have hnone : (bytes.take (markLength bytes)).drop (markLength bytes) = [] :=
      List.drop_eq_nil_of_le (List.length_take_le _ _)
    rw [phaseAt, hnone]
    rfl
  lineEnds_eq h := absurd rfl h

theorem tracks_start (bytes : Bytes) :
    (start (markLength bytes)).Tracks bytes (markLength bytes) where
  toStandsAt := standsAt_start bytes
  attributed := by
    rw [textStartsBefore_markLength]
    exact .nil
  next_line _ := .inl (textStartsBefore_markLength bytes)

variable {s : Scan}

theorem StandsAt.step (h : s.StandsAt bytes n) (hbyte : bytes[n]? = some b) :
    (s.step b).StandsAt bytes (n + 1) where
  markLength_le := Nat.le_succ_of_le h.markLength_le
  line := by rw [here_step, Position.advance, lineAt_succ hbyte, h.line]
  phase := by rw [phase_step, phaseAt_succ h.markLength_le hbyte, h.phase]
  lineEnds_eq hstart hquoted := by
    rw [phase_step] at hstart hquoted
    cases hb : isTerminator b with
    | true => exact absurd (s.phase.next_of_terminator hb) (not_or_intro hstart hquoted)
    | false => exact lineEnds_succ_of_text hbyte hb

theorem StandsAt.startsText_iff (h : s.StandsAt bytes n) (hbyte : bytes[n]? = some b) :
    startsText bytes n = true ↔ s.phase = .recordStart ∧ isTerminator b = false := by
  rw [h.phase, Tsv.startsText_iff hbyte h.markLength_le]

/-- The end of an empty line changes nothing. -/
theorem Tracks.step_blank (h : s.Tracks bytes n) (hbyte : bytes[n]? = some b)
    (hb : isTerminator b = true) (hphase : s.phase = .recordStart) :
    (s.step b).Tracks bytes (n + 1) := by
  have hnext : s.phase.next b = (.recordStart, .drop) := by rw [hphase, Phase.next, if_pos hb]
  obtain ⟨horigin, hrecords⟩ := step_of_ne_endRecord (s := s) (b := b) (by rw [hnext]; decide)
  have hphase' : (s.step b).phase = .recordStart := by rw [phase_step, hnext]
  have hstarts : textStartsBefore bytes (n + 1) = textStartsBefore bytes n :=
    textStartsBefore_succ_of_not (by simp [← Bool.not_eq_true, h.startsText_iff hbyte, hb])
  refine { h.step hbyte with attributed := ?_, next_line := fun _ => ?_ }
  · have hlines := h.attributed
    rw [lines, if_pos hphase] at hlines
    rwa [lines, if_pos hphase', hrecords, hstarts]
  · rw [horigin]
    exact (h.next_line hphase).imp hstarts.trans fun hline => hline.succ hbyte hb

/-- The end of a record settles the line of the next one. -/
theorem Tracks.step_end (h : s.Tracks bytes n) (hbyte : bytes[n]? = some b)
    (hb : isTerminator b = true) (hstart : s.phase ≠ .recordStart) (hquoted : s.phase ≠ .quoted) :
    (s.step b).Tracks bytes (n + 1) := by
  have hnext : s.phase.next b = (.recordStart, .endRecord) :=
    Phase.next_terminator hquoted hstart (by simpa [isTerminator] using hb)
  obtain ⟨horigin, hrecords⟩ := step_of_endRecord (s := s) (b := b) (by rw [hnext])
  have hphase' : (s.step b).phase = .recordStart := by rw [phase_step, hnext]
  have hstarts : textStartsBefore bytes (n + 1) = textStartsBefore bytes n :=
    textStartsBefore_succ_of_not (by simp [← Bool.not_eq_true, h.startsText_iff hbyte, hb])
  refine { h.step hbyte with attributed := ?_, next_line := fun _ => .inr ?_ }
  · have hlines := h.attributed
    rw [lines, if_neg hstart] at hlines
    rwa [lines, if_pos hphase', hrecords, hstarts]
  · have hline := (h.step hbyte).line
    rw [here_step] at hline
    rw [horigin, hline]
    exact follows_of_end hbyte hb (h.lineEnds_eq hstart hquoted)

/-- Any other byte belongs to a record, and between records it begins one. -/
theorem Tracks.step_text (h : s.Tracks bytes n) (hbyte : bytes[n]? = some b)
    (hb : isTerminator b = false ∨ s.phase = .quoted) : (s.step b).Tracks bytes (n + 1) := by
  obtain ⟨hstart, heffect⟩ := Phase.next_in_record hb
  obtain ⟨horigin, hrecords⟩ := step_of_ne_endRecord heffect
  have hphase' : (s.step b).phase ≠ .recordStart := by rwa [phase_step]
  refine { h.step hbyte with attributed := ?_, next_line := fun hnext => absurd hnext hphase' }
  have hlines := h.attributed
  rw [lines, if_neg hphase', horigin, hrecords]
  by_cases hphase : s.phase = .recordStart
  · have hbegins : startsText bytes n = true := by
      rw [h.startsText_iff hbyte]
      exact ⟨hphase, hb.resolve_right (by rw [hphase]; decide)⟩
    rw [lines, if_pos hphase] at hlines
    rw [textStartsBefore_succ hbegins, List.reverse_append]
    exact .cons (h.next_line hphase) hlines
  · have hgoes : startsText bytes n = false := by
      simp [← Bool.not_eq_true, h.startsText_iff hbyte, hphase]
    rw [lines, if_neg hphase] at hlines
    rwa [textStartsBefore_succ_of_not hgoes]

theorem Tracks.step (h : s.Tracks bytes n) (hbyte : bytes[n]? = some b) :
    (s.step b).Tracks bytes (n + 1) := by
  by_cases hb : isTerminator b = false ∨ s.phase = .quoted
  · exact h.step_text hbyte hb
  · obtain ⟨hb, hquoted⟩ := not_or.1 hb
    rw [Bool.not_eq_false] at hb
    by_cases hphase : s.phase = .recordStart
    · exact h.step_blank hbyte hb hphase
    · exact h.step_end hbyte hb hphase hquoted

theorem Tracks.steps : ∀ {rest : Bytes} {s : Scan} {n : Nat}, s.Tracks bytes n →
    bytes.drop n = rest → (s.steps rest).Tracks bytes (n + rest.length) := by
  intro rest
  induction rest with
  | nil => exact fun h _ => h
  | cons b rest ih =>
    intro s n h hrest
    have hbyte : bytes[n]? = some b := by
      rw [← List.head?_drop, hrest, List.head?_cons]
    have hrest' : bytes.drop (n + 1) = rest := by
      rw [← List.tail_drop, hrest, List.tail_cons]
    rw [steps_cons, List.length_cons, ← Nat.add_assoc, Nat.add_right_comm]
    exact ih (h.step hbyte) hrest'

end Scan

/-- The machine reads what stands behind the byte order mark. -/
theorem scan_eq_steps (bytes : Bytes) :
    scan bytes = (Scan.start (markLength bytes)).steps (bytes.drop (markLength bytes)) := by
  rw [scan, markLength]
  split <;> rfl

theorem markLength_le (bytes : Bytes) : markLength bytes ≤ bytes.length := by
  rw [markLength]
  split
  · rename_i hmark
    have hlength : min 3 bytes.length = 3 := by rw [← List.length_take, hmark]; rfl
    exact hlength ▸ Nat.min_le_right 3 bytes.length
  · exact Nat.zero_le _

/-- **Records and texts correspond**, and each record has the line that was settled when the reading
of it began. -/
theorem forall₂_textStarts (bytes : Bytes) :
    List.Forall₂ (Attributed bytes) ((records bytes).map (·.origin.line)) (textStarts bytes) := by
  have hend := (Scan.tracks_start bytes).steps rfl
  rw [← scan_eq_steps, List.length_drop, Nat.add_sub_cancel' (markLength_le bytes)] at hend
  have hlines := hend.attributed
  rw [List.forall₂_reverse_iff.symm, List.reverse_reverse] at hlines
  rw [records, Scan.map_line_finish]
  exact hlines

/-! ## Lines of rows -/

theorem startsText_of_getElem? {i start : Nat} (h : (textStarts bytes)[i]? = some start) :
    startsText bytes start = true :=
  (List.mem_filter.1 (List.mem_of_getElem? h)).2

/-- A text that is not the first has one before it. -/
theorem textStartsBefore_ne_nil {i start : Nat} (h : (textStarts bytes)[i + 1]? = some start) :
    textStartsBefore bytes start ≠ [] := by
  obtain ⟨hi, hstart⟩ := List.getElem?_eq_some_iff.1 h
  have hordered : (textStarts bytes).Pairwise (· < ·) := List.pairwise_lt_range.filter _
  have hi' : i < (textStarts bytes).length := Nat.lt_of_succ_lt hi
  have hlt := List.pairwise_iff_getElem.1 hordered i (i + 1) hi' hi i.lt_succ_self
  rw [hstart] at hlt
  have hbefore := startsText_of_getElem? (List.getElem?_eq_getElem hi')
  exact List.ne_nil_of_mem (List.mem_filter.2 ⟨List.mem_range.2 hlt, hbefore⟩)

/-- The header and every row of a table have a text. -/
theorem length_textStarts_of_decode {t : Table} (h : decode bytes = .ok t) :
    (textStarts bytes).length = t.body.length + 1 := by
  rw [← (forall₂_textStarts bytes).length_eq, List.length_map, length_records_of_decode h]

/-- **The line of a row is the one behind the end of the record before it.** -/
theorem follows_of_decode {t : Table} (h : decode bytes = .ok t) {i : Nat}
    (hi : i < t.body.length) :
    ∃ start, (textStarts bytes)[i + 1]? = some start ∧ Follows bytes (t.lineNumber i) start := by
  have hall := forall₂_textStarts bytes
  obtain ⟨hlt, hline⟩ := List.getElem?_eq_some_iff.1 (getElem?_lines_of_decode h hi)
  have hstart : i + 1 < (textStarts bytes).length := hall.length_eq ▸ hlt
  have hattributed := hall.get hlt hstart
  rw [List.get_eq_getElem, List.get_eq_getElem, hline] at hattributed
  have hget := List.getElem?_eq_getElem hstart
  exact ⟨_, hget, hattributed.resolve_left (textStartsBefore_ne_nil hget)⟩

/-! ## Logs whose lines end in a line feed -/

/-- Behind every carriage return there is a line feed. -/
def NoLoneReturn (bytes : Bytes) : Prop :=
  ∀ n, bytes[n]? = some carriageReturn → bytes[n + 1]? = some lineFeed

/-- The ends of lines before an offset are bytes of the log. -/
theorem exists_getElem?_lineEnds (hn : n ≤ bytes.length) : ∃ front,
    front + (lineEnds bytes n).length = n ∧
      ∀ k < (lineEnds bytes n).length, (lineEnds bytes n)[k]? = bytes[front + k]? := by
  obtain ⟨front, hfront⟩ := List.rtakeWhile_suffix isTerminator (bytes.take n)
  rw [← lineEnds] at hfront
  have hlength : front.length + (lineEnds bytes n).length = n := by
    rw [← List.length_append, hfront, List.length_take_of_le hn]
  refine ⟨front.length, hlength, fun k hk => ?_⟩
  rw [← List.getElem?_take_of_lt (by omega : front.length + k < n), ← hfront,
    List.getElem?_append_right (Nat.le_add_right _ _), Nat.add_sub_cancel_left]

/-- Nor is there a lone carriage return among the ends of lines in front of a text. -/
theorem NoLoneReturn.getElem?_lineEnds (h : NoLoneReturn bytes) (htext : startsText bytes n = true)
    {k : Nat} (hk : (lineEnds bytes n)[k]? = some carriageReturn) :
    (lineEnds bytes n)[k + 1]? = some lineFeed := by
  obtain ⟨b, hbyte, hb⟩ := exists_getElem?_of_startsText htext
  obtain ⟨front, hlength, hget⟩ :=
    exists_getElem?_lineEnds (Nat.le_of_lt (List.getElem?_eq_some_iff.1 hbyte).1)
  have hlt : k < (lineEnds bytes n).length := (List.getElem?_eq_some_iff.1 hk).1
  have hfeed : bytes[front + (k + 1)]? = some lineFeed := h _ (hget k hlt ▸ hk)
  by_cases hlast : k + 1 < (lineEnds bytes n).length
  · rw [hget _ hlast, hfeed]
  · -- the text would begin with the line feed
    rw [show front + (k + 1) = n by omega, hbyte] at hfeed
    cases hfeed
    cases hb

/-- **Where every line ends in a line feed**, a line is that of the text behind it only if the text
directly follows a line feed, with no carriage return and no empty line. -/
theorem Follows.eq_lineAt_iff_of_noLoneReturn (h : Follows bytes line n)
    (hreturn : NoLoneReturn bytes) (htext : startsText bytes n = true) :
    line = lineAt bytes n ↔ lineEnds bytes n = [lineFeed] := by
  rw [h.eq_lineAt_iff]
  refine ⟨fun hnone => ?_, fun hends => by simp [hends]⟩
  have hkind : ∀ b ∈ lineEnds bytes n, b = lineFeed ∨ b = carriageReturn := fun b hb => by
    simpa [isTerminator] using List.mem_rtakeWhile_imp hb
  have hpaired := fun k => hreturn.getElem?_lineEnds htext (k := k)
  have hne := h.ne_nil
  generalize lineEnds bytes n = ends at hnone hkind hpaired hne
  match ends with
  | [] => exact absurd rfl hne
  | [first] =>
    rcases hkind first List.mem_cons_self with rfl | rfl
    · rfl
    · cases hpaired 0 rfl
  | first :: second :: rest =>
    rcases hkind second (by simp) with rfl | rfl
    · exact absurd List.mem_cons_self hnone
    · have hfeed : rest[0]? = some lineFeed := hpaired 1 rfl
      exact absurd (List.mem_cons_of_mem _ (List.mem_of_getElem? hfeed)) hnone

end Tsv

end LogSplit
