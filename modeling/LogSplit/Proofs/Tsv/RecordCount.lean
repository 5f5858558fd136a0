import LogSplit.Proofs.Tsv.RecordLines
import LogSplit.Proofs.Tsv.RoundTrip

/-!
# How many records a written text has

A text that is written has no more records than were written, also where it cannot be read back:
a first name that begins with U+FEFF loses that character to the byte order mark, and a header
that consists of nothing else becomes an empty line.  A text that was read as a table therefore
differs from everything that is written of fewer rows than the table has (`encode_ne_of_decode`).
-/

set_option autoImplicit false

namespace LogSplit

namespace Tsv

/-! ## Layouts of whatever is written -/

/-- A record without cells is written like one with an empty cell. -/
theorem exists_recordLayout_recordPieces (cells : List Bytes) :
    ∃ cells' text, RecordLayout cells' text ∧
      (recordPieces cells).flatten = text ++ [lineFeed] := by
  by_cases hne : cells = []
  · rw [hne]
    exact ⟨[[]], [quote, quote], ⟨.single (.quoted []), fun _ => rfl⟩, rfl⟩
  · exact ⟨cells, recordLayout_recordPieces hne⟩

theorem encodeRecords_cons (cells : List String) (texts : List (List String)) :
    encodeRecords (cells :: texts)
      = (recordPieces (cells.map Utf8.encode)).flatten ++ encodeRecords texts := by
  rw [encodeRecords, pieces, List.flatMap_cons, List.flatten_append]
  rfl

/-- What is written is a layout of as many records. -/
theorem exists_recordsLayout_encodeRecords (texts : List (List String)) :
    ∃ records, RecordsLayout records (encodeRecords texts) ∧ records.length = texts.length := by
  induction texts with
  | nil => exact ⟨[], .nil, rfl⟩
  | cons cells texts ih =>
    obtain ⟨records, hrecords, hlength⟩ := ih
    obtain ⟨cells', text, htext, hpieces⟩ :=
      exists_recordLayout_recordPieces (cells.map Utf8.encode)
    rw [encodeRecords_cons, hpieces]
    exact ⟨cells' :: records, .cons isBlankLines_nil htext (by simp [terminators]) hrecords,
      congrArg (· + 1) hlength⟩

/-! ## Behind a byte order mark -/

/-- A mark in front of a byte that is not part of it ends before that byte. -/
theorem exists_append_of_take_three {b : UInt8} (hb : b ∉ byteOrderMark) {front back : Bytes}
    (h : (front ++ b :: back).take 3 = byteOrderMark) : ∃ rest, front = byteOrderMark ++ rest := by
  match front, h with
  | [], h => exact absurd h (take_three_ne_of_not_mem hb back)
  | [x], h => exact absurd (h ▸ by simp : b ∈ byteOrderMark) hb
  | [x, y], h => exact absurd (h ▸ by simp : b ∈ byteOrderMark) hb
  | x :: y :: z :: rest, h => exact ⟨rest, congrArg (· ++ rest) h⟩

theorem CellLayout.exists_of_mark {cell text : Bytes}
    (h : CellLayout cell (byteOrderMark ++ text)) : ∃ cell', CellLayout cell' text := by
  generalize hall : byteOrderMark ++ text = all at h
  cases h with
  | bare h =>
    subst hall
    exact ⟨text, .bare fun b hb => h b (List.mem_append_right _ hb)⟩
  | quoted => exact absurd (List.cons.inj hall).1 (by decide)

theorem CellsLayout.exists_of_mark {cells : List Bytes} {text : Bytes}
    (h : CellsLayout cells (byteOrderMark ++ text)) : ∃ cells', CellsLayout cells' text := by
  generalize hall : byteOrderMark ++ text = all at h
  cases h with
  | single h =>
    subst hall
    obtain ⟨cell', h'⟩ := h.exists_of_mark
    exact ⟨[cell'], .single h'⟩
  | @cons cell first cells texts h hs =>
    rw [List.append_assoc, List.singleton_append] at hall
    obtain ⟨rest, rfl⟩ := exists_append_of_take_three (b := tab) (by decide)
      (hall ▸ rfl : (first ++ tab :: texts).take 3 = byteOrderMark)
    rw [List.append_assoc, List.append_cancel_left_eq] at hall
    obtain ⟨cell', h'⟩ := h.exists_of_mark
    rw [hall]
    exact ⟨cell' :: cells, by simpa using CellsLayout.cons h' hs⟩

/-- Behind cells and a line feed at most one more record is closed. -/
theorem CellsLayout.at_steps_lineFeed {cells : List Bytes} {text : Bytes} {s : Scan}
    {done : List (List Bytes)} (h : CellsLayout cells text) (hs : s.At .recordStart [] [] done) :
    ∃ done', (s.steps (text ++ [lineFeed])).At .recordStart [] [] done' ∧
      done'.length ≤ done.length + 1 := by
  obtain ⟨phase', cell', closed', hat, hquoted, hstart, -⟩ := h.at_steps hs (Or.inl rfl)
  rw [Scan.steps_append]
  by_cases hp : phase' = .recordStart
  · -- nothing has been read, so the line is empty
    obtain rfl := (hstart hp).2
    exact ⟨done, hs.drop rfl, Nat.le_succ _⟩
  · exact ⟨_, hat.endRecord (Phase.next_terminator hquoted hp (Or.inl rfl)), Nat.le_refl _⟩

/-! ## Counting -/

theorem length_records_encodeRecords_le (texts : List (List String)) :
    (records (encodeRecords texts)).length ≤ texts.length := by
  obtain ⟨rs, hlayout, hlength⟩ := exists_recordsLayout_encodeRecords texts
  by_cases hmark : (encodeRecords texts).take 3 = byteOrderMark
  · cases texts with
    | nil => cases hmark
    | cons cells texts =>
      obtain ⟨cells', text, htext, hpieces⟩ :=
        exists_recordLayout_recordPieces (cells.map Utf8.encode)
      obtain ⟨rs', hlayout', hlength'⟩ := exists_recordsLayout_encodeRecords texts
      have hall : encodeRecords (cells :: texts) = text ++ lineFeed :: encodeRecords texts := by
        rw [encodeRecords_cons, hpieces, List.append_assoc, List.singleton_append]
      rw [hall] at hmark
      obtain ⟨rest, rfl⟩ := exists_append_of_take_three (by decide) hmark
      obtain ⟨cells'', hrest⟩ := htext.written.exists_of_mark
      obtain ⟨done, hat, hdone⟩ := hrest.at_steps_lineFeed (Scan.at_start 3)
      have hfinish := congrArg List.length (hlayout'.map_cells_finish hat)
      rw [← Scan.steps_append, List.append_assoc, List.singleton_append, List.length_map,
        List.length_append, List.length_reverse] at hfinish
      have hscan : records (encodeRecords (cells :: texts))
          = ((Scan.start 3).steps (rest ++ lineFeed :: encodeRecords texts)).finish := by
        rw [hall, records, scan, if_pos hmark]
        rfl
      rw [hscan, hfinish, hlength', List.length_cons]
      exact Nat.add_comm texts.length 1 ▸ Nat.add_le_add_right hdone _
  · have hsame : (records (encodeRecords texts)).length = rs.length := by
      rw [← hlayout.map_cells_records.2 hmark, List.length_map]
    exact Nat.le_of_eq (hsame.trans hlength)

/-- **A log is not written again by writing fewer rows than it has.** -/
theorem encode_ne_of_decode {bytes : Bytes} {t : Table} (h : decode bytes = .ok t)
    (header : Header) {rows : List Row} (hrows : rows.length < t.body.length) :
    encode header rows ≠ bytes := by
  rintro rfl
  have hle := length_records_encodeRecords_le (tableRecords header rows)
  rw [← encode, length_records_of_decode h, tableRecords, List.length_cons, List.length_map] at hle
  omega

end Tsv

end LogSplit
