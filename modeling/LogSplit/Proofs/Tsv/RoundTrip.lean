import LogSplit.Proofs.Text.Encoding
import LogSplit.Proofs.Tsv.Layout

/-!
# Reading back what was written

A header and rows are read back from every layout of theirs: the cells by
`RecordsLayout.map_cells_records`, and their texts because the bytes of a text decode to it.  What
the writer produces is such a layout (`tableLayout_encode`).

The byte order mark needs some care.  A log without one must not look as if it had one, which it
does if the first name begins with the character U+FEFF and is not quoted.
-/

set_option autoImplicit false

namespace LogSplit

namespace Tsv

open String (utf8EncodeChar)

/-! ## From bytes to text -/

theorem decodeCells_encode (index : Nat) (origin : Position) (cells : List String) :
    ∀ column, decodeCells index origin column (cells.map Utf8.encode) = .ok cells := by
  induction cells with
  | nil => exact fun column => rfl
  | cons cell cells ih =>
    intro column
    rw [List.map_cons, decodeCells, Utf8.decode_encode]
    simp only
    rw [ih]
    rfl

/-- Records whose cells are bytes of texts become rows of these texts. -/
theorem ofRecords_encode {texts : List (List String)} : ∀ {rs : List Record},
    rs.map (·.cells) = texts.map (·.map Utf8.encode) → ∀ index,
      (Reading.ofRecords index rs).failure = none ∧
        (Reading.ofRecords index rs).rows.map (·.row) = texts.map Row.mk := by
  induction texts with
  | nil =>
    intro rs h index
    obtain rfl := List.map_eq_nil_iff.1 h
    exact ⟨rfl, rfl⟩
  | cons cells texts ih =>
    intro rs h index
    cases rs with
    | nil => cases h
    | cons r rs =>
      obtain ⟨hcells, hrs⟩ := List.cons.inj h
      obtain ⟨hfailure, hrows⟩ := ih hrs (index + 1)
      have hdecode : decodeCells index r.origin 0 r.cells = .ok cells :=
        (congrArg (decodeCells index r.origin 0) hcells).trans (decodeCells_encode _ _ _ _)
      rw [Reading.ofRecords, hdecode]
      exact ⟨hfailure, congrArg (Row.mk cells :: ·) hrows⟩

/-- A log whose records are those of a table is read as that table. -/
theorem decode_of_map_cells_records {header : Header} {rows : List Row} {bytes : Bytes}
    (h : (records bytes).map (·.cells) = (tableRecords header rows).map (·.map Utf8.encode)) :
    ∃ t, decode bytes = .ok t ∧ t.header = header ∧ t.rows = rows := by
  obtain ⟨hfailure, hrows⟩ := ofRecords_encode h 0
  rw [decode, Reading.ofBytes, Reading.table, hfailure]
  cases hbody : (Reading.ofRecords 0 (records bytes)).rows with
  | nil =>
    rw [hbody] at hrows
    cases hrows
  | cons first body =>
    rw [hbody] at hrows
    obtain ⟨hfirst, hbody⟩ := List.cons.inj hrows
    refine ⟨_, rfl, ?_, ?_⟩
    · exact congrArg (fun r : Row => Header.mk r.cells) hfirst
    · rw [Table.rows, hbody, List.map_map]
      exact List.map_id' _

/-! ## The byte order mark -/

theorem byteOrderMark_eq : byteOrderMark = utf8EncodeChar '\uFEFF' := by decide

theorem take_three_ne_of_not_mem {b : UInt8} (h : b ∉ byteOrderMark) (bs : Bytes) :
    (b :: bs).take 3 ≠ byteOrderMark := fun hmark => h (hmark ▸ List.mem_cons_self)

/-- Only the character U+FEFF is taken for a mark. -/
theorem take_three_encode {text : String} {rest : Bytes} (hne : text ≠ "")
    (h : (Utf8.encode text ++ rest).take 3 = byteOrderMark) :
    text.toList.head? = some '\uFEFF' := by
  rw [Utf8.encode_eq] at h
  cases hcs : text.toList with
  | nil => exact absurd (String.toList_eq_nil_iff.1 hcs) hne
  | cons c cs =>
    rw [hcs, Utf8.encodeChars_cons, List.append_assoc] at h
    have hsplit := List.take_append_drop 3 (utf8EncodeChar c ++ (Utf8.encodeChars cs ++ rest))
    rw [h, byteOrderMark_eq] at hsplit
    rw [Utf8.eq_of_utf8EncodeChar_append hsplit]
    rfl

theorem CellLayout.take_three_ne {name : String} {text : Bytes}
    (h : CellLayout (Utf8.encode name) text) (hname : name.toList.head? ≠ some '\uFEFF')
    (hne : text ≠ []) (rest : Bytes) : (text ++ rest).take 3 ≠ byteOrderMark := by
  generalize hcell : Utf8.encode name = cell at h
  cases h with
  | bare h =>
    rw [← hcell] at hne ⊢
    refine fun hmark => hname (take_three_encode ?_ hmark)
    rintro rfl
    exact hne rfl
  | quoted => exact take_three_ne_of_not_mem (by decide) _

theorem RecordLayout.take_three_ne {name : String} {names : List String} {text : Bytes}
    (h : RecordLayout ((name :: names).map Utf8.encode) text)
    (hname : name.toList.head? ≠ some '\uFEFF') (rest : Bytes) :
    (text ++ rest).take 3 ≠ byteOrderMark := by
  obtain ⟨hwritten, hquoted⟩ := h
  generalize hcells : (name :: names).map Utf8.encode = cells at hwritten hquoted
  cases hwritten with
  | single h =>
    obtain ⟨rfl, -⟩ := List.cons.inj hcells
    refine h.take_three_ne hname ?_ rest
    rintro rfl
    have hempty := CellsLayout.eq_of_nil (.single h)
    cases hquoted hempty
  | @cons cell first cells' texts h hs =>
    obtain ⟨rfl, -⟩ := List.cons.inj hcells
    by_cases hne : first = []
    · rw [hne]
      exact take_three_ne_of_not_mem (by decide) _
    · rw [List.append_assoc, List.append_assoc]
      exact h.take_three_ne hname hne _

theorem IsBlankLines.take_three_ne {blank : Bytes} (h : IsBlankLines blank) (hne : blank ≠ [])
    (rest : Bytes) : (blank ++ rest).take 3 ≠ byteOrderMark := by
  obtain ⟨ends, hends, rfl⟩ := h
  cases ends with
  | nil => exact absurd rfl hne
  | cons e ends =>
    have he := hends e List.mem_cons_self
    simp only [terminators, List.mem_cons, List.not_mem_nil, or_false] at he
    rcases he with rfl | rfl | rfl <;> exact take_three_ne_of_not_mem (by decide) _

/-- Only in front of such a name can a layout seem to begin with a mark. -/
theorem RecordsLayout.take_three_ne {name : String} {names : List String}
    {records : List (List Bytes)} {text : Bytes}
    (h : RecordsLayout ((name :: names).map Utf8.encode :: records) text)
    (hname : name.toList.head? ≠ some '\uFEFF') : text.take 3 ≠ byteOrderMark := by
  cases h with
  | @last _ blank record hblank h =>
    by_cases hne : blank = []
    · rw [hne, List.nil_append, ← List.append_nil record]
      exact h.take_three_ne hname _
    · exact hblank.take_three_ne hne _
  | @cons _ blank record terminator _ texts hblank h hterminator hs =>
    rw [List.append_assoc, List.append_assoc]
    by_cases hne : blank = []
    · rw [hne, List.nil_append]
      exact h.take_three_ne hname _
    · exact hblank.take_three_ne hne _

/-! ## The layout of the writer -/

theorem flatten_cellPieces_of_bare {cell : Bytes} (h : ∀ b ∈ cell, isSpecial b = false) :
    (cellPieces cell).flatten = cell := by
  rw [cellPieces, if_neg (by simpa using h), ← List.flatMap_def]
  exact List.flatMap_singleton' cell

theorem cellLayout_cellPieces (cell : Bytes) : CellLayout cell (cellPieces cell).flatten := by
  by_cases h : cell.any isSpecial = true
  · have hdouble : (cell.map fun b => if b = quote then [quote, quote] else [b]).flatten
        = cell.flatMap fun b => if b = quote then [quote, quote] else [b] :=
      List.flatMap_def.symm
    rw [cellPieces, if_pos h, List.flatten_append, List.flatten_cons, hdouble,
      List.flatten_singleton]
    exact .quoted cell
  · have hbare : ∀ b ∈ cell, isSpecial b = false := by simpa using h
    rw [flatten_cellPieces_of_bare hbare]
    exact .bare hbare

theorem cellsLayout_cellsPieces : ∀ {cells : List Bytes}, cells ≠ [] →
    CellsLayout cells (cellsPieces cells).flatten
  | [], h => absurd rfl h
  | [cell], _ => .single (cellLayout_cellPieces cell)
  | cell :: next :: rest, _ => by
    rw [cellsPieces, List.flatten_append, List.flatten_cons, ← List.append_assoc]
    · exact .cons (cellLayout_cellPieces cell) (cellsLayout_cellsPieces (by simp))
    · simp

/-- A record is written in one of its layouts, with a line feed behind it. -/
theorem recordLayout_recordPieces {cells : List Bytes} (hne : cells ≠ []) :
    ∃ text, RecordLayout cells text ∧ (recordPieces cells).flatten = text ++ [lineFeed] := by
  have hcells := cellsLayout_cellsPieces hne
  rw [recordPieces]
  split
  · rename_i h
    rw [h] at hcells
    rw [hcells.eq_of_nil]
    exact ⟨[quote, quote], ⟨.single (.quoted []), fun _ => rfl⟩, rfl⟩
  · rename_i h
    refine ⟨_, ⟨hcells, ?_⟩, by rw [List.flatten_append, List.flatten_singleton]⟩
    rintro rfl
    exact absurd rfl h

theorem recordsLayout_encodeRecords {texts : List (List String)} (h : ∀ cells ∈ texts, cells ≠ []) :
    RecordsLayout (texts.map (·.map Utf8.encode)) (encodeRecords texts) := by
  induction texts with
  | nil => exact .nil
  | cons cells texts ih =>
    have hne : cells.map Utf8.encode ≠ [] := by simpa using h cells List.mem_cons_self
    obtain ⟨text, htext, hpieces⟩ := recordLayout_recordPieces hne
    rw [encodeRecords, pieces, List.flatMap_cons, List.flatten_append, hpieces]
    exact .cons isBlankLines_nil htext (by simp [terminators])
      (ih fun x hx => h x (List.mem_cons_of_mem _ hx))

/-! ## The destination -/

/-- A destination with room for all blocks takes them. -/
theorem deliver_of_length_le : ∀ {blocks : List Bytes} {room : Nat},
    blocks.flatten.length ≤ room → deliver room blocks = ⟨blocks.flatten, none⟩
  | [], room, _ => rfl
  | [last], room, h => by
    rw [List.flatten_singleton] at h ⊢
    rw [deliver, if_pos h]
  | block :: next :: rest, room, h => by
    rw [List.flatten_cons, List.length_append] at h
    rw [deliver, if_pos (by omega), deliver_of_length_le (by omega), List.flatten_cons]
    · rfl
    · simp

theorem write_of_length_le {limit : Nat} {texts : List (List String)}
    (h : (encodeRecords texts).length ≤ limit) :
    write limit texts = ⟨encodeRecords texts, none⟩ := by
  rw [encodeRecords, ← flatten_blocks] at h ⊢
  exact deliver_of_length_le h

/-! ## The round trip -/

/-- The ways of laying out a table, with a byte order mark in front or without one. -/
def TableLayout (header : Header) (rows : List Row) (bytes : Bytes) : Prop :=
  ∃ text, RecordsLayout ((tableRecords header rows).map (·.map Utf8.encode)) text ∧
    (bytes = text ∨ bytes = byteOrderMark ++ text)

theorem tableLayout_encode {header : Header} {rows : List Row} (hnames : header.names ≠ [])
    (hrows : ∀ r ∈ rows, r.cells ≠ []) : TableLayout header rows (encode header rows) := by
  refine ⟨_, recordsLayout_encodeRecords fun cells hcells => ?_, Or.inl rfl⟩
  rcases List.mem_cons.1 hcells with rfl | hcells
  · exact hnames
  · obtain ⟨r, hr, rfl⟩ := List.mem_map.1 hcells
    exact hrows r hr

/-- **Decoding undoes encoding, in every layout.**  A header with a name that does not begin with
U+FEFF and rows with cells are read back from every layout of them, and in particular from what is
written to a destination that has room for it. -/
theorem decode_tableLayout (header : Header) (rows : List Row) (hnames : header.names ≠ [])
    (hrows : ∀ r ∈ rows, r.cells ≠ [])
    (hmark : ∀ name ∈ header.names.head?, name.toList.head? ≠ some '\uFEFF') :
    (∀ bytes, TableLayout header rows bytes →
      ∃ t, decode bytes = .ok t ∧ t.header = header ∧ t.rows = rows) ∧
    ∀ limit, (encode header rows).length ≤ limit →
      (write limit (tableRecords header rows)).failure = none ∧
        ∃ t, decode (write limit (tableRecords header rows)).taken = .ok t ∧ t.header = header ∧
          t.rows = rows := by
  have hlayout : ∀ bytes, TableLayout header rows bytes →
      ∃ t, decode bytes = .ok t ∧ t.header = header ∧ t.rows = rows := by
    rintro bytes ⟨text, htext, rfl | rfl⟩
    · refine decode_of_map_cells_records (htext.map_cells_records.2 ?_)
      obtain ⟨name, names, hcons⟩ := List.exists_cons_of_ne_nil hnames
      rw [tableRecords, hcons] at htext
      exact htext.take_three_ne (hmark name (by rw [hcons]; rfl))
    · exact decode_of_map_cells_records htext.map_cells_records.1
  refine ⟨hlayout, fun limit hlimit => ?_⟩
  rw [write_of_length_le hlimit]
  exact ⟨rfl, hlayout _ (tableLayout_encode hnames hrows)⟩

/-- An empty line in front, records with different ends, and quotes with need and without. -/
theorem decode_mixedLayout :
    ∃ t, decode (Utf8.encode "\r\nt\t\"n°\"\r1\t\"a\"\"b\"\n\"\"") = .ok t ∧
      t.header = ⟨["t", "n°"]⟩ ∧ t.rows = [⟨["1", "a\"b"]⟩, ⟨[""]⟩] := by
  have hlayout : TableLayout ⟨["t", "n°"]⟩ [⟨["1", "a\"b"]⟩, ⟨[""]⟩]
      (Utf8.encode "\r\nt\t\"n°\"\r1\t\"a\"\"b\"\n\"\"") := by
    have hlines : IsBlankLines [carriageReturn, lineFeed] :=
      ⟨[[carriageReturn, lineFeed]], by decide, rfl⟩
    have hbare : ∀ b, isSpecial b = false → CellLayout [b] [b] := fun b hb =>
      .bare fun x hx => List.mem_singleton.1 hx ▸ hb
    have hheader := CellsLayout.cons (hbare 't'.toUInt8 rfl) (.single (.quoted (Utf8.encode "n°")))
    have hrow := CellsLayout.cons (hbare '1'.toUInt8 rfl) (.single (.quoted (Utf8.encode "a\"b")))
    have hlast := CellsLayout.single (.quoted (Utf8.encode ""))
    have hreturn : [carriageReturn] ∈ terminators := by decide
    have hfeed : [lineFeed] ∈ terminators := by decide
    refine ⟨_, cast (congrArg (RecordsLayout _) ?_) (RecordsLayout.cons hlines ⟨hheader, by simp⟩
      hreturn (.cons isBlankLines_nil ⟨hrow, by simp⟩ hfeed
        (.last isBlankLines_nil ⟨hlast, fun _ => rfl⟩))), Or.inl rfl⟩
    decide
  exact (decode_tableLayout ⟨["t", "n°"]⟩ [⟨["1", "a\"b"]⟩, ⟨[""]⟩] (by simp) (by simp) (by simp)).1
    _ hlayout

end Tsv

end LogSplit
