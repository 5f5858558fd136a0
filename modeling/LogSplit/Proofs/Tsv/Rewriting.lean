import LogSplit.Proofs.Tsv.RecordCount
import Mathlib.Control.Monad.Basic

/-!
# Writing again what was read

Whatever the bytes of a log are, the records found in them have cells (`cells_ne_nil`), so a table
that was read can be laid out, and what the writer produces is a layout of it.  Reading that text
again gives the table back with one exception.  The reader drops a byte order mark from the front
of a log; the writer, which quotes a cell for a tab, a quote or the end of a line only, writes the
same three bytes when the first name begins with U+FEFF and has nothing in it to be quoted for.
Such a name comes back without its first character, and a header in which that character was
everything does not come back at all: its line is empty, and the first row is taken for the header.

`decode_rewritten` says what is read in either case, and that the exception is the only one.
-/

set_option autoImplicit false

namespace LogSplit

namespace Tsv

/-! ## Records have cells -/

/-- No closed record is without cells. -/
def Scan.Filled (s : Scan) : Prop := ∀ r ∈ s.records, r.cells ≠ []

namespace Scan

variable {s : Scan}

theorem cells_openRecord_ne_nil (s : Scan) : s.openRecord.cells ≠ [] := by
  simp [openRecord]

theorem Filled.cons_openRecord (h : s.Filled) : ∀ r ∈ s.openRecord :: s.records, r.cells ≠ [] :=
  List.forall_mem_cons.2 ⟨s.cells_openRecord_ne_nil, h⟩

theorem Filled.step (h : s.Filled) (b : UInt8) : (s.step b).Filled := by
  rw [Scan.step]
  obtain ⟨phase, effect⟩ := s.phase.next b
  cases effect with
  | drop => exact h
  | keep => exact h
  | endCell => exact h
  | endRecord => exact h.cons_openRecord

theorem filled_start (skipped : Nat) : (start skipped).Filled := by
  simp [Filled, start]

theorem Filled.finish (h : s.Filled) : ∀ r ∈ s.finish, r.cells ≠ [] := by
  intro r hr
  rw [Scan.finish] at hr
  split at hr
  · exact h r (List.mem_reverse.1 hr)
  · exact h.cons_openRecord r (List.mem_reverse.1 hr)

end Scan

/-- Every record of a log has cells. -/
theorem cells_ne_nil {bytes : Bytes} : ∀ r ∈ records bytes, r.cells ≠ [] := by
  have hscan : (scan bytes).Filled :=
    scan_induction Scan.filled_start (fun _ b h => h.step b) bytes
  exact hscan.finish

theorem decodeCells_ne_nil {record column : Nat} {origin : Position} {cells : List Bytes}
    {texts : List String} (h : decodeCells record origin column cells = .ok texts)
    (hne : cells ≠ []) : texts ≠ [] := by
  obtain ⟨cell, rest, rfl⟩ := List.exists_cons_of_ne_nil hne
  rw [decodeCells] at h
  split at h
  · cases h
  · rcases hrest : decodeCells record origin (column + 1) rest with e | texts' <;> rw [hrest] at h
    · cases h
    · cases h
      exact List.cons_ne_nil _ _

theorem Reading.cells_ofRecords_ne_nil {rs : List Record} :
    (∀ r ∈ rs, r.cells ≠ []) → ∀ index, ∀ r ∈ (ofRecords index rs).rows, r.row.cells ≠ [] := by
  induction rs with
  | nil => exact fun _ _ _ hr => absurd hr List.not_mem_nil
  | cons first rs ih =>
    intro h index r hr
    obtain ⟨hfirst, hrs⟩ := List.forall_mem_cons.1 h
    rw [ofRecords] at hr
    split at hr
    · exact absurd hr List.not_mem_nil
    · rename_i texts htexts
      rcases List.mem_cons.1 hr with rfl | hr
      · exact decodeCells_ne_nil htexts hfirst
      · exact ih hrs _ r hr

/-- A table that was read has a name, and a cell in every row. -/
theorem tableRecords_ne_nil_of_decode {bytes : Bytes} {t : Table} (h : decode bytes = .ok t) :
    ∀ cells ∈ tableRecords t.header t.rows, cells ≠ [] := by
  have hrows := Reading.cells_ofRecords_ne_nil (@cells_ne_nil bytes) 0
  rw [decode, Reading.ofBytes, Reading.table] at h
  split at h
  · cases h
  · cases h
  · rename_i header body _ hbody
    cases h
    rw [hbody] at hrows
    obtain ⟨hheader, hrows⟩ := List.forall_mem_cons.1 hrows
    refine List.forall_mem_cons.2 ⟨hheader, fun cells hcells => ?_⟩
    simp only [Table.rows, List.map_map, List.mem_map, Function.comp_apply] at hcells
    obtain ⟨r, hr, rfl⟩ := hcells
    exact hrows r hr

/-! ## What a text is read as -/

/-- Records tell headers and rows apart. -/
theorem tableRecords_inj {header header' : Header} {rows rows' : List Row} :
    tableRecords header rows = tableRecords header' rows' ↔ header = header' ∧ rows = rows' := by
  have hcells : ∀ r r' : Row, r.cells = r'.cells → r = r' := fun ⟨_⟩ ⟨_⟩ h => congrArg Row.mk h
  rw [tableRecords, tableRecords, List.cons_eq_cons, List.map_inj_right hcells]
  exact and_congr_left fun _ => (Header.mk.injEq header.names header'.names).to_iff.symm

/-- The header and the rows of a log, as one list of records. -/
def decodeRecords (bytes : Bytes) : Except TableError (List (List String)) :=
  (decode bytes).map fun t => tableRecords t.header t.rows

theorem decodeRecords_eq_ok_iff {bytes : Bytes} {header : Header} {rows : List Row} :
    decodeRecords bytes = .ok (tableRecords header rows) ↔
      ∃ t, decode bytes = .ok t ∧ t.header = header ∧ t.rows = rows := by
  rw [decodeRecords]
  cases hdecode : decode bytes with
  | error e => simp [Except.map]
  | ok t => simpa [Except.map] using tableRecords_inj

/-- Records are read as the header and the rows that they are; there has to be a header. -/
theorem decodeRecords_of_map_cells {bytes : Bytes} {texts : List (List String)}
    (h : (records bytes).map (·.cells) = texts.map (·.map Utf8.encode)) :
    decodeRecords bytes = if texts = [] then .error .missingHeader else .ok texts := by
  cases texts with
  | nil =>
    have hnone : records bytes = [] := by simpa using h
    rw [if_pos rfl, decodeRecords, decode, Reading.ofBytes, hnone]
    rfl
  | cons names texts =>
    have hrecords : names :: texts = tableRecords ⟨names⟩ (texts.map Row.mk) := by
      simp [tableRecords, Function.comp_def]
    rw [if_neg (List.cons_ne_nil _ _), hrecords, decodeRecords_eq_ok_iff]
    exact decode_of_map_cells_records (hrecords ▸ h)

/-! ## Names that look like a mark -/

/-- The written form of these names begins with the bytes of a byte order mark: the first name
begins with U+FEFF and is not put in quotes. -/
def looksMarked : List String → Bool
  | [] => false
  | name :: _ => name.toList.head? == some '\uFEFF' && !(Utf8.encode name).any isSpecial

/-- A text without its first character. -/
def withoutFirst (text : String) : String := String.ofList text.toList.tail

/-- The record that is left of names whose first character is dropped, if one is left. -/
def behindMark : List String → List (List String)
  | [] => []
  | name :: names =>
    if withoutFirst name :: names = [""] then [] else [withoutFirst name :: names]

/-- The records that are read of a header and rows that were written. -/
def reread (header : Header) (rows : List Row) : List (List String) :=
  if looksMarked header.names then behindMark header.names ++ rows.map (·.cells)
  else tableRecords header rows

theorem looksMarked_cons {name : String} {names : List String} :
    looksMarked (name :: names) = true ↔
      name.toList.head? = some '\uFEFF' ∧ ∀ b ∈ Utf8.encode name, isSpecial b = false := by
  simp [looksMarked]

/-- Nothing but a header that looks marked is read as something else. -/
theorem reread_eq_iff {header : Header} {rows : List Row} :
    reread header rows = tableRecords header rows ↔ looksMarked header.names = false := by
  rw [reread]
  split
  · rename_i hmarked
    refine ⟨fun h => ?_, fun h => absurd (hmarked.symm.trans h) (by simp)⟩
    obtain ⟨names⟩ := header
    cases names with
    | nil => cases hmarked
    | cons name names =>
      have hname : name ≠ withoutFirst name := by
        intro hsame
        have hlist : name.toList = name.toList.tail :=
          (congrArg String.toList hsame).trans String.toList_ofList
        cases hcs : name.toList with
        | nil => simp [looksMarked, hcs] at hmarked
        | cons c cs =>
          rw [hcs] at hlist
          exact absurd hlist (List.cons_ne_self c cs)
      rw [behindMark, tableRecords] at h
      split at h
      · simpa using congrArg List.length h
      · simp [hname.symm] at h
  · rename_i hmarked
    simpa using hmarked

/-! ## The written form of such names -/

section written

variable {name : String} {names : List String}

theorem encode_of_head {cs : List Char} (h : name.toList = '\uFEFF' :: cs) :
    Utf8.encode name = byteOrderMark ++ Utf8.encode (withoutFirst name) := by
  rw [Utf8.encode_eq, Utf8.encode_eq, withoutFirst, h, Utf8.encodeChars_cons, byteOrderMark_eq,
    String.toList_ofList]
  rfl

/-- The first of some cells stands in front of something that the others alone decide. -/
theorem exists_flatten_cellsPieces_cons (cells : List Bytes) :
    ∃ rest, ∀ cell, (cellsPieces (cell :: cells)).flatten = (cellPieces cell).flatten ++ rest := by
  cases cells with
  | nil => exact ⟨[], fun cell => (List.append_nil _).symm⟩
  | cons next cells =>
    refine ⟨tab :: (cellsPieces (next :: cells)).flatten, fun cell => ?_⟩
    rw [cellsPieces, List.flatten_append, List.flatten_cons, List.singleton_append]
    simp

theorem flatten_recordPieces {cells : List Bytes} (hne : cells ≠ []) (hempty : cells ≠ [[]]) :
    (recordPieces cells).flatten = (cellsPieces cells).flatten ++ [lineFeed] := by
  have hcells := cellsLayout_cellsPieces hne
  rw [recordPieces]
  split
  · rename_i h
    rw [h] at hcells
    exact absurd hcells.eq_of_nil hempty
  · rw [List.flatten_append, List.flatten_singleton]

theorem map_encode_ne_singleton_nil (h : names ≠ [""]) : names.map Utf8.encode ≠ [[]] := by
  intro hmap
  obtain ⟨name, rfl, hname⟩ := List.map_eq_singleton_iff.1 hmap
  refine h (congrArg (fun t => [t]) ?_)
  rw [← Except.ok.injEq (ε := Nat), ← Utf8.decode_encode name, hname]
  rfl

/-- **A mark in front.**  Names that look marked are written like the rest of them behind a byte
order mark, and like an empty line behind it if there is no rest. -/
theorem flatten_recordPieces_of_looksMarked (h : looksMarked (name :: names) = true) :
    (recordPieces ((name :: names).map Utf8.encode)).flatten = byteOrderMark ++
      if withoutFirst name :: names = [""] then [lineFeed]
      else (recordPieces ((withoutFirst name :: names).map Utf8.encode)).flatten := by
  obtain ⟨hhead, hbare⟩ := looksMarked_cons.1 h
  obtain ⟨cs, hcs⟩ := List.head?_eq_some_iff.1 hhead
  have hencode := encode_of_head hcs
  have hname : name :: names ≠ [""] := by
    intro hempty
    rw [(List.cons.inj hempty).1] at hcs
    cases hcs
  obtain ⟨rest, hrest⟩ := exists_flatten_cellsPieces_cons (names.map Utf8.encode)
  rw [flatten_recordPieces (by simp) (map_encode_ne_singleton_nil hname), List.map_cons, hrest,
    flatten_cellPieces_of_bare hbare, hencode, List.append_assoc, List.append_assoc,
    List.append_cancel_left_eq]
  split
  · rename_i hempty
    obtain ⟨hfirst, rfl⟩ := List.cons.inj hempty
    have hnil : [] = [] ++ rest := hrest []
    rw [hfirst, ← List.nil_append rest, ← hnil]
    rfl
  · rename_i hne
    have hbare' : ∀ b ∈ Utf8.encode (withoutFirst name), isSpecial b = false := fun b hb =>
      hbare b (hencode ▸ List.mem_append_right _ hb)
    rw [flatten_recordPieces (by simp) (map_encode_ne_singleton_nil hne), List.map_cons, hrest,
      flatten_cellPieces_of_bare hbare', List.append_assoc]

/-- Other names do not begin like a mark. -/
theorem take_three_encodeRecords_ne {texts : List (List String)}
    (htexts : ∀ cells ∈ (name :: names) :: texts, cells ≠ [])
    (h : looksMarked (name :: names) = false) :
    (encodeRecords ((name :: names) :: texts)).take 3 ≠ byteOrderMark := by
  by_cases hhead : name.toList.head? = some '\uFEFF'
  · -- the name begins with U+FEFF, so something in it calls for quotes
    have hspecial : (Utf8.encode name).any isSpecial = true := by
      rw [looksMarked, hhead] at h
      simpa using h
    have hname : name :: names ≠ [""] := by
      rintro hempty
      rw [(List.cons.inj hempty).1] at hhead
      cases hhead
    obtain ⟨rest, hrest⟩ := exists_flatten_cellsPieces_cons (names.map Utf8.encode)
    rw [encodeRecords_cons, flatten_recordPieces (by simp) (map_encode_ne_singleton_nil hname),
      List.map_cons, hrest, cellPieces, if_pos hspecial]
    exact take_three_ne_of_not_mem (by decide) _
  · exact (recordsLayout_encodeRecords htexts).take_three_ne hhead

end written

/-! ## Reading what was written -/

/-- **What is read of a header and rows that were written.** -/
theorem decodeRecords_encode {header : Header} {rows : List Row}
    (h : ∀ cells ∈ tableRecords header rows, cells ≠ []) :
    decodeRecords (encode header rows)
      = if reread header rows = [] then .error .missingHeader else .ok (reread header rows) := by
  refine decodeRecords_of_map_cells ?_
  obtain ⟨name, names, hnames⟩ := List.exists_cons_of_ne_nil (h _ List.mem_cons_self)
  have hlayout := recordsLayout_encodeRecords h
  rw [reread, encode]
  simp only [tableRecords, hnames] at h hlayout ⊢
  split
  · rename_i hmarked
    have hrows := recordsLayout_encodeRecords (List.forall_mem_cons.1 h).2
    rw [encodeRecords_cons, flatten_recordPieces_of_looksMarked hmarked, behindMark,
      List.append_assoc]
    split
    · -- the line is empty, and the first row follows it
      have hline : ((Scan.start 3).step lineFeed).At .recordStart [] [] [] :=
        (Scan.at_start 3).drop rfl
      exact hrows.map_cells_finish hline
    · rename_i hne
      rw [← encodeRecords_cons]
      have hrest : ∀ cells ∈ (withoutFirst name :: names) :: rows.map (·.cells), cells ≠ [] :=
        List.forall_mem_cons.2 ⟨List.cons_ne_nil _ _, (List.forall_mem_cons.1 h).2⟩
      exact (recordsLayout_encodeRecords hrest).map_cells_records.1
  · rename_i hmarked
    exact hlayout.map_cells_records.2 (take_three_encodeRecords_ne h (by simpa using hmarked))

/-- **Writing a log that was read, and reading it again.**  A destination with room for it takes
everything.  What is then read are the same header and the same rows, unless the first name begins
with U+FEFF and is not put in quotes; in that case it is the rest behind that character. -/
theorem decode_rewritten {bytes : Bytes} {t : Table} {limit : Nat} (h : decode bytes = .ok t)
    (hroom : (encode t.header t.rows).length ≤ limit) :
    (write limit (tableRecords t.header t.rows)).failure = none ∧
      decodeRecords (write limit (tableRecords t.header t.rows)).taken
        = (if reread t.header t.rows = [] then .error .missingHeader
          else .ok (reread t.header t.rows)) ∧
      ((∃ t', decode (write limit (tableRecords t.header t.rows)).taken = .ok t' ∧
          t'.header = t.header ∧ t'.rows = t.rows) ↔ looksMarked t.header.names = false) := by
  have hread := decodeRecords_encode (tableRecords_ne_nil_of_decode h)
  rw [write_of_length_le hroom]
  refine ⟨rfl, hread, ?_⟩
  rw [← decodeRecords_eq_ok_iff, ← @reread_eq_iff t.header t.rows]
  refine Iff.trans (Eq.congr hread rfl) ⟨fun hsame => ?_, fun hsame => ?_⟩
  · split at hsame
    · cases hsame
    · exact Except.ok.inj hsame
  · rw [if_neg (by rw [hsame]; exact List.cons_ne_nil _ _), hsame]

/-- Behind the mark of the log stands a name that begins with U+FEFF; written again, the name
loses that character. -/
theorem decode_rewritten_marked :
    ∃ t, decode (Utf8.encode "\uFEFF\uFEFFa\n1\n") = .ok t ∧ t.header = ⟨["\uFEFFa"]⟩ ∧
      t.rows = [⟨["1"]⟩] ∧
      decodeRecords (write 100 (tableRecords t.header t.rows)).taken = .ok [["a"], ["1"]] ∧
      ¬ ∃ t', decode (write 100 (tableRecords t.header t.rows)).taken = .ok t' ∧
        t'.header = t.header ∧ t'.rows = t.rows := by
  have hread : decode (Utf8.encode "\uFEFF\uFEFFa\n1\n") = .ok ⟨⟨["\uFEFFa"]⟩, [⟨2, ⟨["1"]⟩⟩]⟩ := by
    decide +kernel
  obtain ⟨-, hrecords, hiff⟩ := @decode_rewritten _ _ 100 hread (by decide)
  refine ⟨_, hread, rfl, rfl, hrecords.trans (by decide), fun hsame => ?_⟩
  exact absurd (hiff.1 hsame) (by decide)

end Tsv

end LogSplit
