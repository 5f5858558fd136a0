import LogSplit.Proofs.Split.Phases
import LogSplit.Proofs.Tsv.TextStarts

/-!
# The lines in errors and reports

Errors and reports name rows by the lines that the table has for them.  `lineAt_textStart` says
how such a line differs from the line on which the text of the row begins, which is the one that an
editor shows: it does not count the line feeds between the end of the record before and the text.
So it is too small behind an empty line, and behind every line that ends in a carriage return and a
line feed.

The lines are in order all the same.  A segment has a row, and its rows are rows of the table, so a
report names a first and a last line of each segment in this order, and the segments one behind the
other (`reported_lines_ascend`).
-/

set_option autoImplicit false

namespace LogSplit

variable {bytes : Bytes} {t : Table} {last : Nat}

/-! ## The line of a row and the line of its text -/

/-- **The line of a row and the line on which its text begins.**  Below the header there is a text
for each row.  It begins as many lines behind the line that the table has for the row, and that
errors and reports name, as there are line feeds between the end of the record before and the text.
If every line of the log ends in a line feed, the two lines are the same just where a single line
feed separates the text from the record before. -/
theorem lineAt_textStart_of_decode (h : Tsv.decode bytes = .ok t) :
    (Tsv.textStarts bytes).length = t.rows.length + 1 ∧
    ∀ i < t.rows.length, ∃ start, (Tsv.textStarts bytes)[i + 1]? = some start ∧
      Tsv.lineAt bytes start
        = t.lineNumber i + (Tsv.lineEnds bytes start).tail.count Tsv.lineFeed ∧
      (t.lineNumber i = Tsv.lineAt bytes start ↔
        Tsv.lineFeed ∉ (Tsv.lineEnds bytes start).tail) ∧
      (Tsv.NoLoneReturn bytes → (t.lineNumber i = Tsv.lineAt bytes start ↔
        Tsv.lineEnds bytes start = [Tsv.lineFeed])) ∧
      (∀ (p : CompiledPredicate) (r : NumberedRow) (e : RowError), t.body[i]? = some r →
        p.test r = .error e → e.line = t.lineNumber i) ∧
      ∀ w : WrittenSegment, w.start = i → (w.report t).startLine = t.lineNumber i := by
  rw [t.length_rows]
  refine ⟨Tsv.length_textStarts_of_decode h, fun i hi => ?_⟩
  obtain ⟨start, hstart, hfollows⟩ := Tsv.follows_of_decode h hi
  refine ⟨start, hstart, hfollows.lineAt_eq, hfollows.eq_lineAt_iff, fun hreturn => ?_,
    fun p r e hr htest => ?_, fun w hw => ?_⟩
  · exact hfollows.eq_lineAt_iff_of_noLoneReturn hreturn (Tsv.startsText_of_getElem? hstart)
  · rw [p.line_of_test_eq_error htest, t.lineNumber_of_getElem? hr]
  · rw [WrittenSegment.report, hw]

/-- Behind a header and a row that end in a carriage return and a line feed, the first one with an
empty line behind it, the rows begin on lines three and four and are attributed to one and three. -/
theorem lineAt_textStart_of_decode_returns :
    ∃ t start start', Tsv.decode (Utf8.encode "t\r\n\r\n1\r\n2\r\n") = .ok t ∧
      (Tsv.textStarts (Utf8.encode "t\r\n\r\n1\r\n2\r\n")) = [0, start, start'] ∧
      Tsv.lineAt (Utf8.encode "t\r\n\r\n1\r\n2\r\n") start = 3 ∧ t.lineNumber 0 = 1 ∧
      Tsv.lineAt (Utf8.encode "t\r\n\r\n1\r\n2\r\n") start' = 4 ∧ t.lineNumber 1 = 3 := by
  have hread : Tsv.decode (Utf8.encode "t\r\n\r\n1\r\n2\r\n")
      = .ok ⟨⟨["t"]⟩, [⟨1, ⟨["1"]⟩⟩, ⟨3, ⟨["2"]⟩⟩]⟩ := by
    decide +kernel
  have hstarts : Tsv.textStarts (Utf8.encode "t\r\n\r\n1\r\n2\r\n") = [0, 5, 8] := by
    decide +kernel
  obtain ⟨-, hrows⟩ := lineAt_textStart_of_decode hread
  obtain ⟨start, hstart, hline, -⟩ := hrows 0 (by decide)
  obtain ⟨start', hstart', hline', -⟩ := hrows 1 (by decide)
  rw [hstarts] at hstart hstart'
  cases hstart
  cases hstart'
  exact ⟨_, 5, 8, hread, hstarts, hline.trans (by decide +kernel), rfl,
    hline'.trans (by decide +kernel), rfl⟩

/-! ## The lines of segments -/

/-- The first and the last line of a segment whose rows are rows of the table. -/
theorem WrittenSegment.report_lines (h : t.LinesAscend last) (w : WrittenSegment)
    (hrows : 1 ≤ w.rows) (hinside : w.start + w.rows ≤ t.rows.length) :
    1 ≤ (w.report t).startLine ∧ (w.report t).startLine ≤ (w.report t).endLine ∧
      (w.report t).endLine ≤ last :=
  ⟨h.one_le _ (by omega), h.mono _ _ (by omega) (by omega), h.le_last _ (by omega)⟩

/-- A segment that begins behind another one begins on no earlier line than that ends. -/
theorem WrittenSegment.endLine_le_startLine (h : t.LinesAscend last) (w w' : WrittenSegment)
    (hbefore : w.start + w.rows ≤ w'.start) (hinside : w'.start < t.rows.length) :
    (w.report t).endLine ≤ (w'.report t).startLine :=
  h.mono _ _ (by omega) hinside

namespace MaximalRuns

variable {p : CompiledPredicate} {segments : List Segment}

/-- A maximal run has a row, and its rows are rows of the table. -/
theorem inside (h : MaximalRuns p t segments) {s : Segment} (hs : s ∈ segments) :
    1 ≤ s.length ∧ s.start + s.length < t.rows.length := by
  refine ⟨(h.isRun s hs).length_pos, ?_⟩
  rw [t.length_rows]
  exact h.stop_lt s hs

/-- Maximal runs lie one behind the other in the order of their numbers. -/
theorem pairwise_index (h : MaximalRuns p t segments) :
    segments.Pairwise fun a b => a.index < b.index ∧ a.start + a.length ≤ b.start := by
  refine List.pairwise_iff_getElem.2 fun i j hi hj hij => ⟨?_, ?_⟩
  · rw [h.index_eq i _ (List.getElem?_eq_getElem hi), h.index_eq j _ (List.getElem?_eq_getElem hj)]
    exact Nat.succ_lt_succ hij
  · exact Nat.le_of_lt (List.pairwise_iff_getElem.1 h.ordered i j hi hj hij)

/-- The lines in the reports on maximal runs. -/
theorem report_lines (h : MaximalRuns p t segments) (hlines : t.LinesAscend last)
    (d : Destination) : ∀ r ∈ (segments.map d.written).map (·.report t),
      1 ≤ r.rows ∧ 1 ≤ r.startLine ∧ r.startLine ≤ r.endLine ∧ r.endLine ≤ last := by
  intro r hr
  rw [List.map_map, List.mem_map] at hr
  obtain ⟨s, hs, rfl⟩ := hr
  obtain ⟨hpos, hinside⟩ := h.inside hs
  exact ⟨hpos, (d.written s).report_lines hlines hpos (Nat.le_of_lt hinside)⟩

/-- The reports on maximal runs are in the order of their lines. -/
theorem pairwise_report (h : MaximalRuns p t segments) (hlines : t.LinesAscend last)
    (d : Destination) : ((segments.map d.written).map (·.report t)).Pairwise
      fun a b => a.index < b.index ∧ a.endLine ≤ b.startLine := by
  rw [List.map_map, List.pairwise_map]
  refine h.pairwise_index.imp_of_mem fun {s s'} _ hs' hbefore => ⟨hbefore.1, ?_⟩
  obtain ⟨hpos, hinside⟩ := h.inside hs'
  exact (d.written s).endLine_le_startLine hlines (d.written s') hbefore.2
    (Nat.lt_of_le_of_lt (Nat.le_add_right _ _) hinside)

end MaximalRuns

/-- **The lines of rows, and of the segments in a report, ascend.**  Every row of a table that was
read has the line of its record, between the first line of the log and its last, and no row has an
earlier line than a row before it.  A split that succeeds reports on segments that have a row and
whose rows are rows of the table, so that their lines ascend as well. -/
theorem reported_lines_ascend :
    (∀ (bytes : Bytes) (t : Table), Tsv.decode bytes = .ok t →
      (Tsv.records bytes).length = t.rows.length + 1 ∧
      (∀ i < t.rows.length,
        ((Tsv.records bytes).map (·.origin.line))[i + 1]? = some (t.lineNumber i)) ∧
      t.LinesAscend (1 + bytes.count Tsv.lineFeed)) ∧
    ∀ (settings : Settings) (predicate : String) (host host' : Host) (report : Report),
      (split settings predicate : OnHost _) host = (.ok report, host') →
      ∃ (plan : Plan) (bytes : Bytes) (segments : List Segment),
        plan.MadeOf settings predicate host.files host.cwd ∧
        host.files.read host.cwd settings.input = .ok bytes ∧
        Tsv.decode bytes = .ok plan.table ∧
        MaximalRuns plan.compiled plan.table segments ∧
        report.segments
          = (segments.map plan.destination.written).map (·.report plan.table) ∧
        (∀ s ∈ segments, 1 ≤ s.length ∧ 1 ≤ s.start + s.length ∧
          s.start + s.length - 1 < plan.table.rows.length) ∧
        (∀ r ∈ report.segments, 1 ≤ r.rows ∧ 1 ≤ r.startLine ∧ r.startLine ≤ r.endLine ∧
          r.endLine ≤ 1 + bytes.count Tsv.lineFeed) ∧
        report.segments.Pairwise fun a b => a.index < b.index ∧ a.endLine ≤ b.startLine := by
  refine ⟨fun bytes t h => ?_, fun settings predicate host host' report h => ?_⟩
  · exact ⟨by rw [Tsv.length_records_of_decode h, t.length_rows],
      fun i hi => Tsv.getElem?_lines_of_decode h (t.length_rows ▸ hi), Tsv.linesAscend_of_decode h⟩
  · obtain ⟨outcome, files, journal, hends, hrun⟩ := split_onHost settings predicate host
    obtain ⟨rfl, rfl⟩ := Prod.mk.inj (h.symm.trans hrun)
    obtain ⟨plan, removed, prepared, hsucceeds, rfl⟩ := hends.exists_succeeds
    obtain ⟨bytes, hread, hdecode⟩ := hsucceeds.madeOf.table
    have hruns := maximalRuns_scan hsucceeds.testable
    have hlines := Tsv.linesAscend_of_decode hdecode
    refine ⟨plan, bytes, _, hsucceeds.madeOf, hread, hdecode, hruns, rfl, fun s hs => ?_,
      hruns.report_lines hlines plan.destination, hruns.pairwise_report hlines plan.destination⟩
    obtain ⟨hpos, hinside⟩ := hruns.inside hs
    exact ⟨hpos, by omega, by omega⟩

/-- A log whose lines end in a carriage return and a line feed, one of them empty. -/
def returnsLog : Bytes := Utf8.encode "t\tstate\r\n0\t1\r\n\r\n1\t1\r\n2\t0\r\n"

/-- A host with nothing but this log. -/
def returnsHost : Host := .start (FileTree.empty.insert ["log.txt"] (.file returnsLog)) []

/-- The settings for it. -/
def returnsSettings : Settings := ⟨⟨"log.txt"⟩, ⟨"out"⟩, "flight", true, true⟩

set_option maxRecDepth 100000 in
/-- Its rows are attributed to lines one, two and four, and the first two are a segment. -/
theorem reported_lines_ascend_returns :
    (∃ t, Tsv.decode returnsLog = .ok t ∧ t.body.map (·.line) = [1, 2, 4] ∧ t.LinesAscend 6) ∧
      ∃ report host', (split returnsSettings "state >= 1" : OnHost _) returnsHost
          = (.ok report, host') ∧
        report.segments = [⟨1, ⟨"out/flight-1.txt"⟩, 1, 2, 2⟩] ∧
        ∀ r ∈ report.segments, 1 ≤ r.rows ∧ 1 ≤ r.startLine ∧ r.startLine ≤ r.endLine := by
  obtain ⟨hread, hreport⟩ := reported_lines_ascend
  have hdecode : Tsv.decode returnsLog = .ok ⟨⟨["t", "state"]⟩,
      [⟨1, ⟨["0", "1"]⟩⟩, ⟨2, ⟨["1", "1"]⟩⟩, ⟨4, ⟨["2", "0"]⟩⟩]⟩ := by
    decide +kernel
  have houtcome : (((split returnsSettings "state >= 1" : OnHost _) returnsHost).1.map
      (·.segments)) = .ok [⟨1, ⟨"out/flight-1.txt"⟩, 1, 2, 2⟩] := by
    decide +kernel
  refine ⟨⟨_, hdecode, rfl, (hread _ _ hdecode).2.2⟩, ?_⟩
  rcases hsplit : (split returnsSettings "state >= 1" : OnHost _) returnsHost
    with ⟨e | report, host'⟩
  · rw [hsplit] at houtcome
    cases houtcome
  · rw [hsplit] at houtcome
    obtain ⟨_, bytes, _, -, -, -, -, -, -, hlines, -⟩ := hreport _ _ _ _ _ hsplit
    exact ⟨report, host', rfl, Except.ok.inj houtcome, fun r hr =>
      ⟨(hlines r hr).1, (hlines r hr).2.1, (hlines r hr).2.2.1⟩⟩

end LogSplit
