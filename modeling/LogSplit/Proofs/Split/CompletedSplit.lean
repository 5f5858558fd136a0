import LogSplit.Proofs.Output.PlacedFiles
import LogSplit.Proofs.Split.Phases

/-!
# What a split that succeeds has done

`split_completed` says all that a split has done once it has succeeded, over a tree of directories
and regular files.  Its segments are the maximal runs of the table in the input.  `Delivered` says
what has become of the files: the output directory is there, the segment files of earlier runs are
gone if they were to go, each segment is in its file, and nothing else has changed.
`Report.Describes` says that the report agrees with that.

The phases do not get into each other's way whatever stands in the output directory.  A segment file
may take the place of one that has just been removed, or of the input, which has been read by then.
-/

set_option autoImplicit false

namespace LogSplit

open FileTree

variable {settings : Settings} {predicate : String} {plan : Plan} {host host' : Host}
  {report : Report} {t t' prepared : FileTree} {cwd input : Location} {d : Destination}
  {header : Header} {segments : List Segment} {stale : List Location} {clean : Bool} {removed : Nat}

/-! ## The files -/

/-- Segments have been delivered in a tree `t`, which has made it the tree `t'`.  The file at
`input` has not been cleared away, and those at `stale` have. -/
structure Delivered (t t' : FileTree) (cwd : Location) (d : Destination) (clean : Bool)
    (input : Location) (header : Header) (segments : List Segment) (stale : List Location) :
    Prop where
  /-- The output directory and those on the way to it are there. -/
  directory : ∀ l ∈ directoriesOn cwd d.dir, t'.lookup l = some .directory
  /-- Each was there before, or it is new. -/
  before : ∀ l ∈ directoriesOn cwd d.dir, t.lookup l = none ∨ t.lookup l = some .directory
  /-- What has been cleared away, each once: if it was asked for, the regular files directly in the
  directory that have the name of a segment file, but for the input. -/
  mem_stale_iff : ∀ l, l ∈ stale ↔ clean = true ∧ IsOutdated t (directoryOf cwd d.dir) input l
  /-- Nothing is counted twice. -/
  nodup : stale.Nodup
  /-- It is gone, unless a segment has taken its place. -/
  removed : ∀ l ∈ stale, (∀ s ∈ segments, l ≠ d.target (directoryOf cwd d.dir) s.index) →
    t'.lookup l = none
  /-- The file of each segment is in the directory, with the header and the rows of the segment. -/
  target : ∀ s ∈ segments, t'.lookup (d.target (directoryOf cwd d.dir) s.index)
    = some (.file (Tsv.encode header s.bareRows))
  /-- That is what its path gives. -/
  read : ∀ s ∈ segments, t'.read cwd (d.pathFor s.index) = .ok (Tsv.encode header s.bareRows)
  /-- Nothing is left where it was prepared. -/
  prepared : ∀ s ∈ segments, t'.lookup (d.prepared (directoryOf cwd d.dir) s.index) = none
  /-- Everything else is as it was. -/
  other : ∀ l, l ∉ directoriesOn cwd d.dir → l ∉ stale →
    (∀ s ∈ segments, l ≠ d.target (directoryOf cwd d.dir) s.index ∧
      l ≠ d.prepared (directoryOf cwd d.dir) s.index) → t'.lookup l = t.lookup l

/-- The directory is made ready and the segments are put in place in it. -/
theorem delivered_of_placed (hready : Readied t prepared cwd d.dir clean input stale)
    (hplaced : d.Placed prepared t' cwd (directoryOf cwd d.dir) header segments)
    (hstem : Stem.validate d.stem = .ok ()) :
    Delivered t t' cwd d clean input header segments stale where
  directory l hl := hplaced.hasDirectory.lookup_of_mem_directoriesOn hplaced.plain hl
  before := hready.before
  mem_stale_iff := hready.mem_stale_iff
  nodup := hready.nodup
  removed l hl hne := by
    by_cases hprepared : ∃ s ∈ segments, l = d.prepared (directoryOf cwd d.dir) s.index
    · obtain ⟨s, hs, rfl⟩ := hprepared
      exact hplaced.prepared s hs
    · rw [hplaced.other l fun s hs => ⟨hne s hs, fun heq => hprepared ⟨s, hs, heq⟩⟩,
        hready.removed l hl]
  target := hplaced.target
  read s hs := hplaced.read hstem hs
  prepared := hplaced.prepared
  other l hdir hstale hne := by rw [hplaced.other l hne, hready.other l hdir hstale]

/-! ## The report -/

/-- What a report says about a segment agrees with it. -/
structure SegmentReport.Describes (r : SegmentReport) (d : Destination) (s : Segment) : Prop where
  /-- The number. -/
  index : r.index = s.index
  /-- The path of its file. -/
  path : r.path = d.pathFor s.index
  /-- The rows in this file. -/
  rows : r.rows = s.bareRows.length
  /-- The source line of the first row. -/
  startLine : ∃ first, s.rows.head? = some first ∧ r.startLine = first.line
  /-- The source line of the last row. -/
  endLine : ∃ last, s.rows.getLast? = some last ∧ r.endLine = last.line

/-- A report agrees with the plan, the segments and the number of files that have been removed. -/
structure Report.Describes (r : Report) (plan : Plan) (segments : List Segment) (removed : Nat) :
    Prop where
  /-- The log. -/
  input : r.input = plan.settings.input
  /-- The output directory. -/
  outputDir : r.outputDir = plan.settings.outputDir
  /-- The stem of the file names. -/
  stem : r.stem = plan.settings.stem
  /-- The names of the columns. -/
  header : r.header = plan.table.header.names
  /-- The conditions. -/
  conditions : r.conditions = plan.conditions.texts
  /-- How many connectives were read as conjunctions. -/
  orConnectives : r.orConnectives = plan.conditions.orConnectives
  /-- The rows of the table. -/
  rows : r.rows = plan.table.body.length
  /-- The rows in segments. -/
  matchedRows : r.matchedRows = (r.segments.map SegmentReport.rows).sum
  /-- The files that have been removed. -/
  removedFiles : r.removedFiles = removed
  /-- Every segment is in the report. -/
  length : r.segments.length = segments.length
  /-- They are numbered from one. -/
  index : ∀ i s, r.segments[i]? = some s → s.index = i + 1
  /-- Each is described. -/
  segment : ∀ (i : Nat) (s : SegmentReport) (s' : Segment), r.segments[i]? = some s →
    segments[i]? = some s' → s.Describes plan.destination s'

/-- A segment that has been written is described. -/
theorem describes_written {p : CompiledPredicate} {table : Table} {s : Segment}
    (h : IsRun p table s) (d : Destination) : ((d.written s).report table).Describes d s := by
  obtain ⟨first, last, hfirst, hlast, hstart, hend⟩ := h.lines
  exact ⟨rfl, rfl, (List.length_map _).symm, ⟨first, hfirst, hstart⟩, ⟨last, hlast, hend⟩⟩

/-- **The report** of a plan whose segments have all been written. -/
theorem describes_report (h : MaximalRuns plan.compiled plan.table segments) (removed : Nat) :
    (plan.reportOn removed segments).Describes plan segments removed := by
  have hsegments : ∀ (i : Nat) (s : SegmentReport), ((segments.map plan.destination.written).map
      fun w => w.report plan.table)[i]? = some s →
        ∃ s' : Segment, segments[i]? = some s' ∧
          s = (plan.destination.written s').report plan.table := by
    intro i s hs
    rw [List.getElem?_map, List.getElem?_map, Option.map_map, Option.map_eq_some_iff] at hs
    obtain ⟨s', hs', rfl⟩ := hs
    exact ⟨s', hs', rfl⟩
  rw [Plan.reportOn, Plan.report, foldl_add]
  refine ⟨rfl, rfl, rfl, rfl, rfl, rfl, rfl, ?_, rfl, ?_, ?_, ?_⟩
  · rw [List.map_map, List.map_map]
    exact Nat.zero_add _
  · rw [List.length_map, List.length_map]
  · intro i s hs
    obtain ⟨s', hs', rfl⟩ := hsegments i s hs
    exact h.index_eq i s' hs'
  · intro i s s' hs hs'
    obtain ⟨s'', hs'', rfl⟩ := hsegments i s hs
    cases hs'.symm.trans hs''
    exact describes_written (h.isRun s' (List.mem_of_getElem? hs')) plan.destination

/-! ## The split -/

/-- The phases of a split that succeeds, in a plain tree. -/
theorem Succeeds.phases (h : Succeeds settings predicate t prepared t' cwd plan removed)
    (hplain : Plain t) :
    ∃ input bytes stale, t.entryAt cwd settings.input = .ok (input, .file bytes) ∧
      Tsv.decode bytes = .ok plan.table ∧ removed = stale.length ∧
      MaximalRuns plan.compiled plan.table (closedSegments (scan plan.compiled plan.table)) ∧
      Readied t prepared cwd settings.outputDir settings.clean input stale ∧
      Destination.Placed prepared t' cwd ⟨settings.outputDir, settings.stem⟩
        (directoryOf cwd settings.outputDir) plan.table.header
        (closedSegments (scan plan.compiled plan.table)) := by
  obtain ⟨input, bytes, stale, hinput, hdecode, hremoved, hready⟩ :=
    h.madeOf.readied hplain h.prepare
  obtain ⟨written, hall⟩ := h.accepts
  have hruns := maximalRuns_scan h.testable
  exact ⟨input, bytes, stale, hinput, hdecode, hremoved, hruns, hready,
    Destination.placed_of_accepts hready.plain h.madeOf.stem hready.hasDirectory
      (nodup_index hruns.index_eq) hall⟩

/-- **What a split that succeeds has done.**  In a tree of directories and regular files the
segments of the table in the input, which are its maximal runs, are delivered in the output
directory, and the report describes them. -/
theorem split_completed (hplain : Plain host.files)
    (h : (split settings predicate : OnHost _) host = (.ok report, host')) :
    ∃ (plan : Plan) (input : Location) (bytes : Bytes) (segments : List Segment)
      (stale : List Location),
      plan.MadeOf settings predicate host.files host.cwd ∧
      host.files.entryAt host.cwd settings.input = .ok (input, .file bytes) ∧
      Tsv.decode bytes = .ok plan.table ∧
      MaximalRuns plan.compiled plan.table segments ∧
      Delivered host.files host'.files host.cwd ⟨settings.outputDir, settings.stem⟩ settings.clean
        input plan.table.header segments stale ∧
      report.Describes plan segments stale.length ∧
      host'.cwd = host.cwd ∧ host'.output = host.output := by
  obtain ⟨outcome, files, journal, hends, hrun⟩ := split_onHost settings predicate host
  obtain ⟨rfl, rfl⟩ := Prod.mk.inj (h.symm.trans hrun)
  obtain ⟨plan, removed, prepared, hsucceeds, rfl⟩ := hends.exists_succeeds
  obtain ⟨input, bytes, stale, hinput, hdecode, rfl, hruns, hready, hplaced⟩ :=
    hsucceeds.phases hplain
  exact ⟨plan, input, bytes, _, stale, hsucceeds.madeOf, hinput, hdecode, hruns,
    delivered_of_placed hready hplaced hsucceeds.madeOf.stem, describes_report hruns stale.length,
    rfl, rfl⟩

/-- A host with a log in the output directory, among files that earlier runs have left. -/
def fieldHost : Host :=
  .start ((((empty.insert ["out"] .directory).insert ["log.txt", "out"]
      (.file (Utf8.encode "t\tstate\n0\t1\n1\t0\n2\t1\n3\t0\n"))).insert ["flight-7.TXT", "out"]
    (.file [])).insert ["flight-2.txt.tmp", "out"] (.file [])) []

/-- The settings for it. -/
def fieldSettings : Settings := ⟨⟨"out/log.txt"⟩, ⟨"out"⟩, "flight", true, true⟩

/-- The report on it. -/
def fieldReport : Report where
  input := ⟨"out/log.txt"⟩
  outputDir := ⟨"out"⟩
  stem := "flight"
  header := ["t", "state"]
  conditions := ["state >= 1"]
  orConnectives := 0
  rows := 4
  matchedRows := 2
  removedFiles := 1
  segments := [⟨1, ⟨"out/flight-1.txt"⟩, 2, 2, 1⟩, ⟨2, ⟨"out/flight-2.txt"⟩, 4, 4, 1⟩]

set_option maxRecDepth 100000 in
theorem split_completed_field :
    Plain fieldHost.files ∧
      (split fieldSettings "state >= 1" : OnHost _) fieldHost
        = (.ok fieldReport, ((split fieldSettings "state >= 1" : OnHost _) fieldHost).2) ∧
      ∃ (plan : Plan) (input : Location) (bytes : Bytes) (segments : List Segment)
        (stale : List Location),
        plan.MadeOf fieldSettings "state >= 1" fieldHost.files fieldHost.cwd ∧
        fieldHost.files.entryAt fieldHost.cwd fieldSettings.input = .ok (input, .file bytes) ∧
        Tsv.decode bytes = .ok plan.table ∧
        MaximalRuns plan.compiled plan.table segments ∧
        Delivered fieldHost.files ((split fieldSettings "state >= 1" : OnHost _) fieldHost).2.files
          fieldHost.cwd ⟨fieldSettings.outputDir, fieldSettings.stem⟩ fieldSettings.clean input
          plan.table.header segments stale ∧
        fieldReport.Describes plan segments stale.length ∧
        ((split fieldSettings "state >= 1" : OnHost _) fieldHost).2.cwd = fieldHost.cwd ∧
        ((split fieldSettings "state >= 1" : OnHost _) fieldHost).2.output = fieldHost.output ∧
        ((split fieldSettings "state >= 1" : OnHost _) fieldHost).2.files.lookup
          ["flight-2.txt", "out"] = some (.file (Utf8.encode "t\tstate\n2\t1\n")) := by
  have hplain : Plain fieldHost.files := plain_of_entries (by decide +kernel)
  have hreport : ((split fieldSettings "state >= 1" : OnHost _) fieldHost).1 = .ok fieldReport := by
    decide +kernel
  have hsplit : (split fieldSettings "state >= 1" : OnHost _) fieldHost
      = (.ok fieldReport, ((split fieldSettings "state >= 1" : OnHost _) fieldHost).2) :=
    Prod.ext hreport rfl
  have hfile : ((split fieldSettings "state >= 1" : OnHost _) fieldHost).2.files.lookup
      ["flight-2.txt", "out"] = some (.file (Utf8.encode "t\tstate\n2\t1\n")) := by decide +kernel
  obtain ⟨plan, input, bytes, segments, stale, hmade, hinput, hdecode, hruns, hdelivered,
    hdescribes, hcwd, houtput⟩ := split_completed hplain hsplit
  exact ⟨hplain, hsplit, plan, input, bytes, segments, stale, hmade, hinput, hdecode, hruns,
    hdelivered, hdescribes, hcwd, houtput, hfile⟩

end LogSplit
