import LogSplit.Proofs.Output.PlainDirectory
import LogSplit.Proofs.Output.SegmentSink
import LogSplit.Proofs.Split.GettingReady

/-!
# The phases of a split

A split gets ready, prepares the output directory and writes the segments, and it can end in each
of these phases.  `SplitEnds` lists the four ends with what is known about the phases before, over
trees of files and without a host.  On a host a split ends in one of them (`split_onHost`).

`Succeeds` collects what a split has gone through that ends well (`SplitEnds.exists_succeeds`).

The output directory is prepared for a plan, whose input is a file that has been read.  In a plain
tree this settles what the preparation has done (`Plan.MadeOf.readied`).
-/

set_option autoImplicit false

namespace LogSplit

variable {settings : Settings} {predicate : String} {plan : Plan} {e : SplitError}
  {host host' host'' : Host} {removed : Nat} {summary : ScanSummary} {written : List WrittenSegment}

/-! ## One phase after the other -/

theorem split_of_unready
    (h : (Plan.prepare settings predicate : OnHost _) host = (.error e, host')) :
    (split settings predicate : OnHost _) host = (.error e, host') := by
  rw [split, OnHost.bind_of_eq h]
  rfl

theorem split_of_ready
    (h : (Plan.prepare settings predicate : OnHost _) host = (.ok plan, host')) :
    (split settings predicate : OnHost _) host = (plan.execute : OnHost _) host' := by
  rw [split, OnHost.bind_of_eq h]

theorem execute_of_unprepared (h : (prepareDirectory plan.settings.outputDir plan.settings.clean
      (some plan.settings.input) : OnHost _) host = (.error e, host')) :
    (plan.execute : OnHost _) host = (.error e, host') := by
  rw [Plan.execute, OnHost.bind_of_eq h]
  rfl

theorem execute_of_write_error (h : (prepareDirectory plan.settings.outputDir plan.settings.clean
      (some plan.settings.input) : OnHost _) host = (.ok removed, host'))
    (hwrite : (plan.destination.writeSegments plan.compiled plan.table : OnHost _) host'
      = ((.error e, written), host'')) :
    (plan.execute : OnHost _) host = (.error e, host'') := by
  rw [Plan.execute, OnHost.bind_of_eq h]
  exact OnHost.bind_of_eq hwrite _

theorem execute_of_write_ok (h : (prepareDirectory plan.settings.outputDir plan.settings.clean
      (some plan.settings.input) : OnHost _) host = (.ok removed, host'))
    (hwrite : (plan.destination.writeSegments plan.compiled plan.table : OnHost _) host'
      = ((.ok summary, written), host'')) :
    (plan.execute : OnHost _) host = (.ok (plan.report removed summary written),
      { host'' with journal := host''.journal ++ [.finished summary.rows summary.segments] }) := by
  rw [Plan.execute, OnHost.bind_of_eq h]
  exact OnHost.bind_of_eq hwrite _

/-! ## The four ends -/

/-- How a split over some files ends: the outcome, and the files afterwards. -/
inductive SplitEnds (settings : Settings) (predicate : String) (t : FileTree) (cwd : Location) :
    Except SplitError Report → FileTree → Prop where
  /-- There is no plan, and nothing is touched. -/
  | unready {e : SplitError} (hfound : Plan.ofFiles settings predicate t cwd = .error e) :
    SplitEnds settings predicate t cwd (.error e) t
  /-- The output directory cannot be prepared. -/
  | unprepared {plan : Plan} {e : SplitError} {t' : FileTree}
    (hfound : Plan.ofFiles settings predicate t cwd = .ok plan)
    (hprepare : t.prepareDirectory cwd settings.outputDir settings.clean (some settings.input)
      = (.error e, t')) :
    SplitEnds settings predicate t cwd (.error e) t'
  /-- The scan fails. -/
  | interrupted {plan : Plan} {removed : Nat} {prepared t' : FileTree} {e : SplitError}
    {written : List WrittenSegment} {told : List ScanEvent}
    (hfound : Plan.ofFiles settings predicate t cwd = .ok plan)
    (hprepare : t.prepareDirectory cwd settings.outputDir settings.clean (some settings.input)
      = (.ok removed, prepared))
    (hended : HandedOver (FileTree.takeSegment cwd plan.destination plan.table.header)
      (prepared, []) (.start plan.table.body.length) (scan plan.compiled plan.table)
      (.error e) (t', written) told) :
    SplitEnds settings predicate t cwd (.error e) t'
  /-- Nothing fails. -/
  | completed {plan : Plan} {removed : Nat} {prepared t' : FileTree} {summary : ScanSummary}
    {written : List WrittenSegment} {told : List ScanEvent}
    (hfound : Plan.ofFiles settings predicate t cwd = .ok plan)
    (hprepare : t.prepareDirectory cwd settings.outputDir settings.clean (some settings.input)
      = (.ok removed, prepared))
    (hended : HandedOver (FileTree.takeSegment cwd plan.destination plan.table.header)
      (prepared, []) (.start plan.table.body.length) (scan plan.compiled plan.table)
      (.ok summary) (t', written) told) :
    SplitEnds settings predicate t cwd (.ok (plan.report removed summary written)) t'

/-- **A split has one end.** -/
theorem SplitEnds.unique {t t' t'' : FileTree} {cwd : Location}
    {outcome outcome' : Except SplitError Report}
    (h : SplitEnds settings predicate t cwd outcome t')
    (h' : SplitEnds settings predicate t cwd outcome' t'') : outcome' = outcome ∧ t'' = t' := by
  cases h with
  | unready hfound =>
    cases h' with
    | unready hfound' =>
      cases hfound.symm.trans hfound'
      exact ⟨rfl, rfl⟩
    | unprepared hfound' | interrupted hfound' | completed hfound' =>
      cases hfound.symm.trans hfound'
  | unprepared hfound hprepare =>
    cases h' with
    | unready hfound' => cases hfound.symm.trans hfound'
    | unprepared _ hprepare' =>
      cases hprepare.symm.trans hprepare'
      exact ⟨rfl, rfl⟩
    | interrupted _ hprepare' | completed _ hprepare' => cases hprepare.symm.trans hprepare'
  | interrupted hfound hprepare hended =>
    cases h' with
    | unready hfound' => cases hfound.symm.trans hfound'
    | unprepared _ hprepare' => cases hprepare.symm.trans hprepare'
    | interrupted hfound' hprepare' hended' =>
      cases hfound.symm.trans hfound'
      cases hprepare.symm.trans hprepare'
      obtain ⟨houtcome, hst⟩ := hended.unique hended'
      exact ⟨by rw [Except.error.inj houtcome], (Prod.mk.inj hst).1⟩
    | completed hfound' hprepare' hended' =>
      cases hfound.symm.trans hfound'
      cases hprepare.symm.trans hprepare'
      cases (hended.unique hended').1
  | completed hfound hprepare hended =>
    cases h' with
    | unready hfound' => cases hfound.symm.trans hfound'
    | unprepared _ hprepare' => cases hprepare.symm.trans hprepare'
    | interrupted hfound' hprepare' hended' =>
      cases hfound.symm.trans hfound'
      cases hprepare.symm.trans hprepare'
      cases (hended.unique hended').1
    | completed hfound' hprepare' hended' =>
      cases hfound.symm.trans hfound'
      cases hprepare.symm.trans hprepare'
      obtain ⟨houtcome, hst⟩ := hended.unique hended'
      cases houtcome
      cases hst
      exact ⟨rfl, rfl⟩

/-- A plan that is carried out on a host brings the split to one of these ends, and all that it
changes besides the files is the journal. -/
theorem execute_onHost (hfound : Plan.ofFiles settings predicate host.files host.cwd = .ok plan) :
    ∃ outcome files journal, SplitEnds settings predicate host.files host.cwd outcome files ∧
      (plan.execute : OnHost _) host = (outcome, { host with files, journal }) := by
  have hsettings := (Plan.ofFiles_eq_ok_iff.1 hfound).settings_eq
  obtain ⟨journal, hprepared⟩ := prepareDirectory_onHost plan.settings.outputDir
    plan.settings.clean (some plan.settings.input) host
  rcases hprepare : host.files.prepareDirectory host.cwd plan.settings.outputDir
    plan.settings.clean (some plan.settings.input) with ⟨e | removed, prepared⟩ <;>
    simp only [hprepare] at hprepared <;> rw [hsettings] at hprepare
  · exact ⟨_, prepared, journal, .unprepared hfound hprepare, execute_of_unprepared hprepared⟩
  obtain ⟨outcome, files, written, told, journal', hended, hwritten⟩ :=
    plan.destination.writeSegments_onHost plan.compiled plan.table
      { host with files := prepared, journal }
  cases outcome with
  | error e =>
    exact ⟨_, files, journal', .interrupted hfound hprepare hended,
      execute_of_write_error hprepared hwritten⟩
  | ok summary =>
    exact ⟨_, files, _, .completed hfound hprepare hended, execute_of_write_ok hprepared hwritten⟩

/-- **A split on a host ends in one of these ways**, and all that it changes besides the files is
the journal. -/
theorem split_onHost (settings : Settings) (predicate : String) (host : Host) :
    ∃ outcome files journal, SplitEnds settings predicate host.files host.cwd outcome files ∧
      (split settings predicate : OnHost _) host = (outcome, { host with files, journal }) := by
  obtain ⟨journal, hready⟩ := finds_prepare settings predicate host rfl rfl
  rcases hfound : Plan.ofFiles settings predicate host.files host.cwd with e | plan <;>
    rw [hfound] at hready
  · exact ⟨_, host.files, journal, .unready hfound, split_of_unready hready⟩
  · rw [split_of_ready hready]
    exact @execute_onHost settings predicate plan { host with journal } hfound

/-! ## The good end -/

/-- The report on a plan when all of its segments have been written. -/
def Plan.reportOn (plan : Plan) (removed : Nat) (segments : List Segment) : Report :=
  plan.report removed (segments.foldl ScanSummary.add (.start plan.table.body.length))
    (segments.map plan.destination.written)

/-- A split over the tree `t` succeeds.  It prepares the output directory, which makes it the tree
`prepared`, and writes all segments, which makes that the tree `t'`. -/
structure Succeeds (settings : Settings) (predicate : String) (t prepared t' : FileTree)
    (cwd : Location) (plan : Plan) (removed : Nat) : Prop where
  /-- There is a plan. -/
  madeOf : plan.MadeOf settings predicate t cwd
  /-- The output directory is prepared. -/
  prepare : t.prepareDirectory cwd settings.outputDir settings.clean (some settings.input)
    = (.ok removed, prepared)
  /-- Every row can be tested. -/
  testable : ∀ e, ScanEvent.failed e ∉ scan plan.compiled plan.table
  /-- Every segment is written. -/
  accepts : ∃ written, Accepts
    (FileTree.takeSegment cwd ⟨settings.outputDir, settings.stem⟩ plan.table.header) (prepared, [])
    (closedSegments (scan plan.compiled plan.table)) (t', written)

/-- **How a split succeeds.** -/
theorem SplitEnds.exists_succeeds {t t' : FileTree} {cwd : Location} {report : Report}
    (h : SplitEnds settings predicate t cwd (.ok report) t') :
    ∃ plan removed prepared, Succeeds settings predicate t prepared t' cwd plan removed ∧
      report = plan.reportOn removed (closedSegments (scan plan.compiled plan.table)) := by
  cases h with
  | @completed plan removed prepared _ summary written told hfound hprepare hended =>
    have hmade := Plan.ofFiles_eq_ok_iff.1 hfound
    generalize hst : (t', written) = st at hended
    cases hended with
    | completed hok hall =>
      subst hst
      have hwritten := Destination.written_of_accepts hall
      rw [List.nil_append] at hwritten
      subst hwritten
      rw [hmade.destination_eq] at hall
      exact ⟨plan, removed, prepared, ⟨hmade, hprepare, hok, _, hall⟩, rfl⟩

/-- **What succeeds ends well.** -/
theorem Succeeds.ends {t prepared t' : FileTree} {cwd : Location}
    (h : Succeeds settings predicate t prepared t' cwd plan removed) :
    SplitEnds settings predicate t cwd
      (.ok (plan.reportOn removed (closedSegments (scan plan.compiled plan.table)))) t' := by
  obtain ⟨written, hall⟩ := h.accepts
  rw [← h.madeOf.destination_eq] at hall
  have hwritten := Destination.written_of_accepts hall
  rw [List.nil_append] at hwritten
  subst hwritten
  exact .completed (Plan.ofFiles_eq_ok_iff.2 h.madeOf) h.prepare (.completed h.testable hall)

/-! ## In a plain tree -/

/-- **The output directory has been prepared for a plan**: the input has been read, and it is what
is kept. -/
theorem Plan.MadeOf.readied {t prepared : FileTree} {cwd : Location}
    (h : plan.MadeOf settings predicate t cwd) (hplain : FileTree.Plain t)
    (hprepare : t.prepareDirectory cwd settings.outputDir settings.clean (some settings.input)
      = (.ok removed, prepared)) :
    ∃ input bytes stale, t.entryAt cwd settings.input = .ok (input, .file bytes) ∧
      Tsv.decode bytes = .ok plan.table ∧ removed = stale.length ∧
        FileTree.Readied t prepared cwd settings.outputDir settings.clean input stale := by
  obtain ⟨bytes, hread, hdecode⟩ := h.table
  obtain ⟨input, hinput⟩ := FileTree.read_eq_ok_iff.1 hread
  obtain ⟨stale, hremoved, hready⟩ := FileTree.readied_of_prepareDirectory hplain hinput hprepare
  exact ⟨input, bytes, stale, hinput, hdecode, hremoved, hready⟩

end LogSplit
