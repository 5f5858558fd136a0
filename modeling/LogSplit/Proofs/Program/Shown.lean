import LogSplit.Program
import LogSplit.Proofs.Report.WholeDocument
import LogSplit.Proofs.Split.CompletedSplit

/-!
# What a run shows

A run shows its outcome piece by piece, from the settings, then from the plan and then from the
report, while `Report.text` is made from the report alone.  The two agree because a report carries
what its plan was made of (`Plan.text_report`).  `shown` is the whole of what is to be shown, given
the plan and the report that a split comes to, or the reasons why it comes to none.  A run shows
that and nothing else, in every mode and wherever it ends (`Invocation.run_shows`).

Two things can go wrong while a piece is shown.  The host may not take all of it, and then what it
takes is the beginning of `shown`.  And as JSON a report may have a path that is no text: the
document is then shown up to that path, and the run fails, with the segments in their files and the
beginning of a document in the output.

What a split comes to does not depend on what has been shown or told before: it has one end over the
files as they are (`SplitEnds.unique`).
-/

set_option autoImplicit false

namespace LogSplit

open OnHost

variable {settings : Settings} {predicate : String} {plan : Plan} {host host' : Host}
  {mode : OutputMode} {colors : Bool}

/-- The part of the text that is shown once there is a plan. -/
def Plan.text (plan : Plan) (colors : Bool) : String :=
  planText colors plan.table.header.names plan.conditions.texts plan.conditions.orConnectives

/-- What a run shows that reads from `input` and comes to a plan and a report, or fails. -/
def shown (mode : OutputMode) (colors : Bool) (input : Path) (ready : Except SplitError Plan)
    (done : Except SplitError Report) : String :=
  match mode, ready, done with
  | .text, _, .ok report => report.text colors
  | .text, .ok plan, .error _ => readingText colors input ++ plan.text colors
  | .text, .error _, .error _ => readingText colors input
  | .json, _, .ok report => report.json.text
  | .json, _, .error _ => ""
  | .quiet, _, _ => ""

/-! ## The pieces -/

/-- The text of a report begins with what has been shown before there was one. -/
theorem Plan.text_report (removed : Nat) (summary : ScanSummary) (written : List WrittenSegment) :
    (plan.report removed summary written).text colors
      = readingText colors plan.settings.input ++ plan.text colors
        ++ (plan.report removed summary written).resultText colors :=
  rfl

/-- What is shown as text only. -/
def OutputMode.onlyText (mode : OutputMode) (text : String) : String :=
  match mode with
  | .text => text
  | .json | .quiet => ""

/-- To show nothing changes nothing. -/
theorem showing_empty (r : Except FileError Unit) (host : Host) :
    (if host.Fits (Utf8.encode "") then r else .error .limitReached, host.showing (Utf8.encode ""))
      = (r, host) := by
  rw [show Utf8.encode "" = [] from rfl, if_pos host.fits_nil, Host.showing_nil]

theorem printInTextMode_onHost (mode : OutputMode) (text : String) (host : Host) :
    (printInTextMode mode text : OnHost _) host
      = (if host.Fits (Utf8.encode (mode.onlyText text)) then .ok () else .error .limitReached,
        host.showing (Utf8.encode (mode.onlyText text))) := by
  cases mode with
  | text => exact print_apply text host
  | json | quiet => exact (showing_empty (.ok ()) host).symm

/-- What is shown of a report at the end. -/
def Report.shownAtEnd (r : Report) (mode : OutputMode) (colors : Bool) : String :=
  match mode with
  | .text => r.resultText colors
  | .json => r.json.text
  | .quiet => ""

/-- What it comes to when nothing of it is cut off. -/
def Report.showsAs (r : Report) (mode : OutputMode) : Except FileError Unit :=
  if mode = .json ∧ r.json.complete = false then .error .pathNotText else .ok ()

theorem print_onHost (r : Report) (mode : OutputMode) (colors : Bool) (host : Host) :
    (r.print mode colors : OnHost _) host
      = (if host.Fits (Utf8.encode (r.shownAtEnd mode colors)) then r.showsAs mode
          else .error .limitReached, host.showing (Utf8.encode (r.shownAtEnd mode colors))) := by
  cases mode with
  | text => exact print_apply _ host
  | json =>
    refine (bind_of_eq (print_apply r.json.text host) _).trans ?_
    rw [Report.showsAs, Report.shownAtEnd]
    split
    · cases r.json.complete <;> rfl
    · rfl
  | quiet => exact (showing_empty (.ok ()) host).symm

/-- Without a plan only the first piece is shown. -/
theorem shown_unready (e e' : SplitError) (input : Path) :
    shown mode colors input (.error e) (.error e') = mode.onlyText (readingText colors input) := by
  cases mode with
  | text | json | quiet => rfl

/-- What is shown when the split is over. -/
def shownAtEnd (mode : OutputMode) (colors : Bool) : Except SplitError Report → String
  | .error _ => ""
  | .ok report => report.shownAtEnd mode colors

/-- With a plan there are three pieces. -/
theorem shown_ready {files : FileTree} {cwd : Location} {files' : FileTree}
    {done : Except SplitError Report} (hfound : Plan.ofFiles settings predicate files cwd = .ok plan)
    (h : SplitEnds settings predicate files cwd done files') :
    shown mode colors settings.input (.ok plan) done
      = mode.onlyText (readingText colors settings.input)
        ++ (mode.onlyText (plan.text colors) ++ shownAtEnd mode colors done) := by
  have hunfinished : ∀ e, shown mode colors settings.input (.ok plan) (.error e)
      = mode.onlyText (readingText colors settings.input)
        ++ (mode.onlyText (plan.text colors) ++ "") := by
    intro e
    rw [String.append_empty]
    cases mode with
    | text => rfl
    | json | quiet => exact String.append_empty.symm
  cases h with
  | unready | unprepared | interrupted => exact hunfinished _
  | @completed _ removed _ _ summary written _ hfound' =>
    cases hfound.symm.trans hfound'
    rw [← (Plan.ofFiles_eq_ok_iff.1 hfound).settings_eq, ← String.append_assoc]
    cases mode with
    | text => exact plan.text_report removed summary written
    | json | quiet =>
      rw [OutputMode.onlyText, OutputMode.onlyText, String.append_empty, String.empty_append]
      rfl

/-! ## Paths in a report -/

/-- The paths of a report are texts if and only if the two that the split was given are. -/
theorem SplitEnds.pathsAreText_iff {files files' : FileTree} {cwd : Location} {report : Report}
    (h : SplitEnds settings predicate files cwd (.ok report) files') :
    report.PathsAreText ↔ settings.input.IsText ∧ settings.outputDir.IsText := by
  obtain ⟨plan, removed, prepared, hsucceeds, rfl⟩ := h.exists_succeeds
  rw [← hsucceeds.madeOf.settings_eq]
  refine ⟨fun htexts => ⟨htexts.input, htexts.outputDir⟩,
    fun ⟨hinput, hdir⟩ => ⟨hinput, hdir, fun s hs => ?_⟩⟩
  obtain ⟨written, hwritten, rfl⟩ := List.mem_map.1 hs
  obtain ⟨segment, -, rfl⟩ := List.mem_map.1 hwritten
  exact hdir.join _

theorem pathsAreText_iff_of_split {report : Report}
    (h : ((split settings predicate : OnHost _) host).1 = .ok report) :
    report.PathsAreText ↔ settings.input.IsText ∧ settings.outputDir.IsText := by
  obtain ⟨outcome, files, journal, hends, hrun⟩ := split_onHost settings predicate host
  rw [hrun] at h
  obtain rfl : outcome = .ok report := h
  exact hends.pathsAreText_iff

/-! ## A run -/

/-- How a run ends that is to show some bytes and comes to `result` and `files` if it shows them
all. -/
structure EndsShowing (host : Host) (bytes : Bytes) (result : Except RunError Unit)
    (files : FileTree) (ending : Except RunError Unit × Host) : Prop where
  /-- As many are shown as can be. -/
  output : ending.2.output = host.output ++ host.fitting bytes
  /-- If they are all shown the run comes to its end. -/
  whole : host.Fits bytes → ending.1 = result ∧ ending.2.files = files
  /-- If not it fails for that. -/
  cut : ¬ host.Fits bytes → ending.1 = .error (.unshown .limitReached)

namespace EndsShowing

variable {a b : Bytes} {result : Except RunError Unit} {files : FileTree} {host₁ : Host}
  {ending : Except RunError Unit × Host}

/-- Nothing is to be shown. -/
theorem nil (hresult : ending.1 = result) (hfiles : ending.2.files = files)
    (houtput : ending.2.output = host.output) : EndsShowing host [] result files ending where
  output := by rw [host.fits_nil, List.append_nil, houtput]
  whole _ := ⟨hresult, hfiles⟩
  cut hnot := absurd host.fits_nil hnot

/-- What is told on the way and done to the files has no part in it. -/
theorem of_host (h : EndsShowing host₁ b result files ending)
    (houtput : host₁.output = host.output) (hlimit : host₁.limit = host.limit) :
    EndsShowing host b result files ending := by
  have hfitting : ∀ bytes, host₁.fitting bytes = host.fitting bytes := fun bytes => by
    rw [Host.fitting, Host.fitting, houtput, hlimit]
  refine ⟨?_, fun hfits => h.whole ((hfitting b).trans hfits),
    fun hnot => h.cut fun hfits => hnot ((hfitting b).symm.trans hfits)⟩
  rw [h.output, houtput, hfitting]

/-- A piece is shown, and then the rest; or the run stops because the piece has been cut off. -/
theorem append {x : OnHost (Except FileError Unit)} {rest : OnHost (Except RunError Unit)}
    (hx : x host = (if host.Fits a then .ok () else .error .limitReached, host.showing a))
    (hrest : EndsShowing (host.showing a) b result files (rest (host.showing a))) :
    EndsShowing host (a ++ b) result files ((do
      match ← x with
      | .error e => return .error (.unshown e)
      | .ok () => rest : OnHost (Except RunError Unit)) host) := by
  rw [bind_of_eq hx]
  by_cases h : host.Fits a
  · rw [if_pos h]
    refine ⟨?_, fun hall => hrest.whole (Host.fits_append_iff.1 hall).2,
      fun hnot => hrest.cut fun hb => hnot (Host.fits_append_iff.2 ⟨h, hb⟩)⟩
    rw [Host.fitting_append, ← List.append_assoc]
    exact hrest.output
  · rw [if_neg h]
    refine ⟨?_, fun hall => absurd (Host.fits_append_iff.1 hall).1 h, fun _ => rfl⟩
    rw [Host.fitting_append_of_not_fits h]
    rfl

/-- When something is not shown. -/
theorem unshown_iff (h : EndsShowing host b result files ending) :
    (∃ cause, ending.1 = .error (.unshown cause)) ↔
      ¬ host.Fits b ∨ ∃ cause, result = .error (.unshown cause) := by
  by_cases hfits : host.Fits b
  · rw [(h.whole hfits).1]
    exact ⟨Or.inr, fun hor => hor.resolve_left (not_not.2 hfits)⟩
  · exact ⟨fun _ => Or.inl hfits, fun _ => ⟨_, h.cut hfits⟩⟩

end EndsShowing

/-- What a run comes to that shows all it is to show. -/
def runEnd (mode : OutputMode) (done : Except SplitError Report) : Except RunError Unit :=
  match done with
  | .error e => .error (.split e)
  | .ok report => (report.showsAs mode).mapError .unshown

theorem runEnd_error_unshown_iff {done : Except SplitError Report} :
    (∃ cause, runEnd mode done = .error (.unshown cause)) ↔
      mode = .json ∧ ∃ report, done = .ok report ∧ ¬ report.PathsAreText := by
  cases done with
  | error e => simp [runEnd]
  | ok report =>
    have hcomplete : report.json.complete = false ↔ ¬ report.PathsAreText := by
      rw [← report.complete_json_iff, Bool.not_eq_true]
    have hreport : (∃ r : Report, (.ok report : Except SplitError Report) = .ok r ∧
        ¬ r.PathsAreText) ↔ ¬ report.PathsAreText :=
      ⟨fun ⟨_, heq, hstray⟩ => Except.ok.inj heq ▸ hstray, fun hstray => ⟨_, rfl, hstray⟩⟩
    rw [hreport, ← hcomplete, runEnd, Report.showsAs]
    split
    · rename_i hstopped
      exact ⟨fun _ => hstopped, fun _ => ⟨_, rfl⟩⟩
    · rename_i hwhole
      exact ⟨fun ⟨_, heq⟩ => (nomatch heq), fun hstopped => absurd hstopped hwhole⟩

/-- If nothing is wrong with what is shown, a run comes to what the split comes to. -/
theorem runEnd_of_shown {done : Except SplitError Report}
    (h : ∀ cause, runEnd mode done ≠ .error (.unshown cause)) :
    runEnd mode done = (done.mapError RunError.split).map fun _ => () := by
  cases done with
  | error e => rfl
  | ok report =>
    rw [runEnd] at h ⊢
    cases hshows : report.showsAs mode with
    | error cause => exact absurd (by rw [hshows]; rfl) (h cause)
    | ok u => rfl

/-- The report is the last that is shown. -/
theorem Report.endsShowing (r : Report) (mode : OutputMode) (colors : Bool) (host : Host) :
    EndsShowing host (Utf8.encode (r.shownAtEnd mode colors)) (runEnd mode (.ok r)) host.files ((do
      match ← r.print mode colors with
      | .error e => return .error (.unshown e)
      | .ok () => return .ok () : OnHost (Except RunError Unit)) host) := by
  rw [bind_of_eq (print_onHost r mode colors host)]
  by_cases h : host.Fits (Utf8.encode (r.shownAtEnd mode colors))
  · rw [if_pos h, runEnd]
    cases r.showsAs mode with
    | error e => exact ⟨rfl, fun _ => ⟨rfl, rfl⟩, fun hnot => absurd h hnot⟩
    | ok u => exact ⟨rfl, fun _ => ⟨rfl, rfl⟩, fun hnot => absurd h hnot⟩
  · rw [if_neg h]
    exact ⟨rfl, fun hfits => absurd hfits h, fun _ => rfl⟩

/-- The second half of a run, when the plan has been shown. -/
theorem endsShowing_execute (mode : OutputMode) (colors : Bool)
    (hfound : Plan.ofFiles settings predicate host.files host.cwd = .ok plan) :
    ∃ done files, SplitEnds settings predicate host.files host.cwd done files ∧
      EndsShowing host (Utf8.encode (shownAtEnd mode colors done)) (runEnd mode done) files ((do
        match ← plan.execute with
        | .error e => return .error (.split e)
        | .ok report =>
          match ← report.print mode colors with
          | .error e => return .error (.unshown e)
          | .ok () => return .ok () : OnHost (Except RunError Unit)) host) := by
  obtain ⟨done, files, journal, hends, hexecute⟩ := execute_onHost hfound
  refine ⟨done, files, hends, ?_⟩
  rw [bind_of_eq hexecute]
  cases done with
  | error e => exact .nil rfl rfl rfl
  | ok report => exact (report.endsShowing mode colors { host with files, journal }).of_host rfl rfl

/-- **A run comes to what the split comes to and shows it.** -/
theorem run_onHost (settings : Settings) (predicate : String) (mode : OutputMode) (colors : Bool)
    (host : Host) :
    ∃ done files, SplitEnds settings predicate host.files host.cwd done files ∧
      EndsShowing host (Utf8.encode (shown mode colors settings.input
          (Plan.ofFiles settings predicate host.files host.cwd) done)) (runEnd mode done) files
        ((settings.run predicate mode colors : OnHost _) host) := by
  have hreading := printInTextMode_onHost mode (readingText colors settings.input) host
  obtain ⟨journal, hready⟩ := finds_prepare settings predicate
    (host.showing (Utf8.encode (mode.onlyText (readingText colors settings.input)))) rfl rfl
  change _ = (Plan.ofFiles settings predicate host.files host.cwd, _) at hready
  rcases hfound : Plan.ofFiles settings predicate host.files host.cwd with e | plan <;>
    rw [hfound] at hready
  · refine ⟨.error e, host.files, .unready hfound, ?_⟩
    rw [shown_unready, ← List.append_nil (Utf8.encode _)]
    refine .append hreading ?_
    rw [bind_of_eq hready]
    exact .nil rfl rfl rfl
  · obtain ⟨done, files, hends, hexecute⟩ := @endsShowing_execute settings predicate plan
      (Host.showing
        { host.showing (Utf8.encode (mode.onlyText (readingText colors settings.input))) with
          journal }
        (Utf8.encode (mode.onlyText (plan.text colors)))) mode colors hfound
    refine ⟨done, files, hends, ?_⟩
    rw [shown_ready hfound hends, Utf8.encode_append, Utf8.encode_append]
    refine .append hreading ?_
    rw [bind_of_eq hready]
    exact (EndsShowing.append (printInTextMode_onHost mode (plan.text colors) _)
      hexecute).of_host rfl rfl

namespace Invocation

/-- The settings of an invocation on a host. -/
def settingsOn (i : Invocation) (file : SettingsFile) (host : Host) : Settings :=
  i.settings file (Host.pathOf host.cwd)

/-- What an invocation is to show on a host. -/
def shownOn (i : Invocation) (colors : Bool) (file : SettingsFile) (host : Host) : String :=
  shown i.mode colors (i.settingsOn file host).input
    ((Plan.prepare (i.settingsOn file host) i.predicate : OnHost _) host).1
    ((split (i.settingsOn file host) i.predicate : OnHost _) host).1

theorem settingsFile_onHost (i : Invocation) (host : Host) :
    ((i.settingsFile : OnHost _) host).2 = host := by
  rw [settingsFile]
  cases i.config with
  | none => rfl
  | some path =>
    have hread : (Storage.read path : OnHost _) host
        = (host.files.read host.cwd path, host) := rfl
    simp only [SettingsFile.load]
    rw [bind_of_eq hread]
    cases host.files.read host.cwd path with
    | error e => rfl
    | ok bytes => rfl

/-- An invocation ends as the run does that its settings ask for. -/
theorem endsShowing_run {i : Invocation} {file : SettingsFile} (colors : Bool)
    (h : ((i.settingsFile : OnHost _) host).1 = .ok file) :
    EndsShowing host (Utf8.encode (i.shownOn colors file host))
      (runEnd i.mode ((split (i.settingsOn file host) i.predicate : OnHost _) host).1)
      ((split (i.settingsOn file host) i.predicate : OnHost _) host).2.files
      ((i.run colors : OnHost _) host) := by
  have hfile : (i.settingsFile : OnHost _) host = (.ok file, host) :=
    Prod.ext h (i.settingsFile_onHost host)
  obtain ⟨journal, hready⟩ :=
    finds_prepare (i.settingsOn file host) i.predicate host rfl rfl
  obtain ⟨done, files, journal', hends, hsplit⟩ :=
    split_onHost (i.settingsOn file host) i.predicate host
  obtain ⟨done', files', hends', hrun⟩ := run_onHost (i.settingsOn file host) i.predicate i.mode
    colors { host with journal := host.journal ++ [.settled (i.settingsOn file host)] }
  obtain ⟨rfl, rfl⟩ := hends.unique hends'
  rw [shownOn, hsplit, hready, show (i.run colors : OnHost _) host = _ from bind_of_eq hfile _]
  exact hrun.of_host rfl rfl

end Invocation

/-- An invocation that reads the log in the output directory. -/
def fieldInvocation : Invocation where
  input := "out/log.txt"
  predicate := "state >= 1"
  stem := none
  outputDir := some ⟨Utf8.encode "out"⟩
  config := none
  strict := true
  noClean := false
  json := false
  quiet := false

/-- A log whose name is no text. -/
def strayInput : Path := ⟨[0x6C, 0xFF]⟩

/-- A host with such a log. -/
def strayHost : Host :=
  .start (FileTree.empty.insert [strayInput.bytes]
    (.file (Utf8.encode "t\tstate\n0\t1\n1\t0\n"))) []

/-- An invocation that reads this log and shows the outcome as JSON. -/
def strayInvocation : Invocation := { fieldInvocation with input := strayInput, json := true }

end LogSplit
