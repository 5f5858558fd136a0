import LogSplit.Proofs.Predicate.Compiled
import LogSplit.Proofs.Split.Phases

/-!
# Faults of the input

Five things can be wrong with what a split is given, and they are looked for in a fixed order:
the stem, the operators of the predicate, that it asks for nothing, the table, and its columns.
`Plan.isFirst_of_ofFiles_eq_error` says that a plan is missing because of the first of them that
there is, and `Plan.not_applies_of_ofFiles_eq_ok` that there is none of them if there is a plan.

`split_inputFault` carries this over to splits.  An error of one of these kinds means that there was
no plan, and then nothing has been touched.  Every other error is one of the files that are written
or of a row, and rows are only tested once the output directory is there.
-/

set_option autoImplicit false

namespace LogSplit

open FileTree

/-! ## What can be wrong -/

/-- What can be wrong with what a split is given, in the order in which it is looked for. -/
inductive InputFault where
  /-- The stem cannot be used. -/
  | stem
  /-- The predicate has an operator that there is not. -/
  | operator
  /-- The predicate asks for nothing, and must not. -/
  | noCondition
  /-- There is no table at the path of the input. -/
  | table
  /-- A condition names no column of the table. -/
  | field
  deriving DecidableEq, Repr

namespace InputFault

/-- The place of a fault in the order. -/
def rank : InputFault → Nat
  | stem => 0
  | operator => 1
  | noCondition => 2
  | table => 3
  | field => 4

/-- The fault is there. -/
def Applies (settings : Settings) (predicate : String) (t : FileTree) (cwd : Location) :
    InputFault → Prop
  | stem => ∃ fault, Stem.fault? settings.stem = some fault
  | operator => ∃ e, ConditionSet.parse predicate = .error e
  | noCondition => settings.strict = true ∧
    ∃ conditions, ConditionSet.parse predicate = .ok conditions ∧ conditions.conditions = []
  | table => (∃ e, t.read cwd settings.input = .error e) ∨
    ∃ bytes, t.read cwd settings.input = .ok bytes ∧
      (Tsv.decode bytes = .error .missingHeader ∨ ∃ e, Tsv.decode bytes = .error (.encoding e))
  | field => ∃ conditions bytes table, ConditionSet.parse predicate = .ok conditions ∧
    t.read cwd settings.input = .ok bytes ∧ Tsv.decode bytes = .ok table ∧
      ∃ c ∈ conditions.conditions, c.field ∉ table.header.names

/-- The fault is there and none that is looked for before it is. -/
structure IsFirst (settings : Settings) (predicate : String) (t : FileTree) (cwd : Location)
    (fault : InputFault) : Prop where
  /-- It is there. -/
  applies : fault.Applies settings predicate t cwd
  /-- No other is looked for before it. -/
  rank_le : ∀ other : InputFault, other.Applies settings predicate t cwd → fault.rank ≤ other.rank

end InputFault

/-- The fault of the input that an error reports, if it reports one. -/
def SplitError.inputFault? : SplitError → Option InputFault
  | .invalidStem .. => some .stem
  | .predicate _ => some .operator
  | .emptyPredicate _ => some .noCondition
  | .table _ => some .table
  | .fieldNotFound .. => some .field
  | _ => none

variable {settings : Settings} {predicate : String} {t : FileTree} {cwd : Location} {plan : Plan}
  {conditions : ConditionSet} {table : Table}

/-! ## Which steps find which fault -/

theorem Stem.validate_eq_ok_iff {stem : String} : validate stem = .ok () ↔ fault? stem = none := by
  rw [validate]
  cases fault? stem <;> simp

/-- A text can fail to be a table in two ways. -/
theorem Tsv.decode_eq_error {bytes : Bytes} {e : TableError} (h : decode bytes = .error e) :
    e = .missingHeader ∨ ∃ cause, e = .encoding cause := by
  rw [decode, Reading.table] at h
  split at h
  · cases h
    exact Or.inr ⟨_, rfl⟩
  · cases h
    exact Or.inl rfl
  · cases h

namespace InputFault

theorem not_applies_stem (h : Stem.validate settings.stem = .ok ()) :
    ¬ Applies settings predicate t cwd .stem := by
  rintro ⟨fault, hfault⟩
  rw [Stem.validate_eq_ok_iff.1 h] at hfault
  cases hfault

theorem not_applies_operator (h : ConditionSet.parse predicate = .ok conditions) :
    ¬ Applies settings predicate t cwd .operator := by
  rintro ⟨e, herror⟩
  rw [h] at herror
  cases herror

theorem not_applies_noCondition (h : ConditionSet.parse predicate = .ok conditions)
    (hstrict : settings.strict = true → conditions.isEmpty = false) :
    ¬ Applies settings predicate t cwd .noCondition := by
  rintro ⟨hstrict', conditions', hparse, hempty⟩
  cases h.symm.trans hparse
  have hsome := hstrict hstrict'
  rw [ConditionSet.isEmpty, hempty] at hsome
  cases hsome

theorem not_applies_table {bytes : Bytes} (hread : t.read cwd settings.input = .ok bytes)
    (hdecode : Tsv.decode bytes = .ok table) : ¬ Applies settings predicate t cwd .table := by
  rintro (⟨e, herror⟩ | ⟨bytes', hread', herror⟩)
  · rw [hread] at herror
    cases herror
  · cases hread.symm.trans hread'
    rw [hdecode] at herror
    rcases herror with herror | ⟨e, herror⟩ <;> cases herror

theorem not_applies_field (h : ConditionSet.parse predicate = .ok conditions) {bytes : Bytes}
    (hread : t.read cwd settings.input = .ok bytes) (hdecode : Tsv.decode bytes = .ok table)
    (hfields : ∀ c ∈ conditions.conditions, c.field ∈ table.header.names) :
    ¬ Applies settings predicate t cwd .field := by
  rintro ⟨conditions', bytes', table', hparse, hread', hdecode', c, hc, hfield⟩
  cases h.symm.trans hparse
  cases hread.symm.trans hread'
  cases hdecode.symm.trans hdecode'
  exact hfield (hfields c hc)

/-- What is not read as a table is a fault. -/
theorem applies_table {e : TableError} (h : t.readTable cwd settings.input = .error e) :
    Applies settings predicate t cwd .table := by
  rw [FileTree.readTable] at h
  rcases hread : t.read cwd settings.input with cause | bytes
  · exact Or.inl ⟨cause, hread⟩
  · rw [hread] at h
    refine Or.inr ⟨bytes, hread, ?_⟩
    rcases Tsv.decode_eq_error h with rfl | ⟨cause, rfl⟩
    · exact Or.inl h
    · exact Or.inr ⟨cause, h⟩

/-! ## The first fault -/

theorem isFirst_stem {e : SplitError} (h : Stem.validate settings.stem = .error e) :
    e.inputFault? = some .stem ∧ IsFirst settings predicate t cwd .stem := by
  rw [Stem.validate] at h
  cases hfault : Stem.fault? settings.stem with
  | none =>
    rw [hfault] at h
    cases h
  | some fault =>
    rw [hfault] at h
    cases h
    exact ⟨rfl, ⟨fault, hfault⟩, fun other _ => Nat.zero_le other.rank⟩

theorem isFirst_of_required (hstem : Stem.validate settings.stem = .ok ()) {e : SplitError}
    (h : ConditionSet.required settings.strict predicate = .error e) :
    ∃ fault, e.inputFault? = some fault ∧ IsFirst settings predicate t cwd fault := by
  rw [ConditionSet.required] at h
  rcases hparse : ConditionSet.parse predicate with cause | conditions <;> rw [hparse] at h
  · cases h
    refine ⟨.operator, rfl, ⟨cause, hparse⟩, fun other hother => ?_⟩
    cases other with
    | stem => exact absurd hother (not_applies_stem hstem)
    | _ => decide
  · dsimp only at h
    split at h
    · rename_i hempty
      cases h
      obtain ⟨hempty, hstrict⟩ := Bool.and_eq_true_iff.1 hempty
      refine ⟨.noCondition, rfl, ⟨hstrict, conditions, hparse, List.isEmpty_iff.1 hempty⟩,
        fun other hother => ?_⟩
      cases other with
      | stem => exact absurd hother (not_applies_stem hstem)
      | operator => exact absurd hother (not_applies_operator hparse)
      | _ => decide
    · cases h

theorem isFirst_table (hstem : Stem.validate settings.stem = .ok ())
    (hrequired : ConditionSet.required settings.strict predicate = .ok conditions)
    {e : TableError} (h : t.readTable cwd settings.input = .error e) :
    IsFirst settings predicate t cwd .table := by
  obtain ⟨hparse, hstrict⟩ := ConditionSet.required_eq_ok_iff.1 hrequired
  refine ⟨applies_table h, fun other hother => ?_⟩
  cases other with
  | stem => exact absurd hother (not_applies_stem hstem)
  | operator => exact absurd hother (not_applies_operator hparse)
  | noCondition => exact absurd hother (not_applies_noCondition hparse hstrict)
  | _ => decide

theorem isFirst_field (hstem : Stem.validate settings.stem = .ok ())
    (hrequired : ConditionSet.required settings.strict predicate = .ok conditions)
    (htable : t.readTable cwd settings.input = .ok table) {e : SplitError}
    (h : CompiledPredicate.compile table.header conditions = .error e) :
    e.inputFault? = some .field ∧ IsFirst settings predicate t cwd .field := by
  obtain ⟨hparse, hstrict⟩ := ConditionSet.required_eq_ok_iff.1 hrequired
  obtain ⟨bytes, hread, hdecode⟩ := readTable_eq_ok_iff.1 htable
  obtain ⟨c, hc, rfl⟩ := CompiledPredicate.compile_eq_error_iff.1 h
  refine ⟨rfl, ⟨conditions, bytes, table, hparse, hread, hdecode, c, hc.mem, hc.not_mem⟩,
    fun other hother => ?_⟩
  cases other with
  | stem => exact absurd hother (not_applies_stem hstem)
  | operator => exact absurd hother (not_applies_operator hparse)
  | noCondition => exact absurd hother (not_applies_noCondition hparse hstrict)
  | table => exact absurd hother (not_applies_table hread hdecode)
  | _ => decide

end InputFault

open InputFault

/-- **If there is no plan, the first fault that there is is the reason.** -/
theorem Plan.isFirst_of_ofFiles_eq_error {e : SplitError}
    (h : Plan.ofFiles settings predicate t cwd = .error e) :
    ∃ fault, e.inputFault? = some fault ∧ fault.IsFirst settings predicate t cwd := by
  rw [ofFiles] at h
  rcases hstem : Stem.validate settings.stem with cause | ⟨⟩ <;> rw [hstem] at h
  · cases h
    exact ⟨.stem, isFirst_stem hstem⟩
  rcases hrequired : ConditionSet.required settings.strict predicate with cause | conditions <;>
    rw [hrequired] at h
  · cases h
    exact isFirst_of_required hstem hrequired
  rcases htable : t.readTable cwd settings.input with cause | table <;> rw [htable] at h
  · cases h
    exact ⟨.table, rfl, isFirst_table hstem hrequired htable⟩
  rcases hcompile : CompiledPredicate.compile table.header conditions with cause | compiled <;>
    simp only [bind, Except.bind, mapError_ok, hcompile] at h
  · cases h
    exact ⟨.field, isFirst_field hstem hrequired htable hcompile⟩
  · cases h

/-- If there is a plan nothing is wrong. -/
theorem Plan.not_applies_of_ofFiles_eq_ok (h : Plan.ofFiles settings predicate t cwd = .ok plan)
    (fault : InputFault) : ¬ fault.Applies settings predicate t cwd := by
  have hmade := Plan.ofFiles_eq_ok_iff.1 h
  obtain ⟨bytes, hread, hdecode⟩ := hmade.table
  have hfields := CompiledPredicate.exists_compile_iff.1 ⟨plan.compiled, hmade.compiled⟩
  cases fault with
  | stem => exact not_applies_stem hmade.stem
  | operator => exact not_applies_operator hmade.conditions
  | noCondition => exact not_applies_noCondition hmade.conditions hmade.strict
  | table => exact not_applies_table hread hdecode
  | field => exact not_applies_field hmade.conditions hread hdecode hfields

/-! ## Splits -/

variable {host host' : Host} {e : SplitError}

/-- Writing segments fails with the file of a segment or with a row. -/
theorem HandedOver.error_cases {d : Destination} {header : Header}
    {st st' : FileTree × List WrittenSegment} {summary : ScanSummary} {events told : List ScanEvent}
    (h : HandedOver (takeSegment cwd d header) st summary events (.error e) st' told) :
    (∃ path cause, e = .output path cause) ∨ ∃ cause, e = .row cause := by
  generalize houtcome : (Except.error e : Except SplitError ScanSummary) = outcome at h
  cases h with
  | @refused _ _ s st₁ st₂ cause _ _ _ hs =>
    cases houtcome
    obtain ⟨cause, -, rfl, -⟩ := Destination.takeSegment_eq_error hs
    exact Or.inl ⟨_, _, rfl⟩
  | @failed _ _ cause =>
    cases houtcome
    exact Or.inr ⟨cause, rfl⟩
  | completed => cases houtcome

/-- A row has stopped a split.  This happens while segments are written, and by then the output
directory is there. -/
def StoppedByRow (settings : Settings) (predicate : String) (host host' : Host)
    (cause : RowError) : Prop :=
  ∃ plan host₁ removed host₂ written,
    (Plan.prepare settings predicate : OnHost _) host = (.ok plan, host₁) ∧
    (prepareDirectory settings.outputDir settings.clean (some settings.input) : OnHost _) host₁
      = (.ok removed, host₂) ∧
    (WellNamed host.files →
      ∃ base, HasDirectory host₂.files host₂.cwd settings.outputDir base) ∧
    (plan.destination.writeSegments plan.compiled plan.table : OnHost _) host₂
      = ((.error (.row cause), written), host')

/-- How a split with a plan fails. -/
theorem execute_eq_error {host₁ : Host}
    (hready : (Plan.prepare settings predicate : OnHost _) host = (.ok plan, host₁))
    (h : (plan.execute : OnHost _) host₁ = (.error e, host')) :
    (∃ path cause, e = .output path cause) ∨
      ∃ cause, e = .row cause ∧ StoppedByRow settings predicate host host' cause := by
  obtain ⟨hfound, hfiles, -⟩ := ofFiles_of_prepare hready
  have hsettings := (Plan.ofFiles_eq_ok_iff.1 hfound.symm).settings_eq
  obtain ⟨journal, hprepared⟩ := prepareDirectory_onHost plan.settings.outputDir
    plan.settings.clean (some plan.settings.input) host₁
  rcases hdir : host₁.files.prepareDirectory host₁.cwd plan.settings.outputDir plan.settings.clean
    (some plan.settings.input) with ⟨cause | removed, prepared⟩ <;> simp only [hdir] at hprepared
  · cases (execute_of_unprepared hprepared).symm.trans h
    obtain ⟨path, cause, rfl⟩ := prepareDirectory_eq_error hdir
    exact Or.inl ⟨path, _, rfl⟩
  obtain ⟨outcome, files, written, told, journal', hended, hwritten⟩ :=
    plan.destination.writeSegments_onHost plan.compiled plan.table
      { host₁ with files := prepared, journal := journal }
  cases outcome with
  | ok summary => cases (execute_of_write_ok hprepared hwritten).symm.trans h
  | error cause =>
    cases (execute_of_write_error hprepared hwritten).symm.trans h
    refine hended.error_cases.imp id ?_
    rintro ⟨cause, rfl⟩
    rw [hsettings] at hprepared hdir
    refine ⟨cause, rfl, plan, host₁, removed, _, written, hready, hprepared, fun hnamed => ?_,
      hwritten⟩
    rw [← hfiles] at hnamed
    obtain ⟨base, stale, -, hdone⟩ := prepared_of_prepareDirectory hnamed hdir
    exact ⟨base, hdone.hasDirectory⟩

/-- **Faults of the input surface before anything is touched.**  A split reports one of them if and
only if getting ready fails, and that is if and only if one of them is there; then the files are as
they were, and the first that there is is reported.  Every other error of a split is one of the
files that are written, or of a row that is tested when the output directory is there. -/
theorem split_inputFault (settings : Settings) (predicate : String) (host : Host) :
    ((∃ e fault, ((split settings predicate : OnHost _) host).1 = .error e ∧
        e.inputFault? = some fault) ↔
      ∃ e, ((Plan.prepare settings predicate : OnHost _) host).1 = .error e) ∧
    ((∃ e, ((Plan.prepare settings predicate : OnHost _) host).1 = .error e) ↔
      ∃ fault : InputFault, fault.Applies settings predicate host.files host.cwd) ∧
    (∀ e, ((Plan.prepare settings predicate : OnHost _) host).1 = .error e →
      ((split settings predicate : OnHost _) host).1 = .error e ∧
      ((split settings predicate : OnHost _) host).2.files = host.files ∧
      ((split settings predicate : OnHost _) host).2.cwd = host.cwd ∧
      ∃ fault, e.inputFault? = some fault ∧
        fault.IsFirst settings predicate host.files host.cwd) ∧
    (∀ e, ((split settings predicate : OnHost _) host).1 = .error e → e.inputFault? = none →
      (∃ path cause, e = .output path cause) ∨
        ∃ cause, e = .row cause ∧ StoppedByRow settings predicate host
          ((split settings predicate : OnHost _) host).2 cause) := by
  rcases hready : (Plan.prepare settings predicate : OnHost _) host with ⟨e | plan, host₁⟩ <;>
    obtain ⟨hfound, hfiles, hcwd⟩ := ofFiles_of_prepare hready
  · rw [split_of_unready hready]
    obtain ⟨fault, hfault, hfirst⟩ := Plan.isFirst_of_ofFiles_eq_error hfound.symm
    refine ⟨⟨fun _ => ⟨e, rfl⟩, fun _ => ⟨e, fault, rfl, hfault⟩⟩,
      ⟨fun _ => ⟨fault, hfirst.applies⟩, fun _ => ⟨e, rfl⟩⟩, ?_, ?_⟩
    · rintro _ ⟨⟩
      exact ⟨rfl, hfiles, hcwd, fault, hfault, hfirst⟩
    · rintro _ ⟨⟩ hnone
      rw [hfault] at hnone
      cases hnone
  · rw [split_of_ready hready]
    have hnot := Plan.not_applies_of_ofFiles_eq_ok hfound.symm
    rcases hexecute : (plan.execute : OnHost _) host₁ with ⟨e | report, host'⟩
    · have hlate := execute_eq_error hready hexecute
      have hkind : e.inputFault? = none := by
        rcases hlate with ⟨path, cause, rfl⟩ | ⟨cause, rfl, -⟩ <;> rfl
      refine ⟨⟨?_, ?_⟩, ⟨?_, fun ⟨fault, h⟩ => absurd h (hnot fault)⟩, ?_, ?_⟩
      · rintro ⟨_, fault, ⟨⟩, hfault⟩
        rw [hkind] at hfault
        cases hfault
      · rintro ⟨_, ⟨⟩⟩
      · rintro ⟨_, ⟨⟩⟩
      · rintro _ ⟨⟩
      · rintro _ ⟨⟩ -
        exact hlate
    · refine ⟨⟨?_, ?_⟩, ⟨?_, fun ⟨fault, h⟩ => absurd h (hnot fault)⟩, ?_, ?_⟩
      · rintro ⟨_, _, ⟨⟩, _⟩
      · rintro ⟨_, ⟨⟩⟩
      · rintro ⟨_, ⟨⟩⟩
      · rintro _ ⟨⟩
      · rintro _ ⟨⟩

end LogSplit
