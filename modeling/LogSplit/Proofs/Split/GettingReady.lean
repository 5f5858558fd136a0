import LogSplit.Split
import LogSplit.Proofs.File.Host
import LogSplit.Proofs.File.Operations

/-!
# What a split is made ready from

`Plan.ofFiles` is the plan that a tree of files gives, or the reason why it gives none, with nothing
told on the way.  Getting ready on a host comes to this plan and changes nothing but the journal
(`finds_prepare`), so whatever is to be known about a plan can be read off `Plan.ofFiles`.
-/

set_option autoImplicit false

namespace LogSplit

open OnHost

/-- The conditions that a predicate text asks for, if a split can be made with them. -/
def ConditionSet.required (strict : Bool) (text : String) : Except SplitError ConditionSet :=
  match ConditionSet.parse text with
  | .error e => .error (.predicate e)
  | .ok conditions =>
    if conditions.isEmpty && strict then .error (.emptyPredicate text) else .ok conditions

/-- The table that a file holds. -/
def FileTree.readTable (t : FileTree) (cwd : Location) (path : Path) : Except TableError Table :=
  match t.read cwd path with
  | .error (.opening e) => .error (.file e)
  | .error (.reading e) => .error (.transfer e)
  | .ok bytes => Tsv.decode bytes

theorem mapError_ok {ε ε' α : Type} (f : ε → ε') (a : α) :
    (Except.ok a : Except ε α).mapError f = .ok a :=
  rfl

/-- The plan of a split over the files as they are. -/
def Plan.ofFiles (settings : Settings) (predicate : String) (t : FileTree) (cwd : Location) :
    Except SplitError Plan := do
  Stem.validate settings.stem
  let conditions ← ConditionSet.required settings.strict predicate
  let table ← (t.readTable cwd settings.input).mapError .table
  let compiled ← CompiledPredicate.compile table.header conditions
  return ⟨settings, conditions, table, compiled⟩

variable {files : FileTree} {cwd : Location}

theorem finds_readPredicate (strict : Bool) (text : String) :
    Finds files cwd (readPredicate strict text) (ConditionSet.required strict text) := by
  rw [readPredicate, ConditionSet.required]
  refine (finds_forM_record _).bind ?_
  cases ConditionSet.parse text with
  | error e => exact finds_pure _
  | ok conditions =>
    have hrest : Finds files cwd (do
        if 0 < conditions.orConnectives then
          Journal.record (.orAsAnd conditions.orConnectives)
        return .ok conditions) (.ok conditions : Except SplitError ConditionSet) := by
      split
      · exact (finds_record _).bind (finds_pure _)
      · exact finds_pure _
    dsimp only
    cases conditions.isEmpty <;> cases strict
    · exact hrest
    · exact hrest
    · exact (finds_record _).bind hrest
    · exact finds_pure _

theorem finds_readTable (path : Path) :
    Finds files cwd (readTable path) (files.readTable cwd path) := by
  rw [readTable, FileTree.readTable]
  refine (finds_ask _).bind ?_
  rcases files.read cwd path with (e | e) | bytes
  · exact finds_pure _
  · exact finds_pure _
  · exact (finds_forM_record _).bind (finds_pure _)

theorem finds_readInput (path : Path) :
    Finds files cwd (readInput path) ((files.readTable cwd path).mapError .table) := by
  rw [readInput]
  refine (finds_record _).bind ((finds_readTable path).bind ?_)
  cases files.readTable cwd path with
  | error e => exact finds_pure _
  | ok t => exact finds_pure _

/-- **Getting ready comes to the plan over the files**, and changes none of them. -/
theorem finds_prepare (settings : Settings) (predicate : String) :
    Finds files cwd (Plan.prepare settings predicate)
      (Plan.ofFiles settings predicate files cwd) := by
  rw [Plan.prepare, Plan.ofFiles]
  cases Stem.validate settings.stem with
  | error e => exact finds_pure _
  | ok u =>
    refine (finds_readPredicate _ _).bind ?_
    cases ConditionSet.required settings.strict predicate with
    | error e => exact finds_pure _
    | ok conditions =>
      refine (finds_readInput _).bind ?_
      cases (files.readTable cwd settings.input).mapError SplitError.table with
      | error e => exact finds_pure _
      | ok table =>
        refine (finds_forM_record _).bind ?_
        simp only [bind, Except.bind]
        cases CompiledPredicate.compile table.header conditions with
        | error e => exact finds_pure _
        | ok compiled => exact finds_pure _

variable {settings : Settings} {predicate : String} {host host' : Host} {plan : Plan}
  {outcome : Except SplitError Plan}

theorem ofFiles_of_prepare
    (h : (Plan.prepare settings predicate : OnHost _) host = (outcome, host')) :
    outcome = Plan.ofFiles settings predicate host.files host.cwd ∧ host'.files = host.files ∧
      host'.cwd = host.cwd := by
  obtain ⟨journal, hfound⟩ := finds_prepare settings predicate host rfl rfl
  cases h.symm.trans hfound
  exact ⟨rfl, rfl, rfl⟩

/-- What a plan over some files is made of. -/
structure Plan.MadeOf (plan : Plan) (settings : Settings) (predicate : String) (t : FileTree)
    (cwd : Location) : Prop where
  /-- The settings are kept. -/
  settings_eq : plan.settings = settings
  /-- The stem can be used. -/
  stem : Stem.validate settings.stem = .ok ()
  /-- The conditions are those of the predicate text. -/
  conditions : ConditionSet.parse predicate = .ok plan.conditions
  /-- There is one at least, if there has to be. -/
  strict : settings.strict = true → plan.conditions.isEmpty = false
  /-- The table is the one in the input. -/
  table : ∃ bytes, t.read cwd settings.input = .ok bytes ∧ Tsv.decode bytes = .ok plan.table
  /-- Every condition is bound to a column. -/
  compiled : CompiledPredicate.compile plan.table.header plan.conditions = .ok plan.compiled

theorem Plan.MadeOf.destination_eq (h : plan.MadeOf settings predicate files cwd) :
    plan.destination = ⟨settings.outputDir, settings.stem⟩ := by
  rw [Plan.destination, h.settings_eq]

theorem ConditionSet.required_eq_ok_iff {strict : Bool} {text : String}
    {conditions : ConditionSet} : required strict text = .ok conditions ↔
      parse text = .ok conditions ∧ (strict = true → conditions.isEmpty = false) := by
  rw [required]
  cases parse text with
  | error e => simp
  | ok found =>
    simp only [Except.ok.injEq]
    constructor
    · intro h
      split at h
      · cases h
      · rename_i hempty
        cases h
        exact ⟨rfl, fun hstrict => by simpa [hstrict] using hempty⟩
    · rintro ⟨rfl, hstrict⟩
      refine if_neg ?_
      cases strict <;> simp_all

theorem FileTree.readTable_eq_ok_iff {t : FileTree} {path : Path} {table : Table} :
    t.readTable cwd path = .ok table ↔
      ∃ bytes, t.read cwd path = .ok bytes ∧ Tsv.decode bytes = .ok table := by
  rw [readTable]
  rcases t.read cwd path with (e | e) | bytes <;> simp

theorem Plan.ofFiles_eq_ok_iff :
    Plan.ofFiles settings predicate files cwd = .ok plan ↔
      plan.MadeOf settings predicate files cwd := by
  constructor
  · intro h
    rw [ofFiles] at h
    obtain ⟨⟨⟩, hstem, h⟩ := exists_of_bind_eq_ok h
    obtain ⟨conditions, hconditions, h⟩ := exists_of_bind_eq_ok h
    obtain ⟨table, htable, h⟩ := exists_of_bind_eq_ok h
    obtain ⟨compiled, hcompiled, h⟩ := exists_of_bind_eq_ok h
    cases h
    obtain ⟨hparse, hstrict⟩ := ConditionSet.required_eq_ok_iff.1 hconditions
    cases hread : files.readTable cwd settings.input with
    | error e =>
      rw [hread] at htable
      cases htable
    | ok t =>
      rw [hread] at htable
      cases htable
      exact ⟨rfl, hstem, hparse, hstrict, FileTree.readTable_eq_ok_iff.1 hread, hcompiled⟩
  · intro h
    have hconditions := ConditionSet.required_eq_ok_iff.2 ⟨h.conditions, h.strict⟩
    have htable := FileTree.readTable_eq_ok_iff.2 h.table
    rw [ofFiles, h.stem, hconditions, htable]
    simp only [bind, Except.bind, mapError_ok, h.compiled]
    rw [← h.settings_eq]
    rfl

end LogSplit
