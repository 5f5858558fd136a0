import LogSplit.Proofs.Predicate.Compiled

/-!
# Compiling keeps the meaning

A condition set means something without columns and without compiling.  Each condition looks its
field up in the header, by name, and reads a number from the row below (`Condition.Reads`).  If one
of them finds none, the first that does says what is wrong with the row; if all of them find one,
the row passes where all comparisons hold (`ConditionSet.Says`).

`compile_says` is that the compiled predicate says the same of every row.  There is only one reason
for not compiling at all, a field that is no name of the header, and the first such field is
reported.
-/

set_option autoImplicit false

namespace LogSplit

variable {h : Header} {r : NumberedRow} {c : Condition} {s : ConditionSet}

/-! ## By name -/

/-- The first column that has a name. -/
structure Header.FirstColumn (h : Header) (name : String) (column : Nat) : Prop where
  /-- The column has the name. -/
  name_eq : h.names[column]? = some name
  /-- No column in front of it does. -/
  not_before : ∀ i < column, h.names[i]? ≠ some name

/-- What a condition finds in the cell of a row that stands under its field. -/
inductive Condition.Reads (h : Header) (r : NumberedRow) (c : Condition) :
    Except RowError Binary64 → Prop where
  /-- The row ends before that cell. -/
  | missing {column : Nat} (hcolumn : h.FirstColumn c.field column)
    (hend : r.row.length ≤ column) : c.Reads h r (.error (.missingCell r.line c.field))
  /-- The cell is no number, also without the blanks around it. -/
  | notNumeric {column : Nat} {cell : String} (hcolumn : h.FirstColumn c.field column)
    (hcell : r.row.cells[column]? = some cell)
    (hnot : Binary64.ofText? (Text.trim cell) = none) :
    c.Reads h r (.error (.notNumeric r.line c.field cell))
  /-- The cell is a number, blanks around it aside. -/
  | number {column : Nat} {cell : String} {x : Binary64} (hcolumn : h.FirstColumn c.field column)
    (hcell : r.row.cells[column]? = some cell)
    (hnumber : Binary64.ofText? (Text.trim cell) = some x) : c.Reads h r (.ok x)

/-- What a condition set says of a row. -/
inductive ConditionSet.Says (h : Header) (r : NumberedRow) (s : ConditionSet) :
    Except RowError Bool → Prop where
  /-- A condition finds no number, and it is the first of them, whether or not those in front of it
  hold. -/
  | fault {front back : List Condition} {c : Condition} {e : RowError}
    (hsplit : s.conditions = front ++ c :: back)
    (hfront : ∀ c' ∈ front, ∃ x, c'.Reads h r (.ok x)) (hc : c.Reads h r (.error e)) :
    s.Says h r (.error e)
  /-- Every condition finds a number, and the row passes if all of them hold. -/
  | verdict {passes : Bool} (hnumbers : ∀ c ∈ s.conditions, ∃ x, c.Reads h r (.ok x))
    (hpasses : passes = true ↔
      ∀ c ∈ s.conditions, ∃ x, c.Reads h r (.ok x) ∧ c.op.apply x c.threshold = true) :
    s.Says h r (.ok passes)

/-! ## By column -/

theorem Header.indexOf?_eq_some_iff {name : String} {column : Nat} :
    h.indexOf? name = some column ↔ h.FirstColumn name column := by
  rw [indexOf?, List.findIdx?_eq_some_iff_getElem]
  constructor
  · rintro ⟨hlt, hname, hbefore⟩
    refine ⟨by rw [List.getElem?_eq_getElem hlt, beq_iff_eq.1 hname], fun i hi hother => ?_⟩
    obtain ⟨hlt', hother⟩ := List.getElem?_eq_some_iff.1 hother
    exact hbefore i hi (beq_iff_eq.2 hother)
  · rintro ⟨hname, hbefore⟩
    obtain ⟨hlt, hname⟩ := List.getElem?_eq_some_iff.1 hname
    refine ⟨hlt, beq_iff_eq.2 hname, fun i hi hother => hbefore i hi ?_⟩
    rw [List.getElem?_eq_getElem (Nat.lt_trans hi hlt), beq_iff_eq.1 hother]

theorem Header.FirstColumn.unique {name : String} {column column' : Nat}
    (hcolumn : h.FirstColumn name column) (hcolumn' : h.FirstColumn name column') :
    column' = column :=
  Option.some.inj ((indexOf?_eq_some_iff.2 hcolumn').symm.trans (indexOf?_eq_some_iff.2 hcolumn))

/-- A condition that is bound to the column of its field reads the cell that stands under it. -/
theorem BoundCondition.reads_iff {b : BoundCondition}
    (hcolumn : h.FirstColumn b.condition.field b.column) {found : Except RowError Binary64} :
    b.condition.Reads h r found ↔ b.value r = found := by
  rw [value, Row.get?]
  constructor
  · rintro (⟨hcolumn', hend⟩ | ⟨hcolumn', hcell, hnot⟩ | ⟨hcolumn', hcell, hnumber⟩) <;>
      obtain rfl := hcolumn.unique hcolumn'
    · rw [List.getElem?_eq_none hend]
    · rw [hcell]
      simp only [hnot]
    · rw [hcell]
      simp only [hnumber]
  · rintro rfl
    cases hcell : r.row.cells[b.column]? with
    | none => exact .missing hcolumn (List.getElem?_eq_none_iff.1 hcell)
    | some cell =>
      dsimp only
      cases hnumber : Binary64.ofText? (Text.trim cell) with
      | none => exact .notNumeric hcolumn hcell hnumber
      | some x => exact .number hcolumn hcell hnumber

theorem BoundCondition.holds_eq_ok_iff {b : BoundCondition} {holds : Bool} :
    b.holds r = .ok holds ↔
      ∃ x, b.value r = .ok x ∧ b.condition.op.apply x b.condition.threshold = holds := by
  rw [BoundCondition.holds]
  cases b.value r <;> simp [Except.map]

theorem BoundCondition.holds_eq_error_iff {b : BoundCondition} {e : RowError} :
    b.holds r = .error e ↔ b.value r = .error e := by
  rw [holds]
  cases b.value r <;> simp [Except.map]

/-- A bound condition can be evaluated where the condition finds a number. -/
theorem BoundCondition.exists_holds_iff {b : BoundCondition}
    (hcolumn : h.FirstColumn b.condition.field b.column) :
    (∃ holds, b.holds r = .ok holds) ↔ ∃ x, b.condition.Reads h r (.ok x) := by
  simp only [holds_eq_ok_iff, reads_iff hcolumn]
  exact ⟨fun ⟨_, x, hx, _⟩ => ⟨x, hx⟩, fun ⟨x, hx⟩ => ⟨_, x, hx, rfl⟩⟩

/-! ## The set as a whole -/

namespace CompiledPredicate

variable {p : CompiledPredicate}

/-- The columns of a compiled predicate are the first ones of the fields. -/
theorem firstColumn_of_compile (hp : compile h s = .ok p) {b : BoundCondition}
    (hb : b ∈ p.conditions) : h.FirstColumn b.condition.field b.column :=
  Header.indexOf?_eq_some_iff.1 ((compile_eq_ok_iff.1 hp).2 b hb)

theorem test_eq_error_iff_says (hp : compile h s = .ok p) {e : RowError} :
    p.test r = .error e ↔ s.Says h r (.error e) := by
  have hnumber : ∀ b ∈ p.conditions,
      (∃ holds, b.holds r = .ok holds) ↔ ∃ x, b.condition.Reads h r (.ok x) :=
    fun b hb => b.exists_holds_iff (firstColumn_of_compile hp hb)
  have hfault : ∀ b ∈ p.conditions, b.holds r = .error e ↔ b.condition.Reads h r (.error e) :=
    fun b hb => b.holds_eq_error_iff.trans (b.reads_iff (firstColumn_of_compile hp hb)).symm
  rw [test_eq_error_iff]
  constructor
  · rintro ⟨front, b, back, hsplit, hfront, hb⟩
    have hconditions : s.conditions
        = front.map (·.condition) ++ b.condition :: back.map (·.condition) := by
      rw [← (compile_eq_ok_iff.1 hp).1, hsplit, List.map_append, List.map_cons]
    rw [hsplit] at hnumber hfault
    refine .fault hconditions (List.forall_mem_map.2 fun b' hb' => ?_) ((hfault b (by simp)).1 hb)
    exact (hnumber b' (List.mem_append_left _ hb')).1 (hfront b' hb')
  · rintro ⟨hsplit, hfront, hc⟩
    -- the conditions of the set are those of the bound ones, so these are split in the same place
    rw [← (compile_eq_ok_iff.1 hp).1] at hsplit
    obtain ⟨front, rest, hbound, rfl, hrest⟩ := List.map_eq_append_iff.1 hsplit
    obtain ⟨b, back, rfl, rfl, rfl⟩ := List.map_eq_cons_iff.1 hrest
    rw [hbound] at hnumber hfault
    refine ⟨front, b, back, hbound, fun b' hb' => ?_, (hfault b (by simp)).2 hc⟩
    exact (hnumber b' (List.mem_append_left _ hb')).2 (hfront _ (List.mem_map_of_mem hb'))

theorem test_eq_ok_iff_says (hp : compile h s = .ok p) {passes : Bool} :
    p.test r = .ok passes ↔ s.Says h r (.ok passes) := by
  have hnumbers : (∀ b ∈ p.conditions, ∃ holds, b.holds r = .ok holds) ↔
      ∀ c ∈ s.conditions, ∃ x, c.Reads h r (.ok x) := by
    rw [← (compile_eq_ok_iff.1 hp).1, List.forall_mem_map]
    exact forall₂_congr fun b hb => b.exists_holds_iff (firstColumn_of_compile hp hb)
  have hhold : (∀ b ∈ p.conditions, b.holds r = .ok true) ↔
      ∀ c ∈ s.conditions, ∃ x, c.Reads h r (.ok x) ∧ c.op.apply x c.threshold = true := by
    rw [← (compile_eq_ok_iff.1 hp).1, List.forall_mem_map]
    refine forall₂_congr fun b hb => ?_
    simp only [b.holds_eq_ok_iff, BoundCondition.reads_iff (firstColumn_of_compile hp hb)]
  rw [test_eq_ok_iff, hnumbers, hhold]
  exact ⟨fun ⟨hall, hpasses⟩ => .verdict hall hpasses,
    fun | .verdict hall hpasses => ⟨hall, hpasses⟩⟩

/-- **Compiling keeps the meaning.**  Either some field is no name of the header, and then the first
condition with such a field is reported, with all names there are; or the set compiles, and a test
says of a row, whatever its length and its line, what the set says of it by name. -/
theorem compile_says (h : Header) (s : ConditionSet) :
    (∃ c, s.FirstUnknown h c ∧ compile h s = .error (.fieldNotFound c.field h.names)) ∨
    ((∀ c ∈ s.conditions, c.field ∈ h.names) ∧
      ∃ p, compile h s = .ok p ∧ ∀ r verdict, p.test r = verdict ↔ s.Says h r verdict) := by
  cases hp : compile h s with
  | error e =>
    obtain ⟨c, hc, rfl⟩ := compile_eq_error_iff.1 hp
    exact .inl ⟨c, hc, rfl⟩
  | ok p =>
    refine .inr ⟨exists_compile_iff.1 ⟨p, hp⟩, p, rfl, fun r verdict => ?_⟩
    cases verdict with
    | error e => exact test_eq_error_iff_says hp
    | ok passes => exact test_eq_ok_iff_says hp

/-- Of two columns with one name the first is read, and a cell that is no number is found behind a
condition that does not hold. -/
example :
    (compile ⟨["v", "w", "v"]⟩ (.ofConditions
      [⟨"v", .ge, .ofBits 0x3FF0000000000000, "1"⟩, ⟨"w", .lt, .ofBits 0, "0"⟩])).map
      (·.test ⟨7, ⟨["0", " x", "2"]⟩⟩) = .ok (.error (.notNumeric 7 "w" " x")) := by
  decide +kernel

end CompiledPredicate

end LogSplit
