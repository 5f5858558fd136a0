import LogSplit.Predicate.Compiled
import Mathlib.Data.List.Basic

/-!
# Compiled predicates

What compiling makes of a condition set, and what testing makes of a row.  Both walk over the
conditions, and both are described here without the walk:

* `compile_eq_ok_iff`: the conditions are all there, in order, each with the first column of its
  field.
* `compile_eq_error_iff`: the first condition whose field is no column is reported.
* `test_eq_ok_iff`: every condition finds a number, and the row passes if all of them hold.
* `test_eq_error_iff`: the first condition that finds none is reported, whatever those in front
  of it say.

What is said elsewhere about compiled predicates is read off these four.
-/

set_option autoImplicit false

namespace LogSplit

/-! ## Columns -/

theorem Header.indexOf?_eq_none_iff {h : Header} {name : String} :
    h.indexOf? name = none ↔ name ∉ h.names := by
  rw [indexOf?, List.findIdx?_eq_none_iff]
  constructor
  · intro hall hmem
    simpa using hall name hmem
  · intro hnot other hother
    refine beq_eq_false_iff_ne.2 ?_
    rintro rfl
    exact hnot hother

theorem Header.mem_names_of_indexOf? {h : Header} {name : String} {column : Nat}
    (hindex : h.indexOf? name = some column) : name ∈ h.names := by
  by_contra hnot
  rw [indexOf?_eq_none_iff.2 hnot] at hindex
  cases hindex

/-! ## Compiling -/

/-- The first condition of a set whose field is no column. -/
structure ConditionSet.FirstUnknown (s : ConditionSet) (h : Header) (c : Condition) : Prop where
  /-- The fields in front of it are columns. -/
  split : ∃ front back, s.conditions = front ++ c :: back ∧ ∀ c' ∈ front, c'.field ∈ h.names
  /-- Its own field is none. -/
  not_mem : c.field ∉ h.names

theorem ConditionSet.FirstUnknown.mem {s : ConditionSet} {h : Header} {c : Condition}
    (hc : s.FirstUnknown h c) : c ∈ s.conditions := by
  obtain ⟨front, back, hsplit, -⟩ := hc.split
  rw [hsplit]
  exact List.mem_append_right front List.mem_cons_self

namespace CompiledPredicate

variable {h : Header} {s : ConditionSet} {p : CompiledPredicate}

/-- Conditions are bound up to the first whose field is no column. -/
theorem bindAll_snd (h : Header) (cs : List Condition) :
    (bindAll h cs).2 = cs.find? fun c => decide (c.field ∉ h.names) := by
  induction cs with
  | nil => rfl
  | cons c rest ih =>
    rw [bindAll]
    cases hindex : h.indexOf? c.field with
    | none => rw [List.find?_cons_of_pos (by simpa using Header.indexOf?_eq_none_iff.1 hindex)]
    | some column =>
      rw [List.find?_cons_of_neg (by simpa using Header.mem_names_of_indexOf? hindex)]
      exact ih

theorem bindAll_eq_none_iff {header : Header} {cs : List Condition} :
    (bindAll header cs).2 = none ↔ ∀ c ∈ cs, c.field ∈ header.names := by
  simp [bindAll_snd]

/-- If all conditions are bound, each is bound to the first column of its field. -/
theorem bindAll_eq_iff {cs : List Condition} : ∀ {bound : List BoundCondition},
    bindAll h cs = (bound, none) ↔
      bound.map (·.condition) = cs ∧
        ∀ b ∈ bound, h.indexOf? b.condition.field = some b.column := by
  induction cs with
  | nil =>
    intro bound
    cases bound <;> simp [bindAll]
  | cons c rest ih =>
    intro bound
    rw [bindAll]
    cases hindex : h.indexOf? c.field with
    | none =>
      refine ⟨(nomatch ·), ?_⟩
      rintro ⟨hmap, hcolumns⟩
      obtain ⟨b, bound, rfl, rfl, -⟩ := List.map_eq_cons_iff.1 hmap
      rw [hcolumns b List.mem_cons_self] at hindex
      cases hindex
    | some column =>
      constructor
      · intro heq
        obtain ⟨rfl, hunknown⟩ := Prod.mk.inj heq
        obtain ⟨hmap, hcolumns⟩ := ih.1 (Prod.ext rfl hunknown)
        refine ⟨by rw [List.map_cons, hmap], ?_⟩
        simpa [hindex] using hcolumns
      · rintro ⟨hmap, hcolumns⟩
        obtain ⟨⟨c, column'⟩, bound, rfl, rfl, hrest⟩ := List.map_eq_cons_iff.1 hmap
        obtain ⟨hfirst, hbehind⟩ := List.forall_mem_cons.1 hcolumns
        obtain rfl : column = column' := Option.some.inj (hindex.symm.trans hfirst)
        rw [ih.2 ⟨hrest, hbehind⟩]

theorem compile_eq_ok_iff : compile h s = .ok p ↔
    p.conditions.map (·.condition) = s.conditions ∧
      ∀ b ∈ p.conditions, h.indexOf? b.condition.field = some b.column := by
  rw [← bindAll_eq_iff, compile]
  rcases bindAll h s.conditions with ⟨bound, _ | c⟩ <;> rcases p with ⟨conditions⟩ <;> simp

/-- The bound conditions are those of the set, each with the first column of its field. -/
theorem mem_conditions_iff (hp : compile h s = .ok p) {b : BoundCondition} :
    b ∈ p.conditions ↔
      b.condition ∈ s.conditions ∧ h.indexOf? b.condition.field = some b.column := by
  obtain ⟨hconditions, hcolumns⟩ := compile_eq_ok_iff.1 hp
  rw [← hconditions]
  refine ⟨fun hb => ⟨List.mem_map_of_mem hb, hcolumns b hb⟩, ?_⟩
  obtain ⟨c, column⟩ := b
  rintro ⟨hmem, hcolumn⟩
  obtain ⟨⟨c, column'⟩, hb, rfl⟩ := List.mem_map.1 hmem
  obtain rfl : column' = column := Option.some.inj ((hcolumns _ hb).symm.trans hcolumn)
  exact hb

theorem compile_eq_error_iff {e : SplitError} : compile h s = .error e ↔
    ∃ c, s.FirstUnknown h c ∧ e = .fieldNotFound c.field h.names := by
  have hfirst : ∀ c, (bindAll h s.conditions).2 = some c ↔ s.FirstUnknown h c := by
    intro c
    rw [bindAll_snd, List.find?_eq_some_iff_append]
    simp only [decide_eq_true_eq, Bool.not_eq_eq_eq_not, Bool.not_true, decide_eq_false_iff_not,
      not_not]
    exact ⟨fun ⟨hnot, hsplit⟩ => ⟨hsplit, hnot⟩, fun hc => ⟨hc.not_mem, hc.split⟩⟩
  simp only [← hfirst, compile]
  rcases bindAll h s.conditions with ⟨bound, _ | c⟩ <;> simp [eq_comm]

/-- Conditions can be bound if and only if all of their fields are columns. -/
theorem exists_compile_iff {header : Header} {conditions : ConditionSet} :
    (∃ compiled, compile header conditions = .ok compiled) ↔
      ∀ c ∈ conditions.conditions, c.field ∈ header.names := by
  rw [← bindAll_eq_none_iff, compile]
  rcases bindAll header conditions.conditions with ⟨bound, _ | c⟩ <;> simp

/-! ## Testing -/

variable {r : NumberedRow} {passes : Bool} {e : RowError}

theorem testFrom_eq_ok_iff {bound : List BoundCondition} : ∀ {sofar : Bool},
    testFrom r sofar bound = .ok passes ↔
      (∀ b ∈ bound, ∃ holds, b.holds r = .ok holds) ∧
        (passes = true ↔ sofar = true ∧ ∀ b ∈ bound, b.holds r = .ok true) := by
  induction bound with
  | nil =>
    intro sofar
    cases sofar <;> cases passes <;> simp [testFrom]
  | cons b rest ih =>
    intro sofar
    rw [testFrom]
    cases hholds : b.holds r with
    | error e => simp [hholds]
    | ok holds => simp [ih, hholds, and_assoc]

theorem testFrom_eq_error_iff {bound : List BoundCondition} : ∀ {sofar : Bool},
    testFrom r sofar bound = .error e ↔
      ∃ front b back, bound = front ++ b :: back ∧
        (∀ b' ∈ front, ∃ holds, b'.holds r = .ok holds) ∧ b.holds r = .error e := by
  induction bound with
  | nil => simp [testFrom]
  | cons b rest ih =>
    intro sofar
    rw [testFrom]
    cases hholds : b.holds r with
    | error e' =>
      constructor
      · rintro ⟨⟩
        exact ⟨[], b, rest, rfl, by simp, hholds⟩
      · rintro ⟨_ | ⟨b', front⟩, b₁, back, heq, hfront, hfails⟩
        · obtain ⟨rfl, -⟩ := List.cons.inj heq
          exact hholds.symm.trans hfails
        · obtain ⟨rfl, -⟩ := List.cons.inj heq
          obtain ⟨holds, hok⟩ := hfront b List.mem_cons_self
          cases hholds.symm.trans hok
    | ok holds =>
      refine ih.trans ⟨?_, ?_⟩
      · rintro ⟨front, b₁, back, rfl, hfront, hfails⟩
        exact ⟨b :: front, b₁, back, rfl, List.forall_mem_cons.2 ⟨⟨holds, hholds⟩, hfront⟩, hfails⟩
      · rintro ⟨_ | ⟨b', front⟩, b₁, back, heq, hfront, hfails⟩
        · obtain ⟨rfl, -⟩ := List.cons.inj heq
          cases hholds.symm.trans hfails
        · obtain ⟨-, hrest⟩ := List.cons.inj heq
          exact ⟨front, b₁, back, hrest, (List.forall_mem_cons.1 hfront).2, hfails⟩

/-- **A row that can be tested passes if every condition holds.** -/
theorem test_eq_ok_iff : p.test r = .ok passes ↔
    (∀ b ∈ p.conditions, ∃ holds, b.holds r = .ok holds) ∧
      (passes = true ↔ ∀ b ∈ p.conditions, b.holds r = .ok true) := by
  simp [test, testFrom_eq_ok_iff]

/-- **A row cannot be tested if a condition finds no number in it**, and the first such condition
decides how. -/
theorem test_eq_error_iff : p.test r = .error e ↔
    ∃ front b back, p.conditions = front ++ b :: back ∧
      (∀ b' ∈ front, ∃ holds, b'.holds r = .ok holds) ∧ b.holds r = .error e :=
  testFrom_eq_error_iff

end CompiledPredicate

end LogSplit
