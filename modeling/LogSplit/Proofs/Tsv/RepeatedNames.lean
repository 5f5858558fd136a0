import Mathlib.Data.List.Nodup
import LogSplit.Output.Replace
import LogSplit.Proofs.Predicate.Interpretation

/-!
# Columns with the same name

A field is looked up by its name, and the first column that has it is the one that is found.  Any
later column of that name is shadowed: nothing can be said about its cells.  That is allowed, but
it is not passed over in silence.

`Header.duplicatesFrom` walks over the names with two sets, the names it has seen and those it has
listed.  After any number of names the first set holds those passed, and the second those passed
twice (`Header.Walked`), so a name is listed in the column where it stands for the second time, and
in no other.  `Header.duplicates_announce` is what this comes to for a whole header: the list names
the shadowed columns, each name once, and it is empty just where every column is found under its
own name.
-/

set_option autoImplicit false

namespace LogSplit

namespace Header

variable {h : Header} {name : String} {column : Nat} {front seen listed rest : List String}

/-- The column in which a name stands for the second time. -/
structure SecondColumn (h : Header) (name : String) (column : Nat) : Prop where
  /-- The column has the name. -/
  name_eq : h.names[column]? = some name
  /-- So does one column in front of it, and only one. -/
  count_before : (h.names.take column).count name = 1

/-- A column that is not found under its name, as another one is. -/
structure Shadowed (h : Header) (name : String) (column : Nat) : Prop where
  /-- The column has the name. -/
  name_eq : h.names[column]? = some name
  /-- Looking the name up does not lead to it. -/
  not_found : h.indexOf? name ≠ some column

/-! ## The second column of a name -/

/-- The name of a column, if it stands there for the second time. -/
def secondAt? (h : Header) (column : Nat) : Option String :=
  h.names[column]?.filter fun name => decide ((h.names.take column).count name = 1)

theorem secondAt?_eq_some_iff : h.secondAt? column = some name ↔ h.SecondColumn name column := by
  rw [secondAt?, Option.filter_eq_some_iff, decide_eq_true_iff]
  exact ⟨fun ⟨hname, hcount⟩ => ⟨hname, hcount⟩, fun hsecond => ⟨hsecond.1, hsecond.2⟩⟩

theorem secondAt?_append_cons (front rest : List String) (name : String) :
    (Header.mk (front ++ name :: rest)).secondAt? front.length =
      if front.count name = 1 then some name else none := by
  simp [secondAt?, Option.filter]

theorem count_take_succ (h : Header) (name : String) (column : Nat) :
    (h.names.take (column + 1)).count name =
      (h.names.take column).count name + if h.names[column]? = some name then 1 else 0 := by
  rw [List.take_add_one, List.count_append]
  cases h.names[column]? <;> simp [List.count_singleton]

namespace SecondColumn

theorem count_eq_two (hsecond : h.SecondColumn name column) :
    (h.names.take (column + 1)).count name = 2 := by
  rw [count_take_succ, hsecond.count_before, if_pos hsecond.name_eq]

theorem le {column' : Nat} (hsecond : h.SecondColumn name column)
    (hsecond' : h.SecondColumn name column') : column' ≤ column := by
  by_contra hlt
  have hle := (List.take_sublist_take_left (l := h.names) (Nat.not_le.1 hlt)).count_le name
  rw [Nat.succ_eq_add_one, hsecond.count_eq_two, hsecond'.count_before] at hle
  omega

theorem unique {column' : Nat} (hsecond : h.SecondColumn name column)
    (hsecond' : h.SecondColumn name column') : column = column' :=
  Nat.le_antisymm (hsecond'.le hsecond) (hsecond.le hsecond')

theorem exists_of_count_take {k : Nat} (hcount : 2 ≤ (h.names.take k).count name) :
    ∃ column, h.SecondColumn name column := by
  induction k with
  | zero => simp at hcount
  | succ k ih =>
    by_cases hbefore : 2 ≤ (h.names.take k).count name
    · exact ih hbefore
    · rw [count_take_succ] at hcount
      split at hcount
      · rename_i hname
        exact ⟨k, hname, by omega⟩
      · exact absurd hcount hbefore

end SecondColumn

theorem exists_secondColumn_iff :
    (∃ column, h.SecondColumn name column) ↔ 2 ≤ h.names.count name := by
  constructor
  · rintro ⟨column, hsecond⟩
    rw [← hsecond.count_eq_two]
    exact (List.take_sublist _ _).count_le name
  · intro hcount
    rw [← List.take_length (l := h.names)] at hcount
    exact SecondColumn.exists_of_count_take hcount

/-! ## The walk over the names -/

/-- The sets that the walk has when some of the names are behind it. -/
structure Walked (front seen listed : List String) : Prop where
  /-- It has seen the names that are behind it. -/
  mem_seen : ∀ name, name ∈ seen ↔ name ∈ front
  /-- It has listed those that are behind it twice or more. -/
  mem_listed : ∀ name, name ∈ listed ↔ 2 ≤ front.count name

namespace Walked

theorem start : Walked [] [] [] := ⟨by simp, by simp⟩

theorem count_eq_zero (w : Walked front seen listed) (hseen : name ∉ seen) :
    front.count name = 0 :=
  List.count_eq_zero.2 fun hfront => hseen ((w.mem_seen name).2 hfront)

theorem count_eq_one (w : Walked front seen listed) (hseen : name ∈ seen)
    (hlisted : name ∉ listed) : front.count name = 1 := by
  have hpos := List.count_pos_iff.2 ((w.mem_seen name).1 hseen)
  have hlt := mt (w.mem_listed name).2 hlisted
  omega

theorem mem_seen_append (w : Walked front seen listed) (hseen : name ∈ seen) (other : String) :
    other ∈ seen ↔ other ∈ front ++ [name] := by
  have hfront := (w.mem_seen name).1 hseen
  rw [w.mem_seen, List.mem_append, List.mem_singleton]
  exact ⟨Or.inl, fun hmem => hmem.elim id fun heq => heq ▸ hfront⟩

/-- A name that is new is behind the walk once from here on. -/
theorem first (w : Walked front seen listed) (hseen : name ∉ seen) :
    Walked (front ++ [name]) (name :: seen) listed := by
  have hcount := w.count_eq_zero hseen
  refine ⟨fun other => by simp [w.mem_seen, or_comm], fun other => ?_⟩
  rcases eq_or_ne other name with rfl | hne
  · simp [w.mem_listed, hcount]
  · simp [w.mem_listed, hne.symm]

/-- A name that has been seen but not listed is behind the walk twice from here on. -/
theorem second (w : Walked front seen listed) (hseen : name ∈ seen) (hlisted : name ∉ listed) :
    Walked (front ++ [name]) seen (name :: listed) := by
  have hcount := w.count_eq_one hseen hlisted
  refine ⟨w.mem_seen_append hseen, fun other => ?_⟩
  rcases eq_or_ne other name with rfl | hne
  · simp [hcount]
  · simp [w.mem_listed, hne, hne.symm]

/-- A name that has been listed stays in both sets. -/
theorem later (w : Walked front seen listed) (hseen : name ∈ seen) (hlisted : name ∈ listed) :
    Walked (front ++ [name]) seen listed := by
  have hfront := (w.mem_seen name).1 hseen
  refine ⟨w.mem_seen_append hseen, fun other => ?_⟩
  rcases eq_or_ne other name with rfl | hne
  · simp [hlisted, hfront]
  · simp [w.mem_listed, hne.symm]

end Walked

/-- From any point of the walk on, what is listed are the names of the columns ahead in which a
name stands for the second time. -/
theorem duplicatesFrom_eq (w : Walked front seen listed) :
    duplicatesFrom seen listed rest =
      (List.range' front.length rest.length).filterMap (Header.mk (front ++ rest)).secondAt? := by
  induction rest generalizing front seen listed with
  | nil => rfl
  | cons name rest ih =>
    have hlength : (front ++ [name]).length = front.length + 1 := List.length_append
    rw [duplicatesFrom, List.length_cons, List.range'_succ, List.filterMap_cons,
      secondAt?_append_cons, List.append_cons]
    split
    · rename_i hseen
      split
      · rename_i hlisted
        have hcount := (w.mem_listed name).1 hlisted
        rw [ih (w.later hseen hlisted), hlength, if_neg (by omega)]
      · rename_i hlisted
        rw [ih (w.second hseen hlisted), hlength, if_pos (w.count_eq_one hseen hlisted)]
    · rename_i hseen
      rw [ih (w.first hseen), hlength, if_neg (by simp [w.count_eq_zero hseen])]

theorem duplicates_eq_filterMap (h : Header) :
    h.duplicates = (List.range h.length).filterMap h.secondAt? := by
  rw [duplicates, duplicatesFrom_eq .start, List.range_eq_range']
  rfl

/-! ## Names and columns -/

theorem mem_duplicates_iff : name ∈ h.duplicates ↔ ∃ column, h.SecondColumn name column := by
  rw [duplicates_eq_filterMap, List.mem_filterMap]
  constructor
  · rintro ⟨column, -, hcolumn⟩
    exact ⟨column, secondAt?_eq_some_iff.1 hcolumn⟩
  · rintro ⟨column, hcolumn⟩
    have hlt := (List.getElem?_eq_some_iff.1 hcolumn.name_eq).1
    exact ⟨column, List.mem_range.2 hlt, secondAt?_eq_some_iff.2 hcolumn⟩

theorem nodup_duplicates (h : Header) : h.duplicates.Nodup := by
  rw [duplicates_eq_filterMap]
  refine List.nodup_range.filterMap fun i j name hi hj => ?_
  exact (secondAt?_eq_some_iff.1 hi).unique (secondAt?_eq_some_iff.1 hj)

/-- The list is in the order of the columns in which the names stand for the second time. -/
theorem pairwise_duplicates (h : Header) : h.duplicates.Pairwise fun name other =>
    ∀ i j, h.SecondColumn name i → h.SecondColumn other j → i < j := by
  rw [duplicates_eq_filterMap, List.pairwise_filterMap]
  refine List.pairwise_lt_range.imp fun {i j} hlt name hi other hj i' j' hi' hj' => ?_
  rwa [hi'.unique (secondAt?_eq_some_iff.1 hi), hj'.unique (secondAt?_eq_some_iff.1 hj)]

/-! ## Shadowed columns -/

theorem count_take_pos_iff : 0 < (h.names.take column).count name ↔
    ∃ i < column, h.names[i]? = some name := by
  simp [List.count_pos_iff, List.mem_iff_getElem?, List.getElem?_take]

theorem shadowed_iff : h.Shadowed name column ↔
    h.names[column]? = some name ∧ 0 < (h.names.take column).count name := by
  rw [count_take_pos_iff]
  constructor
  · rintro ⟨hname, hnot⟩
    refine ⟨hname, by_contra fun hnone => hnot (indexOf?_eq_some_iff.2 ⟨hname, fun i hi heq => ?_⟩)⟩
    exact hnone ⟨i, hi, heq⟩
  · rintro ⟨hname, i, hi, heq⟩
    exact ⟨hname, fun hfound => (indexOf?_eq_some_iff.1 hfound).not_before i hi heq⟩

/-- The names of shadowed columns are those that stand for the second time somewhere. -/
theorem exists_shadowed_iff :
    (∃ column, h.Shadowed name column) ↔ ∃ column, h.SecondColumn name column := by
  constructor
  · rintro ⟨column, hshadowed⟩
    obtain ⟨hname, hbefore⟩ := shadowed_iff.1 hshadowed
    have hcount : 2 ≤ (h.names.take (column + 1)).count name := by
      rw [count_take_succ, if_pos hname]
      exact Nat.succ_le_succ hbefore
    exact SecondColumn.exists_of_count_take hcount
  · rintro ⟨column, hsecond⟩
    exact ⟨column, shadowed_iff.2 ⟨hsecond.name_eq, by simp [hsecond.count_before]⟩⟩

theorem duplicates_eq_nil_iff : h.duplicates = [] ↔
    ∀ (i : Nat) (hi : i < h.names.length), h.indexOf? h.names[i] = some i := by
  rw [List.eq_nil_iff_forall_not_mem]
  constructor
  · intro hnone i hi
    by_contra hnot
    exact hnone _ (mem_duplicates_iff.2 (exists_shadowed_iff.1
      ⟨i, List.getElem?_eq_getElem hi, hnot⟩))
  · intro hall name hname
    obtain ⟨column, hcolumn, hnot⟩ := exists_shadowed_iff.2 (mem_duplicates_iff.1 hname)
    obtain ⟨hlt, rfl⟩ := List.getElem?_eq_some_iff.1 hcolumn
    exact hnot (hall column hlt)

theorem mem_events_iff {reading : Tsv.Reading} (hheader : reading.header? = some h) :
    Event.duplicateName name ∈ reading.events ↔ name ∈ h.duplicates := by
  rw [Tsv.Reading.events, hheader]
  cases reading.table <;> simp

/-- **The names listed are those that more than one column has**, each once, in the order in which
they stand for the second time.  None are listed just where every column is found under its own
name; and whoever reads a table with this header announces exactly the names under which a column
is shadowed. -/
theorem duplicates_announce (h : Header) :
    (∀ name, name ∈ h.duplicates ↔ 2 ≤ h.names.count name) ∧ h.duplicates.Nodup ∧
    (∀ name ∈ h.duplicates, ∃! column, h.SecondColumn name column) ∧
    (h.duplicates.Pairwise fun name other =>
      ∀ i j, h.SecondColumn name i → h.SecondColumn other j → i < j) ∧
    (h.duplicates = [] ↔
      ∀ (i : Nat) (hi : i < h.names.length), h.indexOf? h.names[i] = some i) ∧
    ∀ reading : Tsv.Reading, reading.header? = some h → ∀ name,
      Event.duplicateName name ∈ reading.events ↔ ∃ column, h.Shadowed name column := by
  refine ⟨fun name => mem_duplicates_iff.trans exists_secondColumn_iff, nodup_duplicates h, ?_,
    pairwise_duplicates h, duplicates_eq_nil_iff, ?_⟩
  · intro name hname
    obtain ⟨column, hsecond⟩ := mem_duplicates_iff.1 hname
    exact ⟨column, hsecond, fun other hother => hother.unique hsecond⟩
  · intro reading hheader name
    rw [mem_events_iff hheader, mem_duplicates_iff, exists_shadowed_iff]

/-- Half of the columns are shadowed, and there are two names to announce. -/
theorem duplicates_announce_two :
    let h : Header := ⟨["a", "b", "a", "c", "a", "b"]⟩
    let reading : Tsv.Reading := ⟨[⟨1, ⟨h.names⟩⟩, ⟨2, ⟨["1"]⟩⟩], none⟩
    h.duplicates.Nodup ∧ (∃! column, h.SecondColumn "b" column) ∧
      reading.header? = some h ∧ Event.duplicateName "a" ∈ reading.events := by
  intro h reading
  have hheader : reading.header? = some h := rfl
  obtain ⟨hmem, hnodup, hsecond, -, -, hannounce⟩ := duplicates_announce h
  refine ⟨hnodup, hsecond "b" ((hmem "b").2 (by decide)), hheader, ?_⟩
  exact (hannounce reading hheader "a").2 ⟨2, rfl, by decide⟩

end Header

end LogSplit
