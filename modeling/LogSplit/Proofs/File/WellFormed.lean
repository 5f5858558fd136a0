import LogSplit.Proofs.File.Operations
import LogSplit.Proofs.File.PathNames

/-!
# Names in a tree

A tree as a value could hold an entry whose name has a slash in it or is empty.  No path leads to
such an entry, so no operation makes one: a tree that is *well-formed* stays so, and the trees
that grow out of the empty one all are.
-/

set_option autoImplicit false

namespace LogSplit

namespace FileTree

/-- Every entry has a name that can be part of a path. -/
def WellFormed (t : FileTree) : Prop :=
  ∀ name dir node, t.lookup (name :: dir) = some node → Path.IsPiece name

variable {t t' : FileTree} {cwd loc : Location} {p : Path}

theorem wellFormed_empty : WellFormed empty := by
  intro name dir node h
  cases h

theorem WellFormed.erase (h : WellFormed t) (hne : loc ≠ []) : WellFormed (t.erase loc) := by
  intro name dir node hnode
  rw [lookup_erase t _ hne] at hnode
  split at hnode
  · cases hnode
  · exact h name dir node hnode

theorem WellFormed.insert (h : WellFormed t) {name : Bytes} (hname : Path.IsPiece name)
    (dir : Location) (node : Node) : WellFormed (t.insert (name :: dir) node) := by
  intro name' dir' node' hnode
  rw [lookup_insert t node _ (List.cons_ne_nil name dir)] at hnode
  split at hnode
  · rename_i heq
    rwa [(List.cons.inj heq).1]
  · exact h name' dir' node' hnode

/-! ## Names that operations use -/

theorem isPiece_of_ownLocation (h : t.ownLocation cwd p = .ok loc) :
    ∃ name dir, loc = name :: dir ∧ Path.IsPiece name := by
  obtain ⟨-, front, name, dir, -, hnames, -, -, rfl⟩ := ownLocation_eq_ok h
  exact ⟨name, dir, rfl, Path.isPiece_of_mem_names (by rw [hnames]; simp)⟩

theorem isPiece_of_mem_steps {p : Path} {name : Bytes} (h : name ∈ steps p) :
    Path.IsPiece name := by
  rw [steps] at h
  split at h
  · rcases List.mem_append.1 h with h | h
    · exact Path.isPiece_of_mem_names h
    · rw [List.mem_singleton.1 h]
      exact ⟨by decide, by decide⟩
  · exact Path.isPiece_of_mem_names h

/-- A name that is not taken comes from the path or from a link. -/
theorem Leads.isPiece_of_vacant {links : Nat} {here dir : Location} {names : List Bytes}
    {name : Bytes} {route : List Location} (h : Leads t links here names (.vacant dir name) route)
    (hnames : ∀ n ∈ names, Path.IsPiece n) : Path.IsPiece name := by
  generalize hplace : Place.vacant dir name = place at h
  induction h with
  | done => cases hplace
  | dot _ ih => exact ih (fun n hn => hnames n (List.mem_cons_of_mem _ hn)) hplace
  | up _ ih => exact ih (fun n hn => hnames n (List.mem_cons_of_mem _ hn)) hplace
  | vacant =>
    cases hplace
    exact hnames _ List.mem_cons_self
  | file => cases hplace
  | directory _ _ _ ih => exact ih (fun n hn => hnames n (List.mem_cons_of_mem _ hn)) hplace
  | link _ _ _ ih =>
    refine ih (fun n hn => ?_) hplace
    rcases List.mem_append.1 hn with hn | hn
    · exact isPiece_of_mem_steps hn
    · exact hnames n (List.mem_cons_of_mem _ hn)

theorem WellFormed.isPiece_of_landing (h : WellFormed t) (hloc : t.landing cwd p = .ok loc) :
    ∃ name dir, loc = name :: dir ∧ Path.IsPiece name := by
  have hne := landing_ne_nil hloc
  obtain ⟨-, -, place, route, -, hroute, ⟨content, rfl⟩ | ⟨dir, name, rfl, rfl⟩⟩ :=
    landing_eq_ok hloc
  · obtain ⟨name, dir, rfl⟩ := List.exists_cons_of_ne_nil hne
    exact ⟨name, dir, rfl, h name dir _ hroute.lookup_file⟩
  · exact ⟨name, dir, rfl, hroute.isPiece_of_vacant fun n hn => Path.isPiece_of_mem_names hn⟩

/-! ## Operations -/

theorem WellFormed.write (h : WellFormed t) {content : Bytes}
    (hwrite : t.write cwd p content = .ok t') : WellFormed t' := by
  rw [write_eq] at hwrite
  cases hlanding : t.landing cwd p with
  | error e =>
    rw [hlanding] at hwrite
    cases hwrite
  | ok loc =>
    rw [hlanding] at hwrite
    cases hwrite
    obtain ⟨name, dir, rfl, hname⟩ := h.isPiece_of_landing hlanding
    exact h.insert hname dir _

theorem WellFormed.move (h : WellFormed t) {source target : Path}
    (hmove : t.move cwd source target = .ok t') : WellFormed t' := by
  obtain ⟨-, -, old, new, node, hsource, htarget, -, -, -, rfl⟩ := move_eq_ok_iff.1 hmove
  obtain ⟨name, dir, rfl, hname⟩ := isPiece_of_ownLocation htarget
  exact (h.erase (ownLocation_ne_nil hsource)).insert hname dir node

theorem WellFormed.remove (h : WellFormed t) (hremove : t.remove cwd p = .ok t') :
    WellFormed t' := by
  obtain ⟨-, loc, node, hown, -, -, rfl⟩ := remove_eq_ok_iff.1 hremove
  exact h.erase (ownLocation_ne_nil hown)

theorem WellFormed.makeDir (h : WellFormed t) (hmake : t.makeDir cwd p = .ok t') :
    WellFormed t' := by
  obtain ⟨loc, hown, -, rfl⟩ := makeDir_eq_ok_iff.1 hmake
  obtain ⟨name, dir, rfl, hname⟩ := isPiece_of_ownLocation hown
  exact h.insert hname dir _

end FileTree

end LogSplit
