import LogSplit.Proofs.File.Plain

/-!
# What becomes of a name that is joined to a directory

Where a path leads to a directory, a name that is joined to it is resolved in that directory, and
this settles not only when an operation on the joined path succeeds but also with which error it
fails.  `HasDirectory.parentOf_join` has the directory and the name, and `Plain.landing_join` says
where bytes that are written to the path end up in a tree without links, or why they do not.

The two errors that are not about what stands at the name are about the path as it is written: it
may hold the byte zero, or be too long (`usable_join`).
-/

set_option autoImplicit false

namespace LogSplit

/-! ## Paths without names -/

theorem Path.eq_slash_of_splitOn {bs : Bytes} (h : ∀ piece ∈ bs.splitOn slash, piece = []) :
    ∀ b ∈ bs, b = slash := by
  induction bs with
  | nil => simp
  | cons b bs ih =>
    rw [List.splitOn_cons_eq_if_modifyHead] at h
    split at h
    · rename_i hb
      exact List.forall_mem_cons.2
        ⟨beq_iff_eq.1 hb, ih fun piece hpiece => h piece (List.mem_cons_of_mem _ hpiece)⟩
    · obtain ⟨first, pieces, hpieces⟩ := List.exists_cons_of_ne_nil (List.splitOn_ne_nil slash bs)
      rw [hpieces, List.modifyHead_cons] at h
      cases h _ List.mem_cons_self

/-- A path without names has no bytes but slashes. -/
theorem Path.eq_slash_of_names_eq_nil {p : Path} (h : p.names = []) :
    ∀ b ∈ p.bytes, b = slash := by
  refine eq_slash_of_splitOn fun piece hpiece => ?_
  rw [names, List.filter_eq_nil_iff] at h
  simpa using h piece hpiece

namespace FileTree

variable {t : FileTree} {cwd base here : Location} {dir : Path} {name : Bytes}
  {names rest : List Bytes} {links : Nat} {route : List Location}

/-! ## Behind a directory -/

/-- **Names behind names that lead to a directory** are resolved from there, whether they lead
anywhere or not. -/
theorem Leads.walk_append (h : Leads t links here names (.entry base .directory) route) :
    ∃ left, t.walk .found links here (names ++ rest) = t.walk .found left base rest := by
  generalize hplace : Place.entry base .directory = place at h
  induction h with
  | done links here =>
    cases hplace
    exact ⟨links, rfl⟩
  | dot _ ih =>
    obtain ⟨left, hleft⟩ := ih hplace
    exact ⟨left, by rw [List.cons_append, walk_dot, hleft]⟩
  | up _ ih =>
    obtain ⟨left, hleft⟩ := ih hplace
    exact ⟨left, by rw [List.cons_append, walk_up, hleft]⟩
  | vacant => cases hplace
  | file => cases hplace
  | directory hname hnode _ ih =>
    obtain ⟨left, hleft⟩ := ih hplace
    refine ⟨left, ?_⟩
    rw [List.cons_append, walk_name hname .found (by simp [hnode]), hnode]
    exact hleft
  | link hname hnode _ ih =>
    obtain ⟨left, hleft⟩ := ih hplace
    refine ⟨left, ?_⟩
    rw [List.cons_append, walk_link hname hnode, ← List.append_assoc, hleft]

/-- No walk goes on at a name that is too long. -/
theorem walk_of_long (hdot : name ≠ ".") (hup : name ≠ "..")
    (hlong : maxNameLength < name.length) (aim : Aim) :
    t.walk aim links here (name :: names) = .error .nameTooLong := by
  cases links <;> rw [walk, walkFrom, if_neg hdot, if_neg hup, if_pos hlong]

/-! ## A joined name -/

/-- The directory and the name of a joined path, or why it cannot be used. -/
theorem HasDirectory.parentOf_join (h : HasDirectory t cwd dir base) (hname : Path.IsPiece name)
    (hdot : name ≠ ".") (hup : name ≠ "..") :
    t.parentOf cwd (dir.join name)
      = (usable (dir.join name)).map fun _ => (base, .named name) := by
  obtain ⟨route, hlead⟩ := h
  have hwalk : t.walk .found maxLinks (origin cwd (dir.join name)) (parentSteps (dir.join name))
      = .ok (.entry base .directory) := by
    rw [parentSteps, Path.names_join hname, List.dropLast_concat, Path.origin_join hname]
    exact (hlead.append fun links => .dot (.done links base)).walk_found
  rw [parentOf]
  cases usable (dir.join name) with
  | error e => rfl
  | ok u =>
    simp only [bind, Except.bind, Except.map, hwalk, Path.names_join hname, List.getLast?_concat]
    exact if_neg (not_or.2 ⟨hdot, hup⟩)

/-- **Where bytes that are written to a joined path end up**, or why they cannot be written. -/
theorem Plain.landing_join (hplain : Plain t) (h : HasDirectory t cwd dir base)
    (hname : Path.IsPiece name) (hdot : name ≠ ".") (hup : name ≠ "..") :
    t.landing cwd (dir.join name) = (do
      usable (dir.join name)
      let loc ← childOf base name
      if t.lookup loc = some .directory then .error .isDirectory else .ok loc) := by
  have hslash : (dir.join name).endsInSlash = false := Path.endsInSlash_join hname dir
  have hsteps : steps (dir.join name) = dir.names ++ [name] := by
    rw [steps, if_neg (by simp [hslash]), Path.names_join hname]
  obtain ⟨left, hwalk⟩ : ∃ left, t.walk .filled maxLinks (origin cwd (dir.join name))
      (steps (dir.join name)) = t.walk .found left base [name] := by
    obtain ⟨route, hlead⟩ := h
    rw [hplain.walk_filled, hsteps, Path.origin_join hname]
    exact hlead.walk_append
  rw [landing, h.parentOf_join hname hdot hup, place]
  cases usable (dir.join name) with
  | error e => rfl
  | ok u =>
    simp only [bind, Except.bind, Except.map, hslash, hwalk, childOf]
    by_cases hlong : maxNameLength < name.length
    · rw [walk_of_long hdot hup hlong, if_pos hlong]
      rfl
    · have hentry : IsEntryName name := ⟨hdot, hup, Nat.le_of_not_lt hlong⟩
      rw [if_neg hlong, walk_name hentry .found fun target => hplain.no_link _ target]
      rcases hnode : t.lookup (name :: base) with _ | (content | _ | target)
      · simp [hnode]
      · simp [hnode]
      · simp [hnode, walk_nil]
      · exact absurd hnode (hplain.no_link _ target)

/-- A joined path can be used if it is short enough and the byte zero is in neither part. -/
theorem usable_join (hname : Path.IsPiece name) (hdir : 0 ∉ dir.bytes) (hnul : 0 ∉ name) :
    usable (dir.join name)
      = if maxPathLength ≤ (dir.join name).bytes.length then .error .nameTooLong
        else .ok () := by
  have hstub : 0 ∉ dir.stub := by
    rw [Path.stub]
    split
    · exact hdir
    · simpa [Path.slash] using hdir
  have hfree : (dir.join name).bytes.contains 0 = false := by
    rw [Path.join_eq hname]
    simpa using ⟨hstub, hnul⟩
  have hne : (dir.join name).bytes ≠ [] := by
    rw [Path.join_eq hname]
    exact List.append_ne_nil_of_right_ne_nil _ hname.ne_nil
  rw [usable, if_neg (by rw [hfree]; simp), if_neg hne]

end FileTree

end LogSplit
