import LogSplit.Proofs.File.Confined
import LogSplit.Proofs.File.WellFormed

/-!
# Directories and the names in them

`HasDirectory` says of a path that its names lead to a directory, through links or without.  It is
what stays true of an output directory while files in it come and go, and it settles where a name
that is joined to the path stands: `HasDirectory.ownLocation_join_iff` for any name,
`HasDirectory.entryAt_join_iff` for one at which there is no link.

A name can only be joined to a path and be meant if it is not empty, has no slash and is not one of
the two that lead to a directory as it is.  A tree is *well-named* if all of its entries have such
names.
-/

set_option autoImplicit false

namespace LogSplit

namespace FileTree

variable {t t' : FileTree} {cwd base base' loc : Location} {p dir : Path} {name : Bytes}

/-! ## Paths to a directory -/

/-- The names of a path lead to a directory.  The empty path has no name and means the working
directory. -/
def HasDirectory (t : FileTree) (cwd : Location) (p : Path) (base : Location) : Prop :=
  ∃ route, Leads t maxLinks (origin cwd p) p.names (.entry base .directory) route

theorem HasDirectory.unique (h : HasDirectory t cwd p base) (h' : HasDirectory t cwd p base') :
    base' = base := by
  obtain ⟨route, hlead⟩ := h
  obtain ⟨route', hlead'⟩ := h'
  cases (hlead.unique hlead').1
  rfl

theorem HasDirectory.of_keepsWays (h : HasDirectory t cwd p base) (hways : KeepsWays t t') :
    HasDirectory t' cwd p base := by
  obtain ⟨route, hlead⟩ := h
  exact ⟨route, hlead.of_keepsWays hways⟩

/-- A path that can be used leads to a directory if its names do. -/
theorem entryAt_directory_iff :
    t.entryAt cwd p = .ok (base, .directory) ↔ usable p = .ok () ∧ HasDirectory t cwd p base := by
  rw [entryAt_eq_ok_iff]
  refine and_congr_right fun _ => exists_congr fun route => ⟨Leads.of_steps, fun hlead => ?_⟩
  rw [steps]
  split
  · rw [← List.append_nil route]
    exact hlead.append fun links => .dot (.done links base)
  · exact hlead

theorem isDir_iff :
    t.isDir cwd p = true ↔ usable p = .ok () ∧ ∃ base, HasDirectory t cwd p base := by
  rw [← exists_and_left]
  simp only [← entryAt_directory_iff]
  rw [isDir]
  rcases t.entryAt cwd p with e | ⟨base, _ | _ | _⟩ <;> simp

/-- A directory that has been made is there, where nothing was before. -/
theorem entryAt_of_makeDir (h : t.makeDir cwd p = .ok t') :
    ∃ loc, loc ≠ [] ∧ t.lookup loc = none ∧ t' = t.insert loc .directory ∧
      t'.entryAt cwd p = .ok (loc, .directory) := by
  obtain ⟨loc, hown, hvacant, rfl⟩ := makeDir_eq_ok_iff.1 h
  obtain ⟨husable, front, name, dir, route, hnames, hname, hfront, rfl⟩ := ownLocation_eq_ok hown
  have hne : name :: dir ≠ [] := List.cons_ne_nil name dir
  have hways : KeepsWays t (t.insert (name :: dir) .directory) :=
    keepsWays_insert hne (Or.inl hvacant) _
  have hnode : (t.insert (name :: dir) .directory).lookup (name :: dir) = some .directory := by
    rw [lookup_insert t _ _ hne, if_pos rfl]
  refine ⟨name :: dir, hne, hvacant, rfl, entryAt_directory_iff.2 ⟨husable, route ++ [], ?_⟩⟩
  rw [hnames]
  exact (hfront.of_keepsWays hways).append fun links => .directory hname hnode (.done links _)

theorem isDir_of_makeDir (h : t.makeDir cwd p = .ok t') : t'.isDir cwd p = true := by
  obtain ⟨loc, -, -, -, hentry⟩ := entryAt_of_makeDir h
  rw [isDir, hentry]

/-- A directory that is there is not made again. -/
theorem makeDir_of_isDir (h : t.isDir cwd p = true) : t.makeDir cwd p = .error .alreadyExists := by
  obtain ⟨husable, base, route, hlead⟩ := isDir_iff.1 h
  rw [makeDir, parentOf, husable, parentSteps]
  rcases List.eq_nil_or_concat p.names with hnames | ⟨front, name, hnames⟩
  · have hwalk : t.walk .found maxLinks (origin cwd p) ["."]
        = .ok (.entry (origin cwd p) .directory) := (Leads.dot (.done _ _)).walk_found
    simp [bind, Except.bind, hnames, hwalk]
  rw [List.concat_eq_append] at hnames
  rw [hnames] at hlead
  obtain ⟨place, route', hfront⟩ := hlead.front
  rcases hfront.append_inv hlead with ⟨dir, links, route'', rfl, hlast, -⟩ | ⟨hnil, -, -⟩
  · have hwalk : t.walk .found maxLinks (origin cwd p) (front ++ [Utf8.encode "."])
        = .ok (.entry dir .directory) :=
      (hfront.append fun links => .dot (.done links dir)).walk_found
    simp only [bind, Except.bind, hnames, List.dropLast_concat, hwalk, List.getLast?_concat]
    by_cases hstanding : name = "." ∨ name = ".."
    · rw [if_pos hstanding]
    · obtain ⟨hdot, hup⟩ := not_or.1 hstanding
      have hname := hlast.isEntryName hdot hup
      have hinv := hlast.cons_inv hname
      simp only [if_neg hstanding, childOf, if_neg (Nat.not_lt.2 hname.length_le)]
      -- something stands at the last name, since it leads to a directory
      rcases hnode : t.lookup (name :: dir) with _ | node
      · rw [hnode] at hinv
        cases hinv.2.1
      · rfl
  · cases hnil

/-! ## Names in a directory -/

theorem HasDirectory.ownLocation_join_iff (h : HasDirectory t cwd dir base)
    (hname : Path.IsPiece name) :
    t.ownLocation cwd (dir.join name) = .ok loc ↔
      usable (dir.join name) = .ok () ∧ IsEntryName name ∧ loc = name :: base := by
  obtain ⟨route, hlead⟩ := h
  constructor
  · intro hown
    obtain ⟨husable, front, last, base', route', hnames, hentry, hfront, rfl⟩ :=
      ownLocation_eq_ok hown
    rw [Path.names_join hname] at hnames
    obtain ⟨rfl, hlast⟩ := List.append_inj' hnames rfl
    obtain ⟨rfl, -⟩ := List.cons.inj hlast
    rw [Path.origin_join hname] at hfront
    cases (hfront.unique hlead).1
    exact ⟨husable, hentry, rfl⟩
  · rintro ⟨husable, hentry, rfl⟩
    rw [← Path.origin_join hname] at hlead
    exact ownLocation_of_leads husable (Path.names_join hname dir) hentry hlead

/-- What stands in a directory is reached by its name, unless the name or the path is too long. -/
theorem HasDirectory.entryAt_join_iff (h : HasDirectory t cwd dir base)
    (hname : Path.IsPiece name) (hdot : name ≠ ".") (hup : name ≠ "..")
    (hlink : ∀ target, t.lookup (name :: base) ≠ some (.link target)) {node : Node} :
    t.entryAt cwd (dir.join name) = .ok (loc, node) ↔
      usable (dir.join name) = .ok () ∧ IsEntryName name ∧ loc = name :: base ∧
        t.lookup (name :: base) = some node := by
  obtain ⟨route, hlead⟩ := h
  have hsteps : steps (dir.join name) = dir.names ++ [name] := by
    rw [steps, if_neg (by rw [Path.endsInSlash_join hname]; simp), Path.names_join hname]
  rw [entryAt_eq_ok_iff, hsteps, Path.origin_join hname]
  refine and_congr_right fun _ => ?_
  constructor
  · rintro ⟨route', hlead'⟩
    rcases hlead.append_inv hlead' with ⟨dir', links, route'', hdir, hlast, -⟩ | ⟨hnil, -, -⟩
    · cases hdir
      have hentry := hlast.isEntryName hdot hup
      have hinv := hlast.cons_inv hentry
      rcases hnode : t.lookup (name :: base) with _ | (content | _ | target) <;>
        rw [hnode] at hinv
      · cases hinv.2.1
      · cases hinv.2.1
        exact ⟨hentry, rfl, rfl⟩
      · cases hinv.done_inv.1
        exact ⟨hentry, rfl, rfl⟩
      · exact absurd hnode (hlink target)
    · cases hnil
  · rintro ⟨hentry, rfl, hnode⟩
    rcases node with content | _ | target
    · exact ⟨_, hlead.append fun links => .file hentry hnode⟩
    · exact ⟨_, hlead.append fun links => .directory hentry hnode (.done links _)⟩
    · exact absurd hnode (hlink target)

/-! ## Listings -/

theorem nodup_eraseDups (names : List Bytes) : names.eraseDups.Nodup := by
  induction h : names.length using Nat.strongRecOn generalizing names with
  | _ n ih =>
    cases names with
    | nil => simp
    | cons name rest =>
      have hlt : (rest.filter fun other => !other == name).length < n := by
        rw [← h, List.length_cons]
        exact Nat.lt_succ_of_le (List.length_filter_le _ _)
      rw [List.eraseDups_cons, List.nodup_cons]
      exact ⟨by simp [List.mem_eraseDups], ih _ hlt _ rfl⟩

theorem mem_entries_of_lookup {node : Node} (h : t.lookup (name :: base) = some node) :
    (name :: base, node) ∈ t.entries := by
  rw [lookup, if_neg (List.cons_ne_nil name base), Option.map_eq_some_iff] at h
  obtain ⟨e, he, rfl⟩ := h
  have hloc : e.1 = name :: base := by simpa using List.find?_some he
  rw [← hloc]
  exact List.mem_of_find?_eq_some he

/-- The names in a directory are those at which something stands. -/
theorem mem_childNames_iff :
    name ∈ t.childNames base ↔ ∃ node, t.lookup (name :: base) = some node := by
  have hlookup : (∃ node, t.lookup (name :: base) = some node) ↔
      ∃ e ∈ t.entries, e.1 = name :: base := by
    constructor
    · rintro ⟨node, hnode⟩
      exact ⟨_, mem_entries_of_lookup hnode, rfl⟩
    · rintro ⟨e, he, hloc⟩
      have hsome : (t.entries.find? fun e => e.1 = name :: base).isSome = true :=
        List.find?_isSome.2 ⟨e, he, decide_eq_true hloc⟩
      obtain ⟨first, hfirst⟩ := Option.isSome_iff_exists.1 hsome
      refine ⟨first.2, ?_⟩
      rw [lookup, if_neg (List.cons_ne_nil name base), hfirst]
      rfl
  rw [hlookup, childNames, List.mem_eraseDups, List.mem_filterMap]
  refine exists_congr fun e => and_congr_right fun _ => ?_
  rcases e with ⟨_ | ⟨other, up⟩, node⟩
  · simp
  · by_cases hup : up = base <;> simp [hup]

/-- What a listing of a directory holds: every name once, and whether a regular file stands at
it. -/
theorem list_eq_ok {entries : List (Bytes × Bool)} (h : t.list cwd dir = .ok entries) :
    ∃ base, HasDirectory t cwd dir base ∧ (entries.map Prod.fst).Nodup ∧
      ∀ name, (name, true) ∈ entries ↔
        ∃ content, t.lookup (name :: base) = some (.file content) := by
  rw [list] at h
  obtain ⟨⟨base, node⟩, hentry, h⟩ := exists_of_bind_eq_ok h
  cases node with
  | file => cases h
  | link => cases h
  | directory =>
    cases h
    refine ⟨base, (entryAt_directory_iff.1 hentry).2, ?_, fun name => ?_⟩
    · rw [List.map_map]
      exact (List.map_id _).symm ▸ nodup_eraseDups _
    · rw [List.mem_map]
      constructor
      · rintro ⟨other, -, heq⟩
        obtain ⟨rfl, hfile⟩ := Prod.mk.inj heq
        rcases hnode : t.lookup (other :: base) with _ | (content | _ | _) <;> rw [hnode] at hfile
        · cases hfile
        · exact ⟨content, rfl⟩
        · cases hfile
        · cases hfile
      · rintro ⟨content, hfile⟩
        exact ⟨name, mem_childNames_iff.2 ⟨_, hfile⟩, by rw [hfile]; rfl⟩

/-- A listing can be had of every directory. -/
theorem exists_list_iff : (∃ entries, t.list cwd dir = .ok entries) ↔ t.isDir cwd dir = true := by
  rw [list, isDir]
  rcases t.entryAt cwd dir with e | ⟨base, _ | _ | _⟩ <;> simp [bind, Except.bind]

/-! ## Well-named trees -/

/-- Every entry has a name that means it in its directory. -/
structure WellNamed (t : FileTree) : Prop where
  /-- The name is not empty and has no slash. -/
  wellFormed : WellFormed t
  /-- It is not the name of the directory itself. -/
  lookup_dot : ∀ dir, t.lookup ("." :: dir) = none
  /-- It is not the name of the directory above. -/
  lookup_up : ∀ dir, t.lookup (".." :: dir) = none

theorem WellNamed.ne_dot (h : WellNamed t) {node : Node}
    (hnode : t.lookup (name :: base) = some node) : name ≠ "." := by
  rintro rfl
  rw [h.lookup_dot] at hnode
  cases hnode

theorem WellNamed.ne_up (h : WellNamed t) {node : Node}
    (hnode : t.lookup (name :: base) = some node) : name ≠ ".." := by
  rintro rfl
  rw [h.lookup_up] at hnode
  cases hnode

theorem WellNamed.erase (h : WellNamed t) (hne : loc ≠ []) : WellNamed (t.erase loc) where
  wellFormed := h.wellFormed.erase hne
  lookup_dot dir := by rw [lookup_erase t _ hne, h.lookup_dot dir, ite_self]
  lookup_up dir := by rw [lookup_erase t _ hne, h.lookup_up dir, ite_self]

theorem WellNamed.insert (h : WellNamed t) (hname : Path.IsPiece name) (hdot : name ≠ ".")
    (hup : name ≠ "..") (dir : Location) (node : Node) :
    WellNamed (t.insert (name :: dir) node) where
  wellFormed := h.wellFormed.insert hname dir node
  lookup_dot other := by
    rw [lookup_insert t _ _ (List.cons_ne_nil name dir), if_neg, h.lookup_dot]
    exact fun heq => hdot (List.cons.inj heq).1.symm
  lookup_up other := by
    rw [lookup_insert t _ _ (List.cons_ne_nil name dir), if_neg, h.lookup_up]
    exact fun heq => hup (List.cons.inj heq).1.symm

/-- Something may be put at the own location of a path. -/
theorem WellNamed.insert_ownLocation (h : WellNamed t) (hown : t'.ownLocation cwd p = .ok loc)
    (node : Node) : WellNamed (t.insert loc node) := by
  obtain ⟨-, front, name, dir, -, hnames, hname, -, rfl⟩ := ownLocation_eq_ok hown
  have hpiece : Path.IsPiece name := Path.isPiece_of_mem_names (by rw [hnames]; simp)
  exact h.insert hpiece hname.ne_dot hname.ne_up dir node

theorem WellNamed.makeDir (h : WellNamed t) (hmake : t.makeDir cwd p = .ok t') : WellNamed t' := by
  obtain ⟨loc, hown, -, rfl⟩ := makeDir_eq_ok_iff.1 hmake
  exact h.insert_ownLocation hown _

end FileTree

end LogSplit
