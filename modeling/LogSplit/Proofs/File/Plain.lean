import LogSplit.Proofs.File.Directory

/-!
# Trees without links

A *plain* tree has directories and regular files only, under names that mean them.  In such a tree a
path can be resolved by its spelling: each name leads to the entry of that name, or upwards, or
nowhere.  So the location of a directory can be read off the path (`HasDirectory.eq_directoryOf`),
and the two locations of a path, its own and the one where bytes that are written to it end up, are
the same (`Plain.landing_eq_ok_iff`).
-/

set_option autoImplicit false

namespace LogSplit

namespace FileTree

variable {t t' : FileTree} {cwd base loc : Location} {p dir : Path} {name : Bytes}

/-! ## Spelling -/

/-- Where a name leads from a directory by its spelling. -/
def enter (here : Location) (name : Bytes) : Location :=
  if name = "." then here else if name = ".." then here.tail else name :: here

/-- Where names lead by their spelling. -/
def spelled (here : Location) (names : List Bytes) : Location := names.foldl enter here

/-- The locations that are entered by their names on the way. -/
def passed (here : Location) : List Bytes → List Location
  | [] => []
  | name :: names =>
    if name = "." ∨ name = ".." then passed (enter here name) names
    else (name :: here) :: passed (name :: here) names

/-- The location that the path of a directory has by its spelling. -/
def directoryOf (cwd : Location) (dir : Path) : Location := spelled (origin cwd dir) dir.names

/-- The locations of the directories that the path of a directory passes. -/
def directoriesOn (cwd : Location) (dir : Path) : List Location :=
  passed (origin cwd dir) dir.names

theorem enter_of_isEntryName (h : IsEntryName name) (here : Location) :
    enter here name = name :: here := by
  rw [enter, if_neg h.ne_dot, if_neg h.ne_up]

theorem passed_append (here : Location) (front back : List Bytes) :
    passed here (front ++ back) = passed here front ++ passed (spelled here front) back := by
  induction front generalizing here with
  | nil => rfl
  | cons name front ih =>
    rw [List.cons_append, passed, passed]
    split
    · rw [ih]
      rfl
    · rename_i hname
      have henter : enter here name = name :: here := by
        rw [enter, if_neg fun h => hname (Or.inl h), if_neg fun h => hname (Or.inr h)]
      rw [ih, List.cons_append, spelled, spelled, List.foldl_cons, henter]

/-! ## Plain trees -/

/-- There are directories and regular files only, under names that mean them.  As in every tree,
each file has one location, so hard links are left out along with the symbolic ones. -/
structure Plain (t : FileTree) : Prop where
  /-- Every name means its entry. -/
  wellNamed : WellNamed t
  /-- There is no link. -/
  no_link : ∀ loc target, t.lookup loc ≠ some (.link target)

/-- An entry with a name that means it, and no link. -/
def isPlainEntry : Location × Node → Bool
  | ([], _) => true
  | (_, .link _) => false
  | (name :: _, _) => name ≠ [] ∧ Path.slash ∉ name ∧ name ≠ "." ∧ name ≠ ".."

/-- **Whether a tree is plain can be computed.** -/
theorem plain_of_entries (h : t.entries.all isPlainEntry = true) : Plain t := by
  have hentry : ∀ name dir node, t.lookup (name :: dir) = some node →
      isPlainEntry (name :: dir, node) = true :=
    fun name dir node hnode => List.all_eq_true.1 h _ (mem_entries_of_lookup hnode)
  have hname : ∀ name dir node, t.lookup (name :: dir) = some node →
      name ≠ [] ∧ Path.slash ∉ name ∧ name ≠ "." ∧ name ≠ ".." := by
    intro name dir node hnode
    have hplain := hentry name dir node hnode
    cases node <;> simp_all [isPlainEntry]
  refine ⟨⟨fun name dir node hnode => ?_, fun dir => ?_, fun dir => ?_⟩, fun loc target hlink => ?_⟩
  · obtain ⟨hne, hslash, -⟩ := hname name dir node hnode
    exact ⟨hne, hslash⟩
  · exact Option.eq_none_iff_forall_ne_some.2 fun node hnode => (hname _ _ _ hnode).2.2.1 rfl
  · exact Option.eq_none_iff_forall_ne_some.2 fun node hnode => (hname _ _ _ hnode).2.2.2 rfl
  · cases loc with
    | nil => cases hlink
    | cons name dir => cases hentry name dir _ hlink

/-- A tree is plain if all of its entries are those of a plain one. -/
theorem Plain.of_lookup (h : Plain t)
    (hsub : ∀ l node, t'.lookup l = some node → t.lookup l = some node) : Plain t' where
  wellNamed :=
    { wellFormed := fun _ _ _ hnode => h.wellNamed.wellFormed _ _ _ (hsub _ _ hnode)
      lookup_dot := fun _ => Option.eq_none_iff_forall_ne_some.2 fun _ hnode =>
        h.wellNamed.ne_dot (hsub _ _ hnode) rfl
      lookup_up := fun _ => Option.eq_none_iff_forall_ne_some.2 fun _ hnode =>
        h.wellNamed.ne_up (hsub _ _ hnode) rfl }
  no_link l target hlink := h.no_link l target (hsub l _ hlink)

theorem Plain.erase (h : Plain t) (hne : loc ≠ []) : Plain (t.erase loc) := by
  refine h.of_lookup fun l node hnode => ?_
  rw [lookup_erase t l hne] at hnode
  split at hnode
  · cases hnode
  · exact hnode

/-- A file or a directory may be put at the own location of a path. -/
theorem Plain.insert (h : Plain t) (hown : t'.ownLocation cwd p = .ok loc) {node : Node}
    (hnode : ∀ target, node ≠ .link target) : Plain (t.insert loc node) where
  wellNamed := h.wellNamed.insert_ownLocation hown node
  no_link other target := by
    rw [lookup_insert t _ _ (ownLocation_ne_nil hown)]
    split
    · simpa using hnode target
    · exact h.no_link other target

theorem Plain.makeDir (h : Plain t) (hmake : t.makeDir cwd p = .ok t') : Plain t' := by
  obtain ⟨loc, hown, -, rfl⟩ := makeDir_eq_ok_iff.1 hmake
  exact h.insert hown (by simp)

/-- Where no directory stands there is nothing that leads further. -/
theorem Plain.hasNoWay (h : Plain t) (hdir : t.lookup loc ≠ some .directory) : HasNoWay t loc := by
  rcases hnode : t.lookup loc with _ | (content | _ | target)
  · exact Or.inl hnode
  · exact Or.inr ⟨content, hnode⟩
  · exact absurd hnode hdir
  · exact absurd hnode (h.no_link loc target)

/-! ## Directories by their spelling -/

/-- Names that lead to a directory lead there by their spelling, and what is passed on the way are
directories. -/
theorem Plain.leads_directory (h : Plain t) {links : Nat} {here : Location} {names : List Bytes}
    {route : List Location} (hlead : Leads t links here names (.entry base .directory) route) :
    base = spelled here names ∧ ∀ l ∈ passed here names, t.lookup l = some .directory := by
  generalize hplace : Place.entry base .directory = place at hlead
  induction hlead with
  | done =>
    cases hplace
    exact ⟨rfl, by simp [passed]⟩
  | dot _ ih => exact ih hplace
  | up _ ih => exact ih hplace
  | vacant => cases hplace
  | file => cases hplace
  | @directory _ here name _ _ _ hname hnode _ ih =>
    obtain ⟨hbase, hpassed⟩ := ih hplace
    rw [passed, if_neg (not_or.2 ⟨hname.ne_dot, hname.ne_up⟩)]
    refine ⟨?_, List.forall_mem_cons.2 ⟨hnode, hpassed⟩⟩
    rw [hbase, spelled, spelled, List.foldl_cons, enter_of_isEntryName hname]
  | link _ hnode => exact absurd hnode (h.no_link _ _)

/-- **The location of a directory is read off the path.** -/
theorem HasDirectory.eq_directoryOf (hdir : HasDirectory t cwd dir base) (h : Plain t) :
    base = directoryOf cwd dir := by
  obtain ⟨route, hlead⟩ := hdir
  exact (h.leads_directory hlead).1

theorem HasDirectory.lookup_of_mem_directoriesOn (hdir : HasDirectory t cwd dir base) (h : Plain t)
    {l : Location} (hl : l ∈ directoriesOn cwd dir) : t.lookup l = some .directory := by
  obtain ⟨route, hlead⟩ := hdir
  exact (h.leads_directory hlead).2 l hl

/-- A directory that is made is the last that is passed. -/
theorem Plain.mem_directoriesOn_of_ownLocation (h : Plain t)
    (hown : t.ownLocation cwd p = .ok loc) : loc ∈ directoriesOn cwd p := by
  obtain ⟨-, front, name, dir, route, hnames, hname, hfront, rfl⟩ := ownLocation_eq_ok hown
  rw [directoriesOn, hnames, passed_append, ← (h.leads_directory hfront).1, passed,
    if_neg (not_or.2 ⟨hname.ne_dot, hname.ne_up⟩)]
  simp

/-- A directory that is made on the way to a path is among those that are passed. -/
theorem Plain.mem_directoriesOn_of_above (h : Plain t) (habove : Path.Above p dir)
    (hown : t.ownLocation cwd p = .ok loc) : loc ∈ directoriesOn cwd dir := by
  obtain ⟨back, hnames⟩ := habove.names
  have hpassed : directoriesOn cwd dir = directoriesOn cwd p
      ++ passed (spelled (origin cwd p) p.names) back := by
    rw [directoriesOn, directoriesOn, origin, ← habove.isAbsolute, ← origin, ← hnames,
      passed_append]
  rw [hpassed]
  exact List.mem_append_left _ (h.mem_directoriesOn_of_ownLocation hown)

/-! ## Files by their spelling -/

/-- For whatever a path is resolved, it is resolved in the same way. -/
theorem Plain.walk_filled (h : Plain t) (links : Nat) (here : Location) (names : List Bytes) :
    t.walk .filled links here names = t.walk .found links here names := by
  have hfrom : ∀ (f g : Location → List Bytes → Except FileError Place) (here : Location),
      t.walkFrom .filled f here names = t.walkFrom .found g here names := by
    intro f g
    induction names with
    | nil => exact fun _ => rfl
    | cons name names ih =>
      intro here
      rw [walkFrom, walkFrom, ih, ih]
      rcases hnode : t.lookup (name :: here) with _ | (content | _ | target)
      · rfl
      · rfl
      · simp only [ih]
      · exact absurd hnode (h.no_link _ _)
  cases links <;> exact hfrom _ _ here

/-- **What is written goes to the own location of a path**, unless a directory stands there. -/
theorem Plain.landing_eq_ok_iff (h : Plain t) : t.landing cwd p = .ok loc ↔
    p.endsInSlash = false ∧ t.ownLocation cwd p = .ok loc ∧ t.lookup loc ≠ some .directory := by
  constructor
  · intro hlanding
    obtain ⟨hslash, own, place, route, hown, hroute, hreceives⟩ := landing_eq_ok hlanding
    have hsame := landing_of_ownLocation hlanding hown
    rcases hnode : t.lookup own with _ | (content | _ | target) <;> rw [hnode] at hsame
    · subst hsame
      exact ⟨hslash, hown, by simp [hnode]⟩
    · subst hsame
      exact ⟨hslash, hown, by simp [hnode]⟩
    · exact hsame.elim
    · exact absurd hnode (h.no_link _ _)
  · rintro ⟨hslash, hown, hdir⟩
    obtain ⟨husable, front, name, dir, route, hnames, hname, hfront, rfl⟩ := ownLocation_eq_ok hown
    obtain ⟨⟨dir', last⟩, hparent, hlast⟩ := exists_of_bind_eq_ok hown
    cases last with
    | standing => cases hlast
    | named name' =>
      have hsteps : steps p = front ++ [name] := by rw [steps, if_neg (by simp [hslash]), hnames]
      have hplace : ∀ {place : Place} {route' : List Location},
          (∀ links, Leads t links dir [name] place route') →
          t.place cwd .filled p = .ok place := by
        intro place route' hlead
        rw [FileTree.place, husable, hsteps, h.walk_filled]
        exact (hfront.append hlead).walk_found
      rw [landing, hparent]
      simp only [bind, Except.bind, hslash]
      rcases hnode : t.lookup (name :: dir) with _ | (content | _ | target)
      · rw [hplace fun links => .vacant hname hnode]
        rfl
      · rw [hplace fun links => .file hname hnode]
        rfl
      · exact absurd hnode hdir
      · exact absurd hnode (h.no_link _ _)

/-- Names that lead to a file lead to its directory, all but the last. -/
theorem Plain.leads_file (h : Plain t) {links : Nat} {here : Location} {names : List Bytes}
    {route : List Location} {content : Bytes}
    (hlead : Leads t links here names (.entry loc (.file content)) route) :
    ∃ front name dir, names = front ++ [name] ∧ IsEntryName name ∧ loc = name :: dir ∧
      Leads t links here front (.entry dir .directory) [] := by
  generalize hplace : Place.entry loc (.file content) = place at hlead
  induction hlead with
  | done => cases hplace
  | dot _ ih =>
    obtain ⟨front, name, dir, rfl, hname, hloc, hfront⟩ := ih hplace
    exact ⟨"." :: front, name, dir, rfl, hname, hloc, .dot hfront⟩
  | up _ ih =>
    obtain ⟨front, name, dir, rfl, hname, hloc, hfront⟩ := ih hplace
    exact ⟨".." :: front, name, dir, rfl, hname, hloc, .up hfront⟩
  | vacant => cases hplace
  | @file _ here name _ hname hnode =>
    cases hplace
    exact ⟨[], name, here, rfl, hname, rfl, .done _ _⟩
  | @directory _ _ first _ _ _ hfirst hnode _ ih =>
    obtain ⟨front, name, dir, rfl, hname, hloc, hfront⟩ := ih hplace
    exact ⟨first :: front, name, dir, rfl, hname, hloc, .directory hfirst hnode hfront⟩
  | link _ hnode => exact absurd hnode (h.no_link _ _)

/-- **A file that a path leads to is at the own location of the path.** -/
theorem Plain.ownLocation_of_entryAt (h : Plain t) (hslash : p.endsInSlash = false)
    {content : Bytes} (hentry : t.entryAt cwd p = .ok (loc, .file content)) :
    t.ownLocation cwd p = .ok loc ∧ t.lookup loc = some (.file content) := by
  obtain ⟨husable, route, hlead⟩ := entryAt_eq_ok_iff.1 hentry
  refine ⟨?_, hlead.lookup_file⟩
  rw [steps, if_neg (by simp [hslash])] at hlead
  obtain ⟨front, name, dir, hnames, hname, rfl, hfront⟩ := h.leads_file hlead
  exact ownLocation_of_leads husable hnames hname hfront

/-- **A path leads to the entry to which it led** as long as this entry and the directories stay. -/
theorem Plain.entryAt_congr (h : Plain t) {node : Node}
    (hdirs : ∀ l, t.lookup l = some .directory → t'.lookup l = some .directory)
    (hloc : t'.lookup loc = t.lookup loc) (hentry : t.entryAt cwd p = .ok (loc, node)) :
    t'.entryAt cwd p = .ok (loc, node) := by
  obtain ⟨husable, route, hlead⟩ := entryAt_eq_ok_iff.1 hentry
  refine entryAt_eq_ok_iff.2 ⟨husable, route, hlead.congr hdirs fun l hl => ?_⟩
  -- the route has no link, so it is the file at its end
  obtain ⟨other, hother, hnodir⟩ := hlead.lookup_of_mem l hl
  cases node with
  | directory =>
    obtain ⟨target, hlink⟩ := hlead.lookup_of_mem_of_directory l hl
    exact absurd hlink (h.no_link l target)
  | file =>
    cases other with
    | directory => exact absurd rfl hnodir
    | file => rw [(hlead.mem_iff_of_file hother).1 hl, hloc]
    | link target => exact absurd hother (h.no_link l target)
  | link => exact absurd hlead Leads.ne_link

end FileTree

end LogSplit
