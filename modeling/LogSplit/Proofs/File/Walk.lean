import LogSplit.File.Tree

/-!
# Where paths lead

`FileTree.Leads` is the resolution of names as a relation, one rule for each way in which a name
can be resolved, and without the failures of `FileTree.walk`.  Besides the place that is reached
it tells the *route*: the locations of the links that were followed and of the file at the end.
Directories are not counted, since nothing here ever removes one.

* `walk_found_eq_ok_iff` ties the relation to `walk`.
* `Leads.stands` says what stands in the tree at the place that is reached.
* `Leads.append_inv` says how names that begin in the same way are resolved, with whatever number
  of links left; that a route is unique is the special case `Leads.unique`.
* `Leads.congr` says what has to stay for a path to lead where it led: the directories of the
  tree and what is on the route.
-/

set_option autoImplicit false

namespace LogSplit

namespace FileTree

/-- A name that stands for an entry of the directory it is looked up in. -/
structure IsEntryName (name : Bytes) : Prop where
  /-- It is not the directory itself. -/
  ne_dot : name ≠ "."
  /-- It is not the directory above. -/
  ne_up : name ≠ ".."
  /-- It is short enough. -/
  length_le : name.length ≤ maxNameLength

/-- From `here` some names lead to a place through at most `links` links, by a route that consists
of these links and the file at its end. -/
inductive Leads (t : FileTree) :
    (links : Nat) → (here : Location) → (names : List Bytes) → Place → (route : List Location) →
      Prop where
  /-- No name is left. -/
  | done (links : Nat) (here : Location) : Leads t links here [] (.entry here .directory) []
  /-- The directory itself. -/
  | dot {links : Nat} {here : Location} {names : List Bytes} {place : Place}
    {route : List Location} (h : Leads t links here names place route) :
    Leads t links here ("." :: names) place route
  /-- The directory above. -/
  | up {links : Nat} {here : Location} {names : List Bytes} {place : Place}
    {route : List Location} (h : Leads t links here.tail names place route) :
    Leads t links here (".." :: names) place route
  /-- A last name that is not taken. -/
  | vacant {links : Nat} {here : Location} {name : Bytes} (hname : IsEntryName name)
    (hnode : t.lookup (name :: here) = none) : Leads t links here [name] (.vacant here name) []
  /-- A file, which has to be the last name. -/
  | file {links : Nat} {here : Location} {name : Bytes} {content : Bytes}
    (hname : IsEntryName name) (hnode : t.lookup (name :: here) = some (.file content)) :
    Leads t links here [name] (.entry (name :: here) (.file content)) [name :: here]
  /-- A directory. -/
  | directory {links : Nat} {here : Location} {name : Bytes} {names : List Bytes}
    {place : Place} {route : List Location} (hname : IsEntryName name)
    (hnode : t.lookup (name :: here) = some .directory)
    (h : Leads t links (name :: here) names place route) :
    Leads t links here (name :: names) place route
  /-- A link. -/
  | link {links : Nat} {here : Location} {name : Bytes} {names : List Bytes} {target : Bytes}
    {place : Place} {route : List Location} (hname : IsEntryName name)
    (hnode : t.lookup (name :: here) = some (.link target))
    (h : Leads t links (origin here ⟨target⟩) (steps ⟨target⟩ ++ names) place route) :
    Leads t (links + 1) here (name :: names) place ((name :: here) :: route)

variable {t t' : FileTree} {links links' : Nat} {here : Location} {names : List Bytes}
  {place place' : Place} {route route' : List Location}

/-! ## Walks -/

/-- Up to the first link a walk is one along directories; `follow` is what comes behind a link, with
one link less. -/
theorem exists_leads_of_walkFrom {aim : Aim}
    {follow : Location → List Bytes → Except FileError Place}
    (hfollow : ∀ {here names place}, follow here names = .ok place →
      ∃ links' route, links = links' + 1 ∧ Leads t links' here names place route)
    (h : t.walkFrom aim follow here names = .ok place) :
    ∃ route, Leads t links here names place route := by
  fun_induction walkFrom t aim follow here names with
  | case1 here =>
    cases h
    exact ⟨_, .done _ _⟩
  | case2 here rest ih =>
    obtain ⟨route, hroute⟩ := ih h
    exact ⟨route, .dot hroute⟩
  | case3 here rest _ ih =>
    obtain ⟨route, hroute⟩ := ih h
    exact ⟨route, .up hroute⟩
  | case4 => cases h
  | case5 here name rest hdot hup hlen hnode hrest =>
    cases h
    rw [List.isEmpty_iff.1 hrest]
    exact ⟨_, .vacant ⟨hdot, hup, Nat.le_of_not_lt hlen⟩ hnode⟩
  | case6 => cases h
  | case7 here name rest hdot hup hlen hnode ih =>
    obtain ⟨route, hroute⟩ := ih h
    exact ⟨route, .directory ⟨hdot, hup, Nat.le_of_not_lt hlen⟩ hnode hroute⟩
  | case8 here name rest hdot hup hlen content hnode hrest =>
    cases h
    rw [List.isEmpty_iff.1 hrest]
    exact ⟨_, .file ⟨hdot, hup, Nat.le_of_not_lt hlen⟩ hnode⟩
  | case9 => cases h
  | case10 here name rest hdot hup hlen target hnode path here' hslash =>
    -- whatever the link leads to, the walk ends here
    cases hparent : follow here' (parentSteps path) <;> rw [hparent] at h <;> cases h
  | case11 here name rest hdot hup hlen target hnode path here' hslash =>
    obtain ⟨links', route, rfl, hroute⟩ := hfollow h
    exact ⟨_, .link ⟨hdot, hup, Nat.le_of_not_lt hlen⟩ hnode hroute⟩

theorem exists_leads_of_walk {aim : Aim} (h : t.walk aim links here names = .ok place) :
    ∃ route, Leads t links here names place route := by
  induction links generalizing here names place with
  | zero => exact exists_leads_of_walkFrom (fun hnone => by cases hnone) h
  | succ links ih =>
    refine exists_leads_of_walkFrom (fun hlink => ?_) h
    obtain ⟨route, hroute⟩ := ih hlink
    exact ⟨links, route, rfl, hroute⟩

theorem walk_nil (aim : Aim) (links : Nat) (here : Location) :
    t.walk aim links here [] = .ok (.entry here .directory) := by
  cases links <;> rfl

theorem walk_dot (aim : Aim) (links : Nat) (here : Location) (names : List Bytes) :
    t.walk aim links here ("." :: names) = t.walk aim links here names := by
  cases links <;> simp only [walk, walkFrom, if_true]

theorem walk_up (aim : Aim) (links : Nat) (here : Location) (names : List Bytes) :
    t.walk aim links here (".." :: names) = t.walk aim links here.tail names := by
  have hne : Utf8.encode ".." ≠ Utf8.encode "." := by decide
  cases links <;> simp only [walk, walkFrom, if_true, if_neg hne]

/-- What stands at a name decides how the walk goes on, as long as it is no link. -/
theorem walk_name {name : Bytes} (hname : IsEntryName name) (aim : Aim)
    (hlink : ∀ target, t.lookup (name :: here) ≠ some (.link target)) :
    t.walk aim links here (name :: names) = match t.lookup (name :: here) with
      | none => if names.isEmpty then .ok (.vacant here name) else .error .notFound
      | some .directory => t.walk aim links (name :: here) names
      | some node => if names.isEmpty then .ok (.entry (name :: here) node) else .error .notDirectory
      := by
  cases links <;>
    rw [walk, walkFrom, if_neg hname.ne_dot, if_neg hname.ne_up, if_neg (Nat.not_lt.2 hname.length_le)]
  all_goals
    rcases hnode : t.lookup (name :: here) with _ | (content | _ | target)
    · rfl
    · rfl
    · rfl
    · exact absurd hnode (hlink target)

theorem walk_link {name target : Bytes} (hname : IsEntryName name)
    (hnode : t.lookup (name :: here) = some (.link target)) :
    t.walk .found (links + 1) here (name :: names)
      = t.walk .found links (origin here ⟨target⟩) (steps ⟨target⟩ ++ names) := by
  rw [walk, walkFrom, if_neg hname.ne_dot, if_neg hname.ne_up,
    if_neg (Nat.not_lt.2 hname.length_le), hnode]
  simp [origin]

theorem Leads.walk_found (h : Leads t links here names place route) :
    t.walk .found links here names = .ok place := by
  induction h with
  | done => rw [walk_nil]
  | dot _ ih => rw [walk_dot, ih]
  | up _ ih => rw [walk_up, ih]
  | vacant hname hnode =>
    rw [walk_name hname .found (by simp [hnode]), hnode]
    rfl
  | file hname hnode =>
    rw [walk_name hname .found (by simp [hnode]), hnode]
    rfl
  | directory hname hnode _ ih =>
    rw [walk_name hname .found (by simp [hnode]), hnode]
    exact ih
  | link hname hnode _ ih => rw [walk_link hname hnode, ih]

theorem walk_found_eq_ok_iff :
    t.walk .found links here names = .ok place ↔ ∃ route, Leads t links here names place route :=
  ⟨exists_leads_of_walk, fun ⟨_, h⟩ => h.walk_found⟩

/-! ## Routes -/

/-- What stands on a route is a link or a file. -/
theorem Leads.lookup_of_mem (h : Leads t links here names place route) :
    ∀ loc ∈ route, ∃ node, t.lookup loc = some node ∧ node ≠ .directory := by
  induction h with
  | done => exact fun loc hloc => absurd hloc List.not_mem_nil
  | dot _ ih => exact ih
  | up _ ih => exact ih
  | vacant => exact fun loc hloc => absurd hloc List.not_mem_nil
  | file _ hnode =>
    intro loc hloc
    rw [List.mem_singleton.1 hloc]
    exact ⟨_, hnode, by simp⟩
  | directory _ _ _ ih => exact ih
  | link _ hnode _ ih =>
    intro loc hloc
    rcases List.mem_cons.1 hloc with rfl | hloc
    · exact ⟨_, hnode, by simp⟩
    · exact ih loc hloc

/-- The file that is reached is on the route, and it is the only file there. -/
theorem Leads.mem_iff_of_file {loc : Location} {content : Bytes}
    (h : Leads t links here names (.entry loc (.file content)) route) {other : Location}
    {content' : Bytes} (hother : t.lookup other = some (.file content')) :
    other ∈ route ↔ other = loc := by
  generalize hplace : Place.entry loc (.file content) = place at h
  induction h with
  | done => cases hplace
  | dot _ ih => exact ih hplace
  | up _ ih => exact ih hplace
  | vacant => cases hplace
  | file _ _ =>
    cases hplace
    exact List.mem_singleton
  | directory _ _ _ ih => exact ih hplace
  | link _ hnode _ ih =>
    rw [List.mem_cons, ih hplace]
    refine or_iff_right ?_
    rintro rfl
    rw [hnode] at hother
    cases hother

/-- What a place that is reached says about the tree.  No walk ends at a link. -/
def Place.Stands (t : FileTree) : Place → Prop
  | .entry loc (.file content) => t.lookup loc = some (.file content)
  | .entry _ .directory => True
  | .entry _ (.link _) => False
  | .vacant dir name => t.lookup (name :: dir) = none

theorem Leads.stands (h : Leads t links here names place route) : place.Stands t := by
  induction h with
  | done => trivial
  | dot _ ih => exact ih
  | up _ ih => exact ih
  | vacant _ hnode => exact hnode
  | file _ hnode => exact hnode
  | directory _ _ _ ih => exact ih
  | link _ _ _ ih => exact ih

theorem Leads.lookup_file {loc : Location} {content : Bytes}
    (h : Leads t links here names (.entry loc (.file content)) route) :
    t.lookup loc = some (.file content) :=
  h.stands

theorem Leads.lookup_vacant {dir : Location} {name : Bytes}
    (h : Leads t links here names (.vacant dir name) route) : t.lookup (name :: dir) = none :=
  h.stands

theorem Leads.ne_link {loc : Location} {target : Bytes} :
    ¬ Leads t links here names (.entry loc (.link target)) route :=
  fun h => h.stands

/-! ## One name at a time -/

theorem Leads.dot_inv (h : Leads t links here ("." :: names) place route) :
    Leads t links here names place route := by
  generalize hnames : Utf8.encode "." :: names = all at h
  cases h with
  | done => cases hnames
  | dot h =>
    obtain ⟨-, rfl⟩ := List.cons.inj hnames
    exact h
  | up => exact absurd (List.cons.inj hnames).1 (by decide)
  | vacant hname => exact absurd (List.cons.inj hnames).1.symm hname.ne_dot
  | file hname => exact absurd (List.cons.inj hnames).1.symm hname.ne_dot
  | directory hname => exact absurd (List.cons.inj hnames).1.symm hname.ne_dot
  | link hname => exact absurd (List.cons.inj hnames).1.symm hname.ne_dot

theorem Leads.up_inv (h : Leads t links here (".." :: names) place route) :
    Leads t links here.tail names place route := by
  generalize hnames : Utf8.encode ".." :: names = all at h
  cases h with
  | done => cases hnames
  | dot => exact absurd (List.cons.inj hnames).1 (by decide)
  | up h =>
    obtain ⟨-, rfl⟩ := List.cons.inj hnames
    exact h
  | vacant hname => exact absurd (List.cons.inj hnames).1.symm hname.ne_up
  | file hname => exact absurd (List.cons.inj hnames).1.symm hname.ne_up
  | directory hname => exact absurd (List.cons.inj hnames).1.symm hname.ne_up
  | link hname => exact absurd (List.cons.inj hnames).1.symm hname.ne_up

/-- What stands at the first name decides how the others are resolved. -/
theorem Leads.cons_inv {name : Bytes} (hname : IsEntryName name)
    (h : Leads t links here (name :: names) place route) :
    match t.lookup (name :: here) with
    | none => names = [] ∧ place = .vacant here name ∧ route = []
    | some (.file content) =>
      names = [] ∧ place = .entry (name :: here) (.file content) ∧ route = [name :: here]
    | some .directory => Leads t links (name :: here) names place route
    | some (.link target) => ∃ links' route', links = links' + 1 ∧
        route = (name :: here) :: route' ∧
        Leads t links' (origin here ⟨target⟩) (steps ⟨target⟩ ++ names) place route' := by
  generalize hnames : name :: names = all at h
  cases h with
  | done => cases hnames
  | dot => exact absurd (List.cons.inj hnames).1 hname.ne_dot
  | up => exact absurd (List.cons.inj hnames).1 hname.ne_up
  | vacant _ hnode =>
    obtain ⟨rfl, rfl⟩ := List.cons.inj hnames
    rw [hnode]
    exact ⟨rfl, rfl, rfl⟩
  | file _ hnode =>
    obtain ⟨rfl, rfl⟩ := List.cons.inj hnames
    rw [hnode]
    exact ⟨rfl, rfl, rfl⟩
  | directory _ hnode h =>
    obtain ⟨rfl, rfl⟩ := List.cons.inj hnames
    rw [hnode]
    exact h
  | link _ hnode h =>
    obtain ⟨rfl, rfl⟩ := List.cons.inj hnames
    rw [hnode]
    exact ⟨_, _, rfl, rfl, h⟩

/-! ## The same names with more behind them -/

/-- **Names with something behind them** are resolved as they are without it: they lead to a
directory in which the rest is resolved, or there is no rest. -/
theorem Leads.append_inv (h : Leads t links here names place route) :
    ∀ {links' : Nat} {rest : List Bytes} {place' : Place} {route' : List Location},
      Leads t links' here (names ++ rest) place' route' →
      (∃ dir links'' route'', place = .entry dir .directory ∧
          Leads t links'' dir rest place' route'' ∧ route' = route ++ route'') ∨
        (rest = [] ∧ place' = place ∧ route' = route) := by
  induction h with
  | done links here =>
    intro links' rest place' route' h'
    exact Or.inl ⟨here, links', route', rfl, h', rfl⟩
  | dot _ ih =>
    intro links' rest place' route' h'
    exact ih h'.dot_inv
  | up _ ih =>
    intro links' rest place' route' h'
    exact ih h'.up_inv
  | vacant hname hnode =>
    intro links' rest place' route' h'
    have hinv := h'.cons_inv hname
    rw [hnode] at hinv
    exact Or.inr hinv
  | file hname hnode =>
    intro links' rest place' route' h'
    have hinv := h'.cons_inv hname
    rw [hnode] at hinv
    exact Or.inr hinv
  | directory hname hnode _ ih =>
    intro links' rest place' route' h'
    have hinv := h'.cons_inv hname
    rw [hnode] at hinv
    exact ih hinv
  | link hname hnode _ ih =>
    intro links' rest place' route' h'
    have hinv := h'.cons_inv hname
    rw [hnode] at hinv
    obtain ⟨links', route', rfl, rfl, hlink⟩ := hinv
    rw [List.append_eq, ← List.append_assoc] at hlink
    rcases ih hlink with ⟨dir, links'', route'', hplace, h'', rfl⟩ | ⟨hrest, hplace, rfl⟩
    · exact Or.inl ⟨dir, links'', route'', hplace, h'', rfl⟩
    · exact Or.inr ⟨hrest, hplace, rfl⟩

theorem Leads.done_inv (h : Leads t links here [] place route) :
    place = .entry here .directory ∧ route = [] := by
  generalize hnames : ([] : List Bytes) = all at h
  cases h with
  | done => exact ⟨rfl, rfl⟩
  | _ => cases hnames

/-- **Names lead to one place by one route**, however many links may be followed. -/
theorem Leads.unique (h : Leads t links here names place route)
    (h' : Leads t links' here names place' route') : place' = place ∧ route' = route := by
  rw [← List.append_nil names] at h'
  rcases h.append_inv h' with ⟨dir, links'', route'', rfl, h'', rfl⟩ | ⟨-, rfl, rfl⟩
  · obtain ⟨rfl, rfl⟩ := h''.done_inv
    exact ⟨rfl, List.append_nil _⟩
  · exact ⟨rfl, rfl⟩

/-- If names lead somewhere, so do those at the front of them. -/
theorem Leads.front {front back : List Bytes}
    (h : Leads t links here (front ++ back) place route) :
    ∃ place' route', Leads t links here front place' route' := by
  generalize hnames : front ++ back = all at h
  induction h generalizing front with
  | done =>
    rw [(List.append_eq_nil_iff.1 hnames).1]
    exact ⟨_, _, .done _ _⟩
  | dot h ih =>
    cases front with
    | nil => exact ⟨_, _, .done _ _⟩
    | cons x front =>
      obtain ⟨rfl, htail⟩ := List.cons.inj hnames
      obtain ⟨place', route', h'⟩ := ih htail
      exact ⟨place', route', .dot h'⟩
  | up h ih =>
    cases front with
    | nil => exact ⟨_, _, .done _ _⟩
    | cons x front =>
      obtain ⟨rfl, htail⟩ := List.cons.inj hnames
      obtain ⟨place', route', h'⟩ := ih htail
      exact ⟨place', route', .up h'⟩
  | vacant hname hnode =>
    cases front with
    | nil => exact ⟨_, _, .done _ _⟩
    | cons x front =>
      obtain ⟨rfl, htail⟩ := List.cons.inj hnames
      rw [(List.append_eq_nil_iff.1 htail).1]
      exact ⟨_, _, .vacant hname hnode⟩
  | file hname hnode =>
    cases front with
    | nil => exact ⟨_, _, .done _ _⟩
    | cons x front =>
      obtain ⟨rfl, htail⟩ := List.cons.inj hnames
      rw [(List.append_eq_nil_iff.1 htail).1]
      exact ⟨_, _, .file hname hnode⟩
  | directory hname hnode h ih =>
    cases front with
    | nil => exact ⟨_, _, .done _ _⟩
    | cons x front =>
      obtain ⟨rfl, htail⟩ := List.cons.inj hnames
      obtain ⟨place', route', h'⟩ := ih htail
      exact ⟨place', route', .directory hname hnode h'⟩
  | @link _ _ _ names target _ _ hname hnode h ih =>
    cases front with
    | nil => exact ⟨_, _, .done _ _⟩
    | cons x front =>
      obtain ⟨rfl, htail⟩ := List.cons.inj hnames
      have hlink : steps ⟨target⟩ ++ front ++ back = steps ⟨target⟩ ++ names := by
        rw [List.append_assoc]
        exact congrArg (steps ⟨target⟩ ++ ·) htail
      obtain ⟨place', route', h'⟩ := ih hlink
      exact ⟨place', _, .link hname hnode h'⟩

/-- **Names behind names that lead to a directory** are resolved in that directory. -/
theorem Leads.append {dir : Location} {rest : List Bytes}
    (h : Leads t links here names (.entry dir .directory) route)
    (hrest : ∀ links, Leads t links dir rest place' route') :
    Leads t links here (names ++ rest) place' (route ++ route') := by
  generalize hplace : Place.entry dir .directory = place at h
  induction h with
  | done =>
    cases hplace
    exact hrest _
  | dot _ ih => exact .dot (ih hplace)
  | up _ ih => exact .up (ih hplace)
  | vacant => cases hplace
  | file => cases hplace
  | directory hname hnode _ ih => exact .directory hname hnode (ih hplace)
  | link hname hnode _ ih =>
    have htail := ih hplace
    rw [List.append_assoc] at htail
    exact .link hname hnode htail

/-- The route to a directory consists of links. -/
theorem Leads.lookup_of_mem_of_directory {dir : Location}
    (h : Leads t links here names (.entry dir .directory) route) :
    ∀ loc ∈ route, ∃ target, t.lookup loc = some (.link target) := by
  generalize hplace : Place.entry dir .directory = place at h
  induction h with
  | done => exact fun loc hloc => absurd hloc List.not_mem_nil
  | dot _ ih => exact ih hplace
  | up _ ih => exact ih hplace
  | vacant => cases hplace
  | file => cases hplace
  | directory _ _ _ ih => exact ih hplace
  | link _ hnode _ ih =>
    intro loc hloc
    rcases List.mem_cons.1 hloc with rfl | hloc
    · exact ⟨_, hnode⟩
    · exact ih hplace loc hloc

/-! ## What a route rests on -/

/-- **A path leads where it led** as long as the directories of the tree stay and nothing on its
route changes. -/
theorem Leads.congr {loc : Location} {node : Node}
    (h : Leads t links here names (.entry loc node) route)
    (hdir : ∀ l, t.lookup l = some .directory → t'.lookup l = some .directory)
    (hroute : ∀ l ∈ route, t'.lookup l = t.lookup l) :
    Leads t' links here names (.entry loc node) route := by
  generalize hplace : Place.entry loc node = place at h
  induction h with
  | done =>
    cases hplace
    exact .done _ _
  | dot _ ih => exact .dot (ih hroute hplace)
  | up _ ih => exact .up (ih hroute hplace)
  | vacant => cases hplace
  | file hname hnode =>
    cases hplace
    exact .file hname ((hroute _ List.mem_cons_self).trans hnode)
  | directory hname hnode _ ih => exact .directory hname (hdir _ hnode) (ih hroute hplace)
  | link hname hnode _ ih =>
    exact .link hname ((hroute _ List.mem_cons_self).trans hnode)
      (ih (fun l hl => hroute l (List.mem_cons_of_mem _ hl)) hplace)

end FileTree

end LogSplit
