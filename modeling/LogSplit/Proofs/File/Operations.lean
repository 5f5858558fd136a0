import LogSplit.Proofs.File.Walk

/-!
# What the operations of a file tree do

A path names two locations.  Its *own* location is where its last name stands, whatever that is a
link to; this is what is removed and moved.  Its *landing* is where bytes that are written to it
end up; there every link is followed.  The lemmas here say of each operation when it succeeds and
which locations it changes, and of each of the two locations what it means in terms of
`FileTree.Leads`.
-/

set_option autoImplicit false

namespace LogSplit

/-- A computation that succeeds consists of two that do. -/
theorem exists_of_bind_eq_ok {ε α β : Type} {x : Except ε α} {f : α → Except ε β} {b : β}
    (h : x >>= f = .ok b) : ∃ a, x = .ok a ∧ f a = .ok b := by
  cases x with
  | error e => cases h
  | ok a => exact ⟨a, rfl, h⟩

namespace FileTree

/-! ## The two locations of a path -/

/-- Where the last name of a path stands. -/
def ownLocation (t : FileTree) (cwd : Location) (p : Path) : Except FileError Location := do
  match ← t.parentOf cwd p with
  | (_, .standing) => .error .isDirectory
  | (dir, .named name) => childOf dir name

/-- Where bytes that are written to a path end up. -/
def landing (t : FileTree) (cwd : Location) (p : Path) : Except FileError Location := do
  match ← t.parentOf cwd p with
  | (_, .standing) => .error .isDirectory
  | (_, .named _) =>
    if p.endsInSlash then .error .isDirectory
    else match ← t.place cwd .filled p with
      | .entry _ .directory => .error .isDirectory
      | .entry loc _ => .ok loc
      | .vacant dir name => .ok (name :: dir)

variable {t t' : FileTree} {cwd : Location} {p : Path}

theorem Leads.isEntryName {links : Nat} {here : Location} {name : Bytes} {names : List Bytes}
    {place : Place} {route : List Location} (h : Leads t links here (name :: names) place route)
    (hdot : name ≠ ".") (hup : name ≠ "..") : IsEntryName name := by
  generalize hnames : name :: names = all at h
  cases h with
  | done => cases hnames
  | dot => exact absurd (List.cons.inj hnames).1 hdot
  | up => exact absurd (List.cons.inj hnames).1 hup
  | vacant hname => rwa [(List.cons.inj hnames).1]
  | file hname => rwa [(List.cons.inj hnames).1]
  | directory hname => rwa [(List.cons.inj hnames).1]
  | link hname => rwa [(List.cons.inj hnames).1]

/-- Names with a point behind them lead to a directory. -/
theorem Leads.of_dot {links : Nat} {here : Location} {front : List Bytes} {place : Place}
    {route : List Location} (h : Leads t links here (front ++ [Utf8.encode "."]) place route) :
    ∃ dir, place = .entry dir .directory ∧
      Leads t links here front (.entry dir .directory) route := by
  obtain ⟨place', route', hfront⟩ := h.front
  rcases hfront.append_inv h with ⟨dir, links'', route'', rfl, hdot, rfl⟩ | ⟨hnil, -, -⟩
  · obtain ⟨rfl, rfl⟩ := hdot.dot_inv.done_inv
    rw [List.append_nil]
    exact ⟨dir, rfl, hfront⟩
  · cases hnil

/-- The slash at the end of a path makes no difference where a directory is reached. -/
theorem Leads.of_steps {links : Nat} {here dir : Location} {route : List Location}
    (h : Leads t links here (steps p) (.entry dir .directory) route) :
    Leads t links here p.names (.entry dir .directory) route := by
  rw [steps] at h
  split at h
  · obtain ⟨dir', hdir, hfront⟩ := h.of_dot
    cases hdir
    exact hfront
  · exact h

theorem entryAt_eq_ok_iff {loc : Location} {node : Node} :
    t.entryAt cwd p = .ok (loc, node) ↔ usable p = .ok () ∧
      ∃ route, Leads t maxLinks (origin cwd p) (steps p) (.entry loc node) route := by
  rw [entryAt, place]
  cases husable : usable p with
  | error e => simp [bind, Except.bind]
  | ok u =>
    simp only [bind, Except.bind, true_and, ← walk_found_eq_ok_iff]
    cases t.walk .found maxLinks (origin cwd p) (steps p) with
    | error e => simp
    | ok place => cases place <;> simp

theorem read_eq_ok_iff {bytes : Bytes} :
    t.read cwd p = .ok bytes ↔ ∃ loc, t.entryAt cwd p = .ok (loc, .file bytes) := by
  rw [read]
  rcases t.entryAt cwd p with e | ⟨loc, _ | _ | _⟩ <;> simp

/-- The directory in which a path's last name stands. -/
theorem parentOf_named {dir : Location} {name : Bytes}
    (h : t.parentOf cwd p = .ok (dir, .named name)) :
    usable p = .ok () ∧ name ≠ "." ∧ name ≠ ".." ∧ ∃ front route, p.names = front ++ [name] ∧
      Leads t maxLinks (origin cwd p) front (.entry dir .directory) route := by
  rw [parentOf] at h
  obtain ⟨⟨⟩, husable, h⟩ := exists_of_bind_eq_ok h
  obtain ⟨place, hplace, h⟩ := exists_of_bind_eq_ok h
  obtain ⟨route, hroute⟩ := walk_found_eq_ok_iff.1 hplace
  obtain ⟨dir', rfl, hfront⟩ := hroute.of_dot
  cases hlast : p.names.getLast? with
  | none =>
    rw [hlast] at h
    cases h
  | some last =>
    rw [hlast] at h
    dsimp only at h
    split at h
    · cases h
    · rename_i hstanding
      cases h
      obtain ⟨front, hnames⟩ := List.getLast?_eq_some_iff.1 hlast
      rw [hnames, List.dropLast_concat] at hfront
      exact ⟨husable, fun hdot => hstanding (Or.inl hdot), fun hup => hstanding (Or.inr hup),
        front, route, hnames, hfront⟩

theorem ownLocation_eq_ok {loc : Location} (h : t.ownLocation cwd p = .ok loc) :
    usable p = .ok () ∧ ∃ front name dir route, p.names = front ++ [name] ∧ IsEntryName name ∧
      Leads t maxLinks (origin cwd p) front (.entry dir .directory) route ∧ loc = name :: dir := by
  obtain ⟨⟨dir, last⟩, hparent, h⟩ := exists_of_bind_eq_ok h
  cases last with
  | standing => cases h
  | named name =>
    obtain ⟨husable, hdot, hup, front, route, hnames, hfront⟩ := parentOf_named hparent
    dsimp only [childOf] at h
    split at h
    · cases h
    · rename_i hlen
      cases h
      exact ⟨husable, front, name, dir, route, hnames, ⟨hdot, hup, Nat.le_of_not_lt hlen⟩,
        hfront, rfl⟩

theorem ownLocation_of_leads {front : List Bytes} {name : Bytes} {dir : Location}
    {route : List Location} (husable : usable p = .ok ()) (hnames : p.names = front ++ [name])
    (hname : IsEntryName name)
    (h : Leads t maxLinks (origin cwd p) front (.entry dir .directory) route) :
    t.ownLocation cwd p = .ok (name :: dir) := by
  have hwalk : t.walk .found maxLinks (origin cwd p) (parentSteps p)
      = .ok (.entry dir .directory) := by
    rw [parentSteps, hnames, List.dropLast_concat]
    exact (h.append fun links => .dot (.done links dir)).walk_found
  have hlast : p.names.getLast? = some name := by rw [hnames, List.getLast?_concat]
  have hparent : t.parentOf cwd p = .ok (dir, .named name) := by
    rw [parentOf, husable]
    simp only [bind, Except.bind, hwalk, hlast]
    exact if_neg (not_or.2 ⟨hname.ne_dot, hname.ne_up⟩)
  rw [ownLocation, hparent]
  exact if_neg (Nat.not_lt.2 hname.length_le)

/-- A place that takes the bytes written to a path: a file, or a name that is not taken. -/
def Place.Receives (place : Place) (loc : Location) : Prop :=
  (∃ content, place = .entry loc (.file content)) ∨
    ∃ dir name, place = .vacant dir name ∧ loc = name :: dir

theorem landing_eq_ok {loc : Location} (h : t.landing cwd p = .ok loc) :
    p.endsInSlash = false ∧ ∃ own place route, t.ownLocation cwd p = .ok own ∧
      Leads t maxLinks (origin cwd p) p.names place route ∧ place.Receives loc := by
  obtain ⟨⟨dir, last⟩, hparent, h⟩ := exists_of_bind_eq_ok h
  cases last with
  | standing => cases h
  | named name =>
    dsimp only at h
    split at h
    · cases h
    rename_i hslash
    obtain ⟨place, hplace, h⟩ := exists_of_bind_eq_ok h
    obtain ⟨⟨⟩, -, hplace⟩ := exists_of_bind_eq_ok hplace
    obtain ⟨route, hroute⟩ := exists_leads_of_walk hplace
    rw [steps, if_neg hslash] at hroute
    obtain ⟨-, hdot, hup, front, route', hnames, hfront⟩ := parentOf_named hparent
    -- the last name has been looked up, so it is not too long
    have hname : IsEntryName name := by
      rw [hnames] at hroute
      rcases hfront.append_inv hroute with ⟨_, links, _, _, hlast, _⟩ | ⟨hnil, -, -⟩
      · exact hlast.isEntryName hdot hup
      · cases hnil
    have hown : t.ownLocation cwd p = .ok (name :: dir) := by
      rw [ownLocation, hparent]
      exact if_neg (Nat.not_lt.2 hname.length_le)
    refine ⟨by simpa using hslash, name :: dir, place, route, hown, hroute, ?_⟩
    cases place with
    | vacant dir' name' =>
      cases h
      exact Or.inr ⟨dir', name', rfl, rfl⟩
    | entry loc' node =>
      cases node with
      | directory => cases h
      | file content =>
        cases h
        exact Or.inl ⟨content, rfl⟩
      | link target => exact absurd hroute Leads.ne_link

theorem Place.Receives.lookup {links : Nat} {here : Location} {names : List Bytes}
    {place : Place} {route : List Location} {loc : Location} (h : place.Receives loc)
    (hroute : Leads t links here names place route) :
    t.lookup loc = none ∨ ∃ content, t.lookup loc = some (.file content) := by
  rcases h with ⟨content, rfl⟩ | ⟨dir, name, rfl, rfl⟩
  · exact Or.inr ⟨content, hroute.lookup_file⟩
  · exact Or.inl hroute.lookup_vacant

/-- **What is written goes to the own location of a path or, if a link stands there, to where the
link leads.** -/
theorem landing_of_ownLocation {loc own : Location} (h : t.landing cwd p = .ok loc)
    (hown : t.ownLocation cwd p = .ok own) :
    match t.lookup own with
    | none => loc = own
    | some (.file _) => loc = own
    | some .directory => False
    | some (.link target) => ∃ links place route,
        Leads t links (origin own.tail ⟨target⟩) (steps ⟨target⟩) place route ∧
          place.Receives loc := by
  obtain ⟨-, own', place, route, hown', hroute, hreceives⟩ := landing_eq_ok h
  obtain rfl : own' = own := Except.ok.inj (hown'.symm.trans hown)
  obtain ⟨-, front, name, dir, route', hnames, hname, hfront, rfl⟩ := ownLocation_eq_ok hown
  rw [hnames] at hroute
  rcases hfront.append_inv hroute with ⟨dir', links, route'', hdir, hlast, -⟩ | ⟨hnil, -, -⟩
  · cases hdir
    have hinv := hlast.cons_inv hname
    rcases hnode : t.lookup (name :: dir) with _ | (_ | _ | target) <;> rw [hnode] at hinv
    · obtain ⟨-, rfl, -⟩ := hinv
      rcases hreceives with ⟨content, hplace⟩ | ⟨_, _, hplace, rfl⟩ <;> cases hplace
      rfl
    · obtain ⟨-, rfl, -⟩ := hinv
      rcases hreceives with ⟨content, hplace⟩ | ⟨_, _, hplace, rfl⟩ <;> cases hplace
      rfl
    · obtain ⟨rfl, -⟩ := hinv.done_inv
      rcases hreceives with ⟨content, hplace⟩ | ⟨_, _, hplace, rfl⟩ <;> cases hplace
    · obtain ⟨links', route₂, -, -, hlink⟩ := hinv
      rw [List.append_nil] at hlink
      exact ⟨links', place, route₂, hlink, hreceives⟩
  · cases hnil

/-! ## The operations -/

theorem lookup_ne_directory {loc : Location} {node : Node} (h : t.lookup loc = some node)
    (hdir : node ≠ .directory) : t.lookup loc ≠ some .directory := by
  rw [h]
  exact fun heq => hdir (Option.some.inj heq)

theorem ownLocation_ne_nil {loc : Location} (h : t.ownLocation cwd p = .ok loc) : loc ≠ [] := by
  obtain ⟨-, -, name, dir, -, -, -, -, rfl⟩ := ownLocation_eq_ok h
  exact List.cons_ne_nil name dir

theorem landing_ne_nil {loc : Location} (h : t.landing cwd p = .ok loc) : loc ≠ [] := by
  obtain ⟨-, -, place, route, -, hroute, hreceives⟩ := landing_eq_ok h
  rintro rfl
  rcases hreceives.lookup hroute with hnode | ⟨content, hnode⟩ <;> cases hnode

theorem write_eq (t : FileTree) (cwd : Location) (p : Path) (content : Bytes) :
    t.write cwd p content = (t.landing cwd p).map fun loc => t.insert loc (.file content) := by
  rw [write, landing]
  cases t.parentOf cwd p with
  | error e => rfl
  | ok parent =>
    rcases parent with ⟨dir, _ | _⟩
    · dsimp only [bind, Except.bind]
      split
      · rfl
      · cases t.place cwd .filled p with
        | error e => rfl
        | ok place =>
          rcases place with ⟨loc, _ | _ | _⟩ | ⟨dir', name'⟩ <;> rfl
    · rfl

theorem remove_eq_ok_iff :
    t.remove cwd p = .ok t' ↔ p.endsInSlash = false ∧ ∃ loc node, t.ownLocation cwd p = .ok loc ∧
      t.lookup loc = some node ∧ node ≠ .directory ∧ t' = t.erase loc := by
  rw [remove, ownLocation]
  rcases t.parentOf cwd p with e | ⟨dir, name | _⟩
  · simp [bind, Except.bind]
  · simp only [bind, Except.bind]
    rcases childOf dir name with e | loc
    · simp
    · rcases hnode : t.lookup loc with _ | (_ | _ | _) <;> simp [hnode]
      all_goals cases p.endsInSlash <;> simp [eq_comm]
  · simp [bind, Except.bind]

theorem makeDir_eq_ok_iff :
    t.makeDir cwd p = .ok t' ↔ ∃ loc, t.ownLocation cwd p = .ok loc ∧ t.lookup loc = none ∧
      t' = t.insert loc .directory := by
  rw [makeDir, ownLocation]
  rcases t.parentOf cwd p with e | ⟨dir, name | _⟩
  · simp [bind, Except.bind]
  · simp only [bind, Except.bind]
    rcases childOf dir name with e | loc
    · simp
    · rcases hnode : t.lookup loc with _ | _ <;> simp [hnode]
      exact eq_comm
  · simp [bind, Except.bind]

theorem move_eq_ok_iff {source target : Path} :
    t.move cwd source target = .ok t' ↔
      source.endsInSlash = false ∧ target.endsInSlash = false ∧
        ∃ loc loc' node, t.ownLocation cwd source = .ok loc ∧ t.ownLocation cwd target = .ok loc' ∧
          t.lookup loc = some node ∧ node ≠ .directory ∧ t.lookup loc' ≠ some .directory ∧
          t' = (t.erase loc).insert loc' node := by
  rw [move, ownLocation, ownLocation]
  rcases t.parentOf cwd source with e | ⟨dir, name | _⟩ <;>
    rcases t.parentOf cwd target with e' | ⟨dir', name' | _⟩ <;> simp only [bind, Except.bind]
  case ok.named.ok.named =>
    rcases childOf dir name with e | loc
    · simp
    · rcases hnode : t.lookup loc with _ | (_ | _ | _) <;>
        rcases childOf dir' name' with e' | loc' <;> simp [hnode]
      all_goals
        cases source.endsInSlash <;> cases target.endsInSlash <;>
          by_cases hdir : t.lookup loc' = some .directory <;> simp [hdir, eq_comm]
  all_goals simp

end FileTree

end LogSplit
