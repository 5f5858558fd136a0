import LogSplit.Proofs.File.Operations
import LogSplit.Proofs.File.PathNames

/-!
# Changes on and off a route

Two trees are compared here, before and after a change.

* `Keeps` says that what a route rests on is the same in both, so that the path still leads where
  it led (`Leads.congr`).
* `Confined` says the opposite of a change: whatever path leads to a file with some given bytes
  afterwards led to that very file before, and nothing on its route is among the changed
  locations.  So if something on its route was changed, a path does not lead to these bytes any
  more, and no later change of this kind will bring them back.
-/

set_option autoImplicit false

namespace LogSplit

namespace FileTree

variable {t t' t'' : FileTree} {route : List Location} {bytes : Bytes}

/-! ## What is kept -/

/-- The directories of a tree and what stands on a route are still there. -/
structure Keeps (route : List Location) (t t' : FileTree) : Prop where
  /-- No directory is gone. -/
  directory : ∀ l, t.lookup l = some .directory → t'.lookup l = some .directory
  /-- Nothing on the route is different. -/
  route : ∀ l ∈ route, t'.lookup l = t.lookup l

theorem Keeps.refl (route : List Location) (t : FileTree) : Keeps route t t :=
  ⟨fun _ h => h, fun _ _ => rfl⟩

theorem Keeps.trans (h : Keeps route t t') (h' : Keeps route t' t'') : Keeps route t t'' :=
  ⟨fun l hl => h'.directory l (h.directory l hl), fun l hl => (h'.route l hl).trans (h.route l hl)⟩

theorem keeps_insert {loc : Location} (hne : loc ≠ []) (node : Node) (hloc : loc ∉ route)
    (hnode : t.lookup loc ≠ some .directory) : Keeps route t (t.insert loc node) := by
  constructor
  · intro l hl
    rw [lookup_insert t node l hne, if_neg, hl]
    rintro rfl
    exact hnode hl
  · intro l hl
    rw [lookup_insert t node l hne, if_neg]
    rintro rfl
    exact hloc hl

theorem keeps_erase {loc : Location} (hne : loc ≠ []) (hloc : loc ∉ route)
    (hnode : t.lookup loc ≠ some .directory) : Keeps route t (t.erase loc) := by
  constructor
  · intro l hl
    rw [lookup_erase t l hne, if_neg, hl]
    rintro rfl
    exact hnode hl
  · intro l hl
    rw [lookup_erase t l hne, if_neg]
    rintro rfl
    exact hloc hl

theorem Leads.of_keeps {links : Nat} {here : Location} {names : List Bytes} {loc : Location}
    {node : Node} (h : Leads t links here names (.entry loc node) route)
    (hkeeps : Keeps route t t') :
    Leads t' links here names (.entry loc node) route :=
  h.congr hkeeps.directory hkeeps.route

/-- A path whose route is kept leads where it led and nowhere else. -/
theorem Leads.iff_of_keeps {links : Nat} {here : Location} {names : List Bytes}
    {loc loc' : Location} {route' : List Location}
    (h : Leads t links here names (.entry loc (.file bytes)) route)
    (hkeeps : Keeps route t t') :
    Leads t' links here names (.entry loc' (.file bytes)) route' ↔
      loc' = loc ∧ route' = route := by
  constructor
  · intro h'
    obtain ⟨hplace, hroute⟩ := (h.of_keeps hkeeps).unique h'
    cases hplace
    exact ⟨rfl, hroute⟩
  · rintro ⟨rfl, rfl⟩
    exact h.of_keeps hkeeps

/-! ## What no file is part of -/

/-- The directories and links of a tree are still there. -/
def KeepsWays (t t' : FileTree) : Prop :=
  ∀ l node, t.lookup l = some node → node.isFile = false → t'.lookup l = some node

/-- A location at which there is no directory and no link. -/
def HasNoWay (t : FileTree) (loc : Location) : Prop :=
  t.lookup loc = none ∨ ∃ content, t.lookup loc = some (.file content)

theorem HasNoWay.ne {loc : Location} (h : HasNoWay t loc) {l : Location} {node : Node}
    (hl : t.lookup l = some node) (hnode : node.isFile = false) : l ≠ loc := by
  rintro rfl
  rcases h with h | ⟨content, h⟩ <;> rw [h] at hl <;> cases hl
  cases hnode

theorem keepsWays_insert {loc : Location} (hne : loc ≠ []) (h : HasNoWay t loc) (node : Node) :
    KeepsWays t (t.insert loc node) := by
  intro l other hl hother
  rw [lookup_insert t node l hne, if_neg (h.ne hl hother), hl]

theorem keepsWays_erase {loc : Location} (hne : loc ≠ []) (h : HasNoWay t loc) :
    KeepsWays t (t.erase loc) := by
  intro l other hl hother
  rw [lookup_erase t l hne, if_neg (h.ne hl hother), hl]

/-- A file that is put somewhere adds no directory and no link. -/
theorem keepsWays_of_insert {loc : Location} (hne : loc ≠ []) (content : Bytes) :
    KeepsWays (t.insert loc (.file content)) t := by
  intro l other hl hother
  rw [lookup_insert t _ l hne] at hl
  split at hl
  · cases hl
    cases hother
  · exact hl

/-- A directory is where it was as long as no directory or link is gone. -/
theorem Leads.of_keepsWays {links : Nat} {here dir : Location} {names : List Bytes}
    (h : Leads t links here names (.entry dir .directory) route) (hways : KeepsWays t t') :
    Leads t' links here names (.entry dir .directory) route := by
  refine h.congr (fun l hl => hways l _ hl rfl) fun l hl => ?_
  obtain ⟨target, hlink⟩ := h.lookup_of_mem_of_directory l hl
  rw [hlink]
  exact hways l _ hlink rfl

theorem ownLocation_of_keepsWays {cwd : Location} {p : Path} {loc : Location}
    (h : t.ownLocation cwd p = .ok loc) (hways : KeepsWays t t') :
    t'.ownLocation cwd p = .ok loc := by
  obtain ⟨husable, front, name, dir, route, hnames, hname, hfront, rfl⟩ := ownLocation_eq_ok h
  exact ownLocation_of_leads husable hnames hname (hfront.of_keepsWays hways)

theorem hasNoWay_of_landing {cwd : Location} {p : Path} {loc : Location}
    (h : t.landing cwd p = .ok loc) : HasNoWay t loc := by
  obtain ⟨-, -, place, route, -, hroute, hreceives⟩ := landing_eq_ok h
  exact hreceives.lookup hroute

/-- Paths beside each other have their last names in one directory. -/
theorem tail_ownLocation {cwd : Location} {p q : Path} (h : p.Beside q) {loc loc' : Location}
    (hp : t.ownLocation cwd p = .ok loc) (hq : t.ownLocation cwd q = .ok loc') :
    loc.tail = loc'.tail := by
  obtain ⟨-, front, name, dir, route, hnames, -, hfront, rfl⟩ := ownLocation_eq_ok hp
  obtain ⟨-, front', name', dir', route', hnames', -, hfront', rfl⟩ := ownLocation_eq_ok hq
  have hsame := h.names
  rw [hnames, hnames', List.dropLast_concat, List.dropLast_concat] at hsame
  rw [origin, h.isAbsolute, ← origin, hsame] at hfront
  cases (hfront.unique hfront').1
  rfl

/-! ## What is confined -/

/-- What a change does to the paths that lead to a file with given bytes. -/
structure Confined (bytes : Bytes) (changed : Location → Prop) (t t' : FileTree) : Prop where
  /-- Each that leads there afterwards led there before, and by the same route, which avoids the
  changed locations. -/
  leads : ∀ {links : Nat} {here : Location} {names : List Bytes} {loc : Location}
    {route : List Location}, Leads t' links here names (.entry loc (.file bytes)) route →
      Leads t links here names (.entry loc (.file bytes)) route ∧ ∀ l ∈ route, ¬ changed l

variable {changed changed' : Location → Prop}

theorem Confined.refl (bytes : Bytes) (t : FileTree) : Confined bytes (fun _ => False) t t :=
  ⟨fun h => ⟨h, fun _ _ => id⟩⟩

theorem Confined.trans (h : Confined bytes changed t t') (h' : Confined bytes changed' t' t'') :
    Confined bytes (fun l => changed l ∨ changed' l) t t'' := by
  constructor
  intro links here names loc route hlead
  obtain ⟨hlead', hno'⟩ := h'.leads hlead
  obtain ⟨hlead'', hno⟩ := h.leads hlead'
  exact ⟨hlead'', fun l hl => not_or.2 ⟨hno l hl, hno' l hl⟩⟩

/-- Only what can stand on a route has to be among the changed locations. -/
theorem Confined.mono (h : Confined bytes changed t t')
    (hsub : ∀ l node, t.lookup l = some node → node ≠ .directory → changed' l → changed l) :
    Confined bytes changed' t t' := by
  constructor
  intro links here names loc route hlead
  obtain ⟨hlead', hno⟩ := h.leads hlead
  refine ⟨hlead', fun l hl hchanged => hno l hl ?_⟩
  obtain ⟨node, hnode, hne⟩ := hlead'.lookup_of_mem l hl
  exact hsub l node hnode hne hchanged

/-- A link that no path with the given bytes goes on from. -/
def IsDead (bytes : Bytes) (t : FileTree) (dir : Location) (target : Bytes) : Prop :=
  ∀ {links : Nat} {names : List Bytes} {loc : Location} {route : List Location},
    ¬ Leads t links (origin dir ⟨target⟩) (steps ⟨target⟩ ++ names) (.entry loc (.file bytes)) route

/-- What may be put at a location without making up for what stood there. -/
def IsHarmless (bytes : Bytes) (t : FileTree) (loc : Location) : Option Node → Prop
  | none => True
  | some (.file content) => content ≠ bytes
  | some .directory => False
  | some (.link target) => IsDead bytes t loc.tail target

/-- **A change at one location is confined** if what is put there is harmless. -/
theorem confined_of_lookup {loc : Location} (hother : ∀ l, l ≠ loc → t'.lookup l = t.lookup l)
    (hloc : IsHarmless bytes t loc (t'.lookup loc)) : Confined bytes (· = loc) t t' := by
  constructor
  intro links here names target route hlead
  generalize hplace : Place.entry target (.file bytes) = place at hlead
  induction hlead with
  | done => cases hplace
  | dot _ ih => exact ⟨.dot (ih hplace).1, (ih hplace).2⟩
  | up _ ih => exact ⟨.up (ih hplace).1, (ih hplace).2⟩
  | vacant => cases hplace
  | @file _ here name _ hname hnode =>
    cases hplace
    by_cases hl : name :: here = loc
    · rw [← hl, hnode] at hloc
      exact absurd rfl hloc
    · refine ⟨.file hname ((hother _ hl).symm.trans hnode), fun l hmem => ?_⟩
      rwa [List.mem_singleton.1 hmem]
  | @directory _ here name _ _ _ hname hnode _ ih =>
    have hl : name :: here ≠ loc := by
      rintro rfl
      rw [hnode] at hloc
      exact hloc
    exact ⟨.directory hname ((hother _ hl).symm.trans hnode) (ih hplace).1, (ih hplace).2⟩
  | @link _ here name _ _ _ _ hname hnode _ ih =>
    obtain ⟨hlead, hno⟩ := ih hplace
    by_cases hl : name :: here = loc
    · rw [← hl, hnode] at hloc
      rw [← hplace] at hlead
      exact absurd hlead hloc
    · refine ⟨.link hname ((hother _ hl).symm.trans hnode) hlead, fun l hmem => ?_⟩
      rcases List.mem_cons.1 hmem with rfl | hmem
      · exact hl
      · exact hno l hmem

theorem confined_erase {loc : Location} (hne : loc ≠ []) :
    Confined bytes (· = loc) t (t.erase loc) :=
  confined_of_lookup (fun l hl => by rw [lookup_erase t l hne, if_neg hl])
    (by rw [lookup_erase t loc hne, if_pos rfl]; trivial)

theorem confined_insert {loc : Location} (hne : loc ≠ []) {node : Node}
    (hnode : IsHarmless bytes t loc (some node)) : Confined bytes (· = loc) t (t.insert loc node) :=
  confined_of_lookup (fun l hl => by rw [lookup_insert t node l hne, if_neg hl])
    (by rwa [lookup_insert t node loc hne, if_pos rfl])

end FileTree

end LogSplit
