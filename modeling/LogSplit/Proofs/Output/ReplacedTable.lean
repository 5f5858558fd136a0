import LogSplit.Proofs.File.TemporaryName
import LogSplit.Proofs.Output.PlacedFiles

/-!
# Putting a table in place, and failing to

What `replaceTable` does to a tree without links is settled here for every path with a last name,
whatever stands at the path, next to it and above it.  `Replaceable` says when it succeeds.  If it
does, the table is at the path and nothing is where it was prepared (`InPlace`); if it does not,
what stands at the path is what stood there, and where the table was prepared there is no file
(`LeftAlone`).  Nothing else changes in either case.

The path may be spelled with slashes and points behind its last name.  The file is then prepared
and cannot be moved, which leaves the directory that the path may lead to as it is.
-/

set_option autoImplicit false

namespace LogSplit

namespace FileTree

variable {t t' : FileTree} {cwd base loc : Location} {p path dir : Path} {name : Bytes}
  {content : Bytes}

/-! ## When a file can be put in place -/

/-- A file can be prepared next to a path and moved to it. -/
structure Replaceable (t : FileTree) (cwd : Location) (path : Path) : Prop where
  /-- The path does not ask for a directory. -/
  endsInSlash : path.endsInSlash = false
  /-- The directory in which the file is prepared exists, the name is not too long, and no directory
  has it. -/
  prepared : ∃ loc, t.ownLocation cwd path.temporary = .ok loc ∧ t.lookup loc ≠ some .directory
  /-- The same holds for the path itself. -/
  target : ∃ loc, t.ownLocation cwd path = .ok loc ∧ t.lookup loc ≠ some .directory

/-- **Putting a file in place succeeds** exactly if that can be done. -/
theorem Plain.replaceFile_eq_ok_iff (h : Plain t) (hslash : path.temporary.endsInSlash = false) :
    (t.replaceFile cwd path content).1 = .ok () ↔ Replaceable t cwd path := by
  constructor
  · intro hok
    have hpath : path.endsInSlash = false := by
      cases hwrite : t.write cwd path.temporary content with
      | error e =>
        rw [replaceFile_of_write_error hwrite] at hok
        cases hok
      | ok written =>
        cases hmove : written.move cwd path.temporary path with
        | error e =>
          rw [replaceFile_of_move_error hwrite hmove] at hok
          cases hok
        | ok moved => exact (move_eq_ok_iff.1 hmove).2.1
    obtain ⟨_, _, hprepared, htarget, hfree, hfree', -⟩ :=
      (h.replaced_of_eq hslash (Prod.ext hok rfl)).ok_inv h
    exact ⟨hpath, ⟨_, hprepared, hfree⟩, _, htarget, hfree'⟩
  · rintro ⟨hpath, ⟨prepared, hprepared, hfree⟩, target, htarget, hfree'⟩
    have hne := ownLocation_ne_nil hprepared
    have hways := keepsWays_insert hne (h.hasNoWay hfree) (.file content)
    have hwrite : t.write cwd path.temporary content = .ok (t.insert prepared (.file content)) := by
      rw [write_eq, h.landing_eq_ok_iff.2 ⟨hslash, hprepared, hfree⟩]
      rfl
    have hdir : (t.insert prepared (.file content)).lookup target ≠ some .directory := by
      rw [lookup_insert t _ _ hne]
      split
      · simp
      · exact hfree'
    have hmove := move_eq_ok_iff.2 ⟨hslash, hpath, prepared, target, .file content,
      ownLocation_of_keepsWays hprepared hways, ownLocation_of_keepsWays htarget hways,
      by rw [lookup_insert t _ _ hne, if_pos rfl], by simp, hdir, rfl⟩
    rw [replaceFile_of_move_ok hwrite hmove]

/-! ## Where paths lead -/

/-- A file at the own location of a path is what the path leads to. -/
theorem entryAt_of_ownLocation (hslash : p.endsInSlash = false)
    (hown : t.ownLocation cwd p = .ok loc) (hfile : t.lookup loc = some (.file content)) :
    t.entryAt cwd p = .ok (loc, .file content) := by
  obtain ⟨husable, front, name, dir, route, hnames, hname, hfront, rfl⟩ := ownLocation_eq_ok hown
  refine entryAt_eq_ok_iff.2 ⟨husable, route ++ [name :: dir], ?_⟩
  rw [steps, if_neg (by simp [hslash]), hnames]
  exact hfront.append fun links => .file hname hfile

/-- A path leads to the entry to which it led unless that is one of those that have changed, none of
which was or is a directory. -/
theorem Plain.entryAt_iff_of_agrees (h : Plain t) (h' : Plain t') {changed : Location → Prop}
    (hsame : ∀ l, ¬ changed l → t'.lookup l = t.lookup l)
    (hfree : ∀ l, changed l → t.lookup l ≠ some .directory ∧ t'.lookup l ≠ some .directory)
    (hloc : ¬ changed loc) (p : Path) (node : Node) :
    t'.entryAt cwd p = .ok (loc, node) ↔ t.entryAt cwd p = .ok (loc, node) :=
  ⟨h'.entryAt_congr (fun l hl => (hsame l fun hchanged => (hfree l hchanged).2 hl).symm.trans hl)
      (hsame loc hloc).symm,
    h.entryAt_congr (fun l hl => (hsame l fun hchanged => (hfree l hchanged).1 hl).trans hl)
      (hsame loc hloc)⟩

/-- Points lead to the directory itself. -/
theorem Leads.eq_of_dots {links : Nat} {here : Location} {dots : List Bytes} {node : Node}
    {route : List Location} (h : Leads t links here dots (.entry loc node) route)
    (hdots : ∀ dot ∈ dots, dot = ".") : loc = here := by
  induction dots with
  | nil =>
    cases h.done_inv.1
    rfl
  | cons dot dots ih =>
    obtain ⟨rfl, hrest⟩ := List.forall_mem_cons.1 hdots
    exact ih h.dot_inv hrest

theorem hasDirectory_of_ownLocation_join (hname : Path.IsPiece name)
    (hown : t.ownLocation cwd (dir.join name) = .ok loc) :
    ∃ base, HasDirectory t cwd dir base ∧ IsEntryName name ∧ loc = name :: base := by
  obtain ⟨-, front, last, base, route, hnames, hlast, hfront, rfl⟩ := ownLocation_eq_ok hown
  rw [Path.names_join hname] at hnames
  obtain ⟨rfl, hsame⟩ := List.append_inj' hnames rfl
  cases hsame
  rw [Path.origin_join hname] at hfront
  exact ⟨base, ⟨route, hfront⟩, hlast, rfl⟩

end FileTree

/-! ## The last name of a path -/

namespace Path

open FileTree

variable {t : FileTree} {cwd base loc : Location} {p dir : Path} {name : Bytes}

theorem cons_ne_cons_tmp (name : Bytes) (base : Location) :
    name :: base ≠ (name ++ ".tmp") :: base := by
  intro heq
  have hnil : Utf8.encode ".tmp" = [] := List.append_right_eq_self.1 (List.cons.inj heq).1.symm
  exact absurd hnil (by decide)

namespace EndsIn

theorem origin_eq (h : p.EndsIn dir name) : FileTree.origin cwd p = FileTree.origin cwd dir := by
  rw [FileTree.origin, FileTree.origin, h.isAbsolute]

theorem isPiece_temporary (h : p.EndsIn dir name) : IsPiece (name ++ ".tmp") :=
  isPiece_append h.isPiece (by decide)

theorem endsInSlash_temporary (h : p.EndsIn dir name) : p.temporary.endsInSlash = false := by
  rw [h.temporary]
  exact endsInSlash_join h.isPiece_temporary dir

/-- Where the file of a path is prepared. -/
theorem ownLocation_temporary (h : p.EndsIn dir name)
    (hown : t.ownLocation cwd p.temporary = .ok loc) :
    ∃ base, HasDirectory t cwd dir base ∧ IsEntryName (name ++ ".tmp") ∧
      loc = (name ++ ".tmp") :: base := by
  rw [h.temporary] at hown
  exact hasDirectory_of_ownLocation_join h.isPiece_temporary hown

/-- A name with something behind it that is short enough is short enough. -/
theorem isEntryName (h : p.EndsIn dir name) (hlong : IsEntryName (name ++ ".tmp")) :
    IsEntryName name := by
  have hlength := hlong.length_le
  rw [List.length_append] at hlength
  exact ⟨h.ne_dot, h.ne_up, by omega⟩

/-- The own location of a path is its last name in its directory. -/
theorem eq_of_ownLocation (h : p.EndsIn dir name) (hdir : HasDirectory t cwd dir base)
    (hown : t.ownLocation cwd p = .ok loc) : loc = name :: base := by
  obtain ⟨dots, hnames, hdots⟩ := h.names
  obtain ⟨-, front, last, base', route, hnames', hlast, hfront, rfl⟩ := ownLocation_eq_ok hown
  rw [hnames] at hnames'
  rcases List.eq_nil_or_concat dots with rfl | ⟨dots, dot, rfl⟩
  · obtain ⟨rfl, hsame⟩ := List.append_inj' hnames' rfl
    cases hsame
    rw [h.origin_eq] at hfront
    rw [HasDirectory.unique hdir ⟨route, hfront⟩]
  · -- a point is no name of its own
    rw [List.concat_eq_append, ← List.cons_append, ← List.append_assoc] at hnames'
    obtain ⟨-, hsame⟩ := List.append_inj' hnames' rfl
    cases hsame
    exact absurd (hdots last (by simp)) hlast.ne_dot

/-- Whatever is found where the file of a path is prepared stands there. -/
theorem lookup_of_entryAt_temporary (h : p.EndsIn dir name) (hplain : Plain t)
    (hdir : HasDirectory t cwd dir base) (hlong : IsEntryName (name ++ ".tmp")) {node : Node}
    (hentry : t.entryAt cwd p.temporary = .ok (loc, node)) :
    t.lookup ((name ++ ".tmp") :: base) = some node := by
  rw [h.temporary, hdir.entryAt_join_iff h.isPiece_temporary hlong.ne_dot hlong.ne_up
    fun target => hplain.no_link _ target] at hentry
  exact hentry.2.2.2

/-- A path leads to what has its last name in its directory, or nowhere. -/
theorem eq_of_entryAt (h : p.EndsIn dir name) (hplain : Plain t)
    (hdir : HasDirectory t cwd dir base) (hname : IsEntryName name) {node : Node}
    (hentry : t.entryAt cwd p = .ok (loc, node)) : loc = name :: base := by
  obtain ⟨route, hlead⟩ := hdir
  obtain ⟨dots, hnames, hdots⟩ := h.names
  obtain ⟨-, route', hlead'⟩ := entryAt_eq_ok_iff.1 hentry
  have hsteps : ∃ dots', steps p = dir.names ++ name :: dots' ∧ ∀ dot ∈ dots', dot = "." := by
    rw [steps]
    split
    · refine ⟨dots ++ [Utf8.encode "."], by rw [hnames]; simp, fun dot hdot => ?_⟩
      exact (List.mem_append.1 hdot).elim (hdots dot) List.mem_singleton.1
    · exact ⟨dots, hnames, hdots⟩
  obtain ⟨dots', hsteps, hdots'⟩ := hsteps
  rw [hsteps, h.origin_eq] at hlead'
  rcases hlead.append_inv hlead' with ⟨here, links, route'', hhere, hlast, -⟩ | ⟨hnil, -, -⟩
  · cases hhere
    have hinv := hlast.cons_inv hname
    rcases hnode : t.lookup (name :: base) with _ | (content | _ | target) <;> rw [hnode] at hinv
    · cases hinv.2.1
    · cases hinv.2.1
      rfl
    · exact hinv.eq_of_dots hdots'
    · exact absurd hnode (hplain.no_link _ _)
  · cases hnil

end EndsIn

end Path

/-! ## Success and failure -/

namespace FileTree

variable {t t' : FileTree} {cwd base loc : Location} {p path dir : Path} {name : Bytes}
  {content : Bytes}

/-- Bytes have been put at a path, which has made the tree `t'` of `t`. -/
structure InPlace (t t' : FileTree) (cwd : Location) (path : Path) (content : Bytes) : Prop where
  /-- The file at the path holds exactly these bytes. -/
  read : t'.read cwd path = .ok content
  /-- Nothing is at the path at which it was prepared. -/
  no_temporary : ∀ entry, t'.entryAt cwd path.temporary ≠ .ok entry
  /-- No other location has changed. -/
  lookup : ∀ loc, t.ownLocation cwd path ≠ .ok loc → t.ownLocation cwd path.temporary ≠ .ok loc →
    t'.lookup loc = t.lookup loc
  /-- Every other entry is found at the paths that led to it, and at no others. -/
  entryAt : ∀ loc, t.ownLocation cwd path ≠ .ok loc → t.ownLocation cwd path.temporary ≠ .ok loc →
    ∀ p node, t'.entryAt cwd p = .ok (loc, node) ↔ t.entryAt cwd p = .ok (loc, node)

/-- No bytes could be put at a path, and the attempt has made the tree `t'` of `t`. -/
structure LeftAlone (t t' : FileTree) (cwd : Location) (path : Path) : Prop where
  /-- The path leads to what it led to, or nowhere if it led nowhere. -/
  entryAt_path : ∀ entry, t'.entryAt cwd path = .ok entry ↔ t.entryAt cwd path = .ok entry
  /-- No regular file is at the path at which it was to be prepared. -/
  no_file : ∀ loc content, t'.entryAt cwd path.temporary ≠ .ok (loc, .file content)
  /-- No other location has changed. -/
  lookup : ∀ loc, t.ownLocation cwd path.temporary ≠ .ok loc → t'.lookup loc = t.lookup loc
  /-- Every other entry is found at the paths that led to it, and at no others. -/
  entryAt : ∀ loc, t.ownLocation cwd path.temporary ≠ .ok loc →
    ∀ p node, t'.entryAt cwd p = .ok (loc, node) ↔ t.entryAt cwd p = .ok (loc, node)

/-- Which locations have changed when a file has been put in place. -/
theorem Plain.lookup_of_replaceFile_ok (h : Plain t) (hends : path.EndsIn dir name)
    (hok : t.replaceFile cwd path content = (.ok (), t')) :
    ∃ base, HasDirectory t cwd dir base ∧ IsEntryName (name ++ ".tmp") ∧
      t.ownLocation cwd path = .ok (name :: base) ∧
      t.ownLocation cwd path.temporary = .ok ((name ++ ".tmp") :: base) ∧
      t.lookup (name :: base) ≠ some .directory ∧
      t.lookup ((name ++ ".tmp") :: base) ≠ some .directory ∧ Plain t' ∧ KeepsWays t t' ∧
      ∀ l, t'.lookup l = if l = name :: base then some (.file content)
        else if l = (name ++ ".tmp") :: base then none else t.lookup l := by
  obtain ⟨prepared, target, hprepared, htarget, hfree, hfree', hchanges⟩ :=
    (h.replaced_of_eq hends.endsInSlash_temporary hok).ok_inv h
  obtain ⟨base, hdir, hlong, rfl⟩ := hends.ownLocation_temporary hprepared
  obtain rfl := hends.eq_of_ownLocation hdir htarget
  exact ⟨base, hdir, hlong, htarget, hprepared, hfree', hfree, hchanges⟩

/-- **A file that has been put in place.** -/
theorem Plain.inPlace (h : Plain t) (hends : path.EndsIn dir name)
    (hok : t.replaceFile cwd path content = (.ok (), t')) : InPlace t t' cwd path content := by
  have hpath := ((h.replaceFile_eq_ok_iff hends.endsInSlash_temporary).1
    (congrArg Prod.fst hok)).endsInSlash
  obtain ⟨base, hdir, hlong, htarget, hprepared, hfree, hfree', hplain', hways, hlookup⟩ :=
    h.lookup_of_replaceFile_ok hends hok
  have hother := (Path.cons_ne_cons_tmp name base).symm
  have hsame : ∀ l, ¬ (l = name :: base ∨ l = (name ++ ".tmp") :: base) →
      t'.lookup l = t.lookup l := by
    intro l hl
    rw [hlookup l, if_neg fun heq => hl (Or.inl heq), if_neg fun heq => hl (Or.inr heq)]
  have hfrees : ∀ l, l = name :: base ∨ l = (name ++ ".tmp") :: base →
      t.lookup l ≠ some .directory ∧ t'.lookup l ≠ some .directory := by
    rintro l (rfl | rfl) <;> rw [hlookup]
    · exact ⟨hfree, by simp⟩
    · exact ⟨hfree', by simp [hother]⟩
  have hkept : ∀ l, t.ownLocation cwd path ≠ .ok l → t.ownLocation cwd path.temporary ≠ .ok l →
      ¬ (l = name :: base ∨ l = (name ++ ".tmp") :: base) := by
    rintro l htarget' hprepared' (rfl | rfl)
    · exact htarget' htarget
    · exact hprepared' hprepared
  refine ⟨?_, ?_, fun l ht hp => hsame l (hkept l ht hp),
    fun l ht hp => h.entryAt_iff_of_agrees hplain' hsame hfrees (hkept l ht hp)⟩
  · refine read_eq_ok_iff.2 ⟨_, entryAt_of_ownLocation hpath
      (ownLocation_of_keepsWays htarget hways) ?_⟩
    rw [hlookup, if_pos rfl]
  · rintro ⟨loc, node⟩ hentry
    have hnode := hends.lookup_of_entryAt_temporary hplain' (hdir.of_keepsWays hways) hlong hentry
    rw [hlookup, if_neg hother, if_pos rfl] at hnode
    cases hnode

/-- Which locations have changed when a file has been prepared and not been moved. -/
theorem Plain.lookup_of_replaceFile_error (h : Plain t) (hends : path.EndsIn dir name)
    {e : FileError} (herror : t.replaceFile cwd path content = (.error e, t')) :
    (t' = t ∧ ∀ loc, t.landing cwd path.temporary ≠ .ok loc) ∨
      ∃ base, HasDirectory t cwd dir base ∧ IsEntryName (name ++ ".tmp") ∧
        t.ownLocation cwd path.temporary = .ok ((name ++ ".tmp") :: base) ∧
        t.lookup ((name ++ ".tmp") :: base) ≠ some .directory ∧ Plain t' ∧ KeepsWays t t' ∧
        ∀ l, t'.lookup l = if l = (name ++ ".tmp") :: base then none else t.lookup l := by
  rcases (h.replaced_of_eq hends.endsInSlash_temporary herror).error_inv h with
    hsame | ⟨prepared, hprepared, hchanges⟩
  · exact Or.inl hsame
  · obtain ⟨base, hdir, hlong, rfl⟩ := hends.ownLocation_temporary hprepared
    exact Or.inr ⟨base, hdir, hlong, hprepared, hchanges⟩

/-- **A file that could not be put in place.** -/
theorem Plain.leftAlone (h : Plain t) (hends : path.EndsIn dir name) {e : FileError}
    (herror : t.replaceFile cwd path content = (.error e, t')) : LeftAlone t t' cwd path := by
  rcases h.lookup_of_replaceFile_error hends herror with ⟨rfl, hlanding⟩ |
    ⟨base, hdir, hlong, hprepared, hfree, hplain', hways, hlookup⟩
  · exact ⟨fun _ => Iff.rfl, h.no_file_of_landing hends.endsInSlash_temporary hlanding,
      fun _ _ => rfl, fun _ _ _ _ => Iff.rfl⟩
  have hsame : ∀ l, l ≠ (name ++ ".tmp") :: base → t'.lookup l = t.lookup l :=
    fun l hl => (hlookup l).trans (if_neg hl)
  have hentry : ∀ l, l ≠ (name ++ ".tmp") :: base → ∀ p node,
      t'.entryAt cwd p = .ok (l, node) ↔ t.entryAt cwd p = .ok (l, node) := by
    refine fun l hl => h.entryAt_iff_of_agrees hplain' hsame ?_ hl
    rintro l rfl
    exact ⟨hfree, by simp [hlookup]⟩
  have hkept : ∀ l, t.ownLocation cwd path.temporary ≠ .ok l → l ≠ (name ++ ".tmp") :: base := by
    rintro l hl rfl
    exact hl hprepared
  have hdir' := hdir.of_keepsWays hways
  have hname := hends.isEntryName hlong
  refine ⟨fun ⟨loc, node⟩ => ⟨fun hat => ?_, fun hat => ?_⟩, fun loc bytes hat => ?_,
    fun l hl => hsame l (hkept l hl), fun l hl => hentry l (hkept l hl)⟩
  · have hloc := hends.eq_of_entryAt hplain' hdir' hname hat
    exact (hentry loc (hloc ▸ Path.cons_ne_cons_tmp name base) path node).1 hat
  · have hloc := hends.eq_of_entryAt h hdir hname hat
    exact (hentry loc (hloc ▸ Path.cons_ne_cons_tmp name base) path node).2 hat
  · have hnode := hends.lookup_of_entryAt_temporary hplain' hdir' hlong hat
    rw [hlookup, if_pos rfl] at hnode
    cases hnode

end FileTree

/-- **Putting a table in place.**  In a tree of directories and regular files, at a path with a last
name, it succeeds exactly if the table can be prepared next to the path and moved to it.  Then the
file at the path holds the written form of the table, nothing is where it was prepared, and nothing
else has changed.  Otherwise what stands at the path has not changed either, and no regular file is
where the table was to be prepared. -/
theorem replaceTable_settled {host host' : Host} {path : Path} {header : Header} {rows : List Row}
    {outcome : Except TableError Unit} (hplain : host.files.Plain) (hname : path.fileName? ≠ none)
    (h : (replaceTable path header rows : OnHost _) host = (outcome, host')) :
    (outcome = .ok () ↔ host.files.Replaceable host.cwd path) ∧
      (outcome = .ok () →
        host.files.InPlace host'.files host.cwd path (Tsv.encode header rows)) ∧
      (outcome ≠ .ok () → host.files.LeftAlone host'.files host.cwd path) ∧
      host'.cwd = host.cwd ∧ host'.output = host.output := by
  obtain ⟨name, hname⟩ := Option.ne_none_iff_exists'.1 hname
  obtain ⟨dir, hends⟩ := Path.exists_endsIn hname
  obtain ⟨journal, hhost⟩ := replaceTable_onHost path header rows host
  have hiff : (host.files.replaceFile host.cwd path (Tsv.encode header rows)).1 = .ok () ↔
      host.files.Replaceable host.cwd path :=
    hplain.replaceFile_eq_ok_iff hends.endsInSlash_temporary
  rcases hreplace : host.files.replaceFile host.cwd path (Tsv.encode header rows)
    with ⟨e | ⟨⟩, files⟩ <;> rw [hreplace] at hhost hiff <;> cases h.symm.trans hhost
  · exact ⟨⟨fun hok => (by cases hok), fun hok => (by cases hiff.2 hok)⟩, fun hok => (by cases hok),
      fun _ => hplain.leftAlone hends hreplace, rfl, rfl⟩
  · exact ⟨⟨fun _ => hiff.1 rfl, fun _ => rfl⟩, fun _ => hplain.inPlace hends hreplace,
      fun hne => absurd rfl hne, rfl, rfl⟩

/-- A directory with a table in it, and a file that an earlier attempt has left. -/
def ledgerHost : Host :=
  .start (((FileTree.empty.insert ["out"] .directory).insert ["t.txt", "out"]
    (.file (Utf8.encode "old"))).insert ["t.txt.tmp", "out"] (.file [])) []

/-- The new table, put at a path. -/
def ledgerRun (path : Path) : Except TableError Unit × Host :=
  (replaceTable path ⟨["a"]⟩ [⟨["1"]⟩] : OnHost _) ledgerHost

set_option maxRecDepth 100000 in
/-- The path of the table, and that of the directory. -/
theorem replaceTable_settled_ledger :
    ledgerHost.files.Plain ∧ (ledgerRun ⟨"out/t.txt"⟩).1 = .ok () ∧
      ledgerHost.files.InPlace (ledgerRun ⟨"out/t.txt"⟩).2.files ledgerHost.cwd ⟨"out/t.txt"⟩
        (Tsv.encode ⟨["a"]⟩ [⟨["1"]⟩]) ∧
      (ledgerRun ⟨"out/t.txt"⟩).2.files.lookup ["t.txt", "out"]
        = some (.file (Utf8.encode "a\n1\n")) ∧
      (ledgerRun ⟨"out"⟩).1 = .error (.file .isDirectory) ∧
      ledgerHost.files.LeftAlone (ledgerRun ⟨"out"⟩).2.files ledgerHost.cwd ⟨"out"⟩ := by
  have hplain : ledgerHost.files.Plain := FileTree.plain_of_entries (by decide +kernel)
  have hok : (ledgerRun ⟨"out/t.txt"⟩).1 = .ok () := by decide +kernel
  have herror : (ledgerRun ⟨"out"⟩).1 = .error (.file .isDirectory) := by decide +kernel
  refine ⟨hplain, hok, ?_, by decide +kernel, herror, ?_⟩
  · exact (replaceTable_settled hplain (by decide +kernel) (Prod.eta (ledgerRun _)).symm).2.1 hok
  · exact (replaceTable_settled hplain (by decide +kernel) (Prod.eta (ledgerRun _)).symm).2.2.1
      (by rw [herror]; simp)

end LogSplit
