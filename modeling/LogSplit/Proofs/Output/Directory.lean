import LogSplit.Output.Directory
import LogSplit.Proofs.File.Directory
import LogSplit.Proofs.File.Host
import Mathlib.Data.List.Nodup

/-!
# What preparing an output directory does to the files

`FileTree.makeDirs`, `FileTree.clear` and `FileTree.prepareDirectory` are the whole effect that
preparing an output directory has on a tree.  On a host nothing else is done to the files
(`prepareDirectory_onHost`); the journal grows along the way.

* `FileTree.makeDirs_induction` says that making directories is making one directory after the
  other, so that whatever one of them preserves all of them preserve.
* `FileTree.isDir_of_makeDirs` says that it ends with the directory there.
* `FileTree.clear_eq_ok` says which entries of the directory are gone when it has been cleared of
  old segment files, and `FileTree.clear_ok_iff` when it can be cleared.
-/

set_option autoImplicit false

namespace LogSplit

namespace FileTree

/-! ## Making directories -/

/-- The outcome where making a directory has failed: it may be there all the same. -/
def orStanding (t : FileTree) (cwd : Location) (p : Path) (e : FileError) : Except FileError Unit :=
  if t.isDir cwd p then .ok () else .error e

/-- Makes the first of some directories, each of which lies in the next, and those of the others
that are missing: how that ends, and the tree afterwards. -/
def makeDirs (cwd : Location) : List Path → FileTree → Except FileError Unit × FileTree
  | [], t => (.ok (), t)
  | p :: above, t =>
    match t.makeDir cwd p with
    | .ok t' => (.ok (), t')
    | .error e =>
      if e = .notFound then
        match makeDirs cwd above t with
        | (.error e, t') => (.error e, t')
        | (.ok (), t') =>
          match t'.makeDir cwd p with
          | .ok t'' => (.ok (), t'')
          | .error e => (t'.orStanding cwd p e, t')
      else (t.orStanding cwd p e, t)

variable {t t' : FileTree} {cwd base : Location} {paths : List Path} {p dir : Path}

/-- Making directories is making one after the other: what each step preserves all of them
preserve. -/
theorem makeDirs_induction {motive : FileTree → Prop}
    (hstep : ∀ {a b : FileTree} {q : Path}, q ∈ paths → motive a → a.makeDir cwd q = .ok b →
      motive b) (h : motive t) : motive (makeDirs cwd paths t).2 := by
  induction paths generalizing t with
  | nil => exact h
  | cons p above ih =>
    have habove := ih (fun hq => hstep (List.mem_cons_of_mem p hq)) h
    rw [makeDirs]
    cases hmake : t.makeDir cwd p with
    | ok t' => exact hstep List.mem_cons_self h hmake
    | error e =>
      dsimp only
      split
      · rcases hrest : makeDirs cwd above t with ⟨e | ⟨⟩, t'⟩ <;> rw [hrest] at habove
        · exact habove
        · dsimp only
          cases hagain : t'.makeDir cwd p with
          | ok t'' => exact hstep List.mem_cons_self habove hagain
          | error e => exact habove
      · exact h

theorem isDir_of_orStanding {e : FileError} (h : t.orStanding cwd p e = .ok ()) :
    t.isDir cwd p = true := by
  rw [orStanding] at h
  split at h
  · assumption
  · cases h

/-- **Directories that have been made are there**, and so is the first of them. -/
theorem isDir_of_makeDirs {above : List Path} (h : (makeDirs cwd (p :: above) t).1 = .ok ()) :
    (makeDirs cwd (p :: above) t).2.isDir cwd p = true := by
  rw [makeDirs] at h ⊢
  cases hmake : t.makeDir cwd p with
  | ok t' => exact isDir_of_makeDir hmake
  | error e =>
    rw [hmake] at h
    dsimp only at h ⊢
    by_cases hmissing : e = .notFound
    · rw [if_pos hmissing] at h ⊢
      rcases hrest : makeDirs cwd above t with ⟨e | ⟨⟩, t'⟩ <;> rw [hrest] at h
      · cases h
      · dsimp only at h ⊢
        cases hagain : t'.makeDir cwd p with
        | ok t'' => exact isDir_of_makeDir hagain
        | error e =>
          rw [hagain] at h
          exact isDir_of_orStanding h
    · rw [if_neg hmissing] at h ⊢
      exact isDir_of_orStanding h

/-- Nothing is made where the first of the directories is there. -/
theorem makeDirs_of_isDir (h : t.isDir cwd p = true) (above : List Path) :
    makeDirs cwd (p :: above) t = (.ok (), t) := by
  rw [makeDirs, makeDir_of_isDir h]
  simp [orStanding, h]

/-- The directory itself is the first of those that lie on the way to it, unless it has no name. -/
theorem hasDirectory_of_makeDirs_ancestors (h : (makeDirs cwd dir.ancestors t).1 = .ok ()) :
    (dir.names ≠ [] → usable dir = .ok ()) ∧
      ∃ base, HasDirectory (makeDirs cwd dir.ancestors t).2 cwd dir base := by
  by_cases hnames : dir.names.isEmpty = true
  · rw [List.isEmpty_iff] at hnames
    refine ⟨fun hne => absurd hnames hne, origin cwd dir, [], ?_⟩
    rw [hnames]
    exact .done _ _
  · rw [Path.ancestors, if_neg hnames] at h ⊢
    obtain ⟨husable, hdir⟩ := isDir_iff.1 (isDir_of_makeDirs h)
    exact ⟨fun _ => husable, hdir⟩

theorem makeDirs_ancestors_of_hasDirectory (h : HasDirectory t cwd dir base)
    (husable : dir.names ≠ [] → usable dir = .ok ()) :
    makeDirs cwd dir.ancestors t = (.ok (), t) := by
  rw [Path.ancestors]
  split
  · rfl
  · rename_i hnames
    have hne : dir.names ≠ [] := fun hnil => hnames (List.isEmpty_iff.2 hnil)
    exact makeDirs_of_isDir (isDir_iff.2 ⟨husable hne, base, h⟩) _

/-! ## Clearing a directory -/

/-- Whether a path leads to the file that is to be kept. -/
def isKept (t : FileTree) (cwd : Location) (keep : Option Location) (p : Path) : Bool :=
  match keep with
  | none => false
  | some keep =>
    match t.canonical cwd p with
    | .ok loc => decide (loc = keep)
    | .error _ => false

/-- Removes an entry of a directory if it is a segment file and not the one to be kept: how many
that are, and the tree afterwards. -/
def clearEntry (t : FileTree) (cwd : Location) (dir : Path) (keep : Option Location)
    (entry : Bytes × Bool) : Except SplitError (Nat × FileTree) :=
  if entry.2 && (dir.join entry.1).isSegment && !t.isKept cwd keep (dir.join entry.1) then
    match t.remove cwd (dir.join entry.1) with
    | .error e => .error (.output (dir.join entry.1) (.file e))
    | .ok t' => .ok (1, t')
  else .ok (0, t)

/-- Removes the segment files among the entries of a directory, all but the one to be kept: their
number, added to `removed`, or the first failure, and the tree afterwards. -/
def clear (cwd : Location) (dir : Path) (keep : Option Location) :
    (removed : Nat) → List (Bytes × Bool) → FileTree → Except SplitError Nat × FileTree
  | removed, [], t => (.ok removed, t)
  | removed, entry :: rest, t =>
    match t.clearEntry cwd dir keep entry with
    | .error e => (.error e, t)
    | .ok (count, t') => clear cwd dir keep (removed + count) rest t'

/-- An entry of a directory that is to be removed: a regular file with the extension of segment
files, and not the one to be kept. -/
def isStale (dir : Path) (base : Location) (keep : Option Location) (entry : Bytes × Bool) :
    Bool :=
  entry.2 && (dir.join entry.1).isSegment && decide (keep ≠ some (entry.1 :: base))

/-- Where the entries stand that are to be removed. -/
def staleLocations (dir : Path) (base : Location) (keep : Option Location)
    (entries : List (Bytes × Bool)) : List Location :=
  (entries.filter (isStale dir base keep)).map fun entry => entry.1 :: base

variable {keep : Option Location} {name : Bytes} {content : Bytes} {entries : List (Bytes × Bool)}

/-- A file in the directory is kept if it is the one to be kept and its path can be used. -/
theorem isKept_join_iff (h : HasDirectory t cwd dir base) (hnamed : WellNamed t)
    (hfile : t.lookup (name :: base) = some (.file content)) :
    t.isKept cwd keep (dir.join name) = true ↔
      keep = some (name :: base) ∧ usable (dir.join name) = .ok () ∧ IsEntryName name := by
  have hentry : ∀ (loc : Location) (node : Node), t.entryAt cwd (dir.join name) = .ok (loc, node) ↔
      usable (dir.join name) = .ok () ∧ IsEntryName name ∧ loc = name :: base ∧
        t.lookup (name :: base) = some node := fun loc node =>
    h.entryAt_join_iff (hnamed.wellFormed name base _ hfile) (hnamed.ne_dot hfile)
      (hnamed.ne_up hfile) (by simp [hfile])
  constructor
  · intro hkept
    rcases keep with _ | keep
    · cases hkept
    rw [isKept, canonical] at hkept
    rcases hat : t.entryAt cwd (dir.join name) with e | ⟨loc, node⟩ <;> rw [hat] at hkept
    · cases hkept
    · obtain ⟨husable, hname, rfl, -⟩ := (hentry loc node).1 hat
      exact ⟨congrArg some (of_decide_eq_true hkept).symm, husable, hname⟩
  · rintro ⟨rfl, husable, hname⟩
    rw [isKept, canonical, (hentry _ _).2 ⟨husable, hname, rfl, hfile⟩]
    exact decide_eq_true rfl

/-- Entries of a directory that are still to be looked at. -/
structure Listed (t : FileTree) (cwd : Location) (dir : Path) (base : Location)
    (entries : List (Bytes × Bool)) : Prop where
  /-- The directory is at `base`. -/
  hasDirectory : HasDirectory t cwd dir base
  /-- The names in it mean their entries. -/
  wellNamed : WellNamed t
  /-- Each is to be looked at once. -/
  nodup : (entries.map Prod.fst).Nodup
  /-- What is listed as a regular file is one. -/
  file : ∀ name, (name, true) ∈ entries → ∃ content, t.lookup (name :: base) = some (.file content)

variable {entry : Bytes × Bool} {rest : List (Bytes × Bool)} {count : Nat}

theorem Listed.file_head (h : Listed t cwd dir base (entry :: rest)) (hfile : entry.2 = true) :
    ∃ content, t.lookup (entry.1 :: base) = some (.file content) := by
  refine h.file entry.1 ?_
  rw [← hfile]
  exact List.mem_cons_self

/-- **What becomes of one entry**: it is gone if it is stale, and nothing else has changed. -/
theorem clearEntry_eq_ok (h : Listed t cwd dir base (entry :: rest))
    (hclear : t.clearEntry cwd dir keep entry = .ok (count, t')) :
    isStale dir base keep entry = true ∧ count = 1 ∧ t' = t.erase (entry.1 :: base) ∨
      isStale dir base keep entry = false ∧ count = 0 ∧ t' = t := by
  have hhead := @h.file_head
  obtain ⟨name, isFile⟩ := entry
  rw [clearEntry] at hclear
  rw [isStale]
  by_cases hsegment : (isFile && (dir.join name).isSegment) = true
  · obtain ⟨content, hfile⟩ := hhead (Bool.and_eq_true_iff.1 hsegment).1
    have hiff : t.isKept cwd keep (dir.join name) = true ↔
        keep = some (name :: base) ∧ usable (dir.join name) = .ok () ∧ IsEntryName name :=
      isKept_join_iff h.hasDirectory h.wellNamed hfile
    cases hkept : t.isKept cwd keep (dir.join name) <;> simp only [hsegment, hkept] at hclear ⊢
    · cases hremove : t.remove cwd (dir.join name) with
      | error e =>
        rw [hremove] at hclear
        cases hclear
      | ok removed =>
        rw [hremove] at hclear
        cases hclear
        obtain ⟨-, loc, node, hown, -, -, rfl⟩ := remove_eq_ok_iff.1 hremove
        obtain ⟨husable, hname, rfl⟩ := (h.hasDirectory.ownLocation_join_iff
          (h.wellNamed.wellFormed name base _ hfile)).1 hown
        -- the path can be used, so the file to be kept would have been recognised
        have hne : keep ≠ some (name :: base) := by
          intro hkeep
          rw [hiff.2 ⟨hkeep, husable, hname⟩] at hkept
          cases hkept
        exact Or.inl ⟨by simp [hne], rfl, rfl⟩
    · cases hclear
      exact Or.inr ⟨by simp [(hiff.1 hkept).1], rfl, rfl⟩
  · simp only [hsegment, Bool.false_and] at hclear
    cases hclear
    exact Or.inr ⟨by simp [hsegment], rfl, rfl⟩

/-- **When an entry can be dealt with**: a segment file has to be reached by its path, whether it
is to be kept or to be removed. -/
theorem clearEntry_ok_iff (h : Listed t cwd dir base (entry :: rest)) :
    (∃ result, t.clearEntry cwd dir keep entry = .ok result) ↔
      (entry.2 = true → (dir.join entry.1).isSegment = true →
        usable (dir.join entry.1) = .ok () ∧ IsEntryName entry.1) := by
  have hhead := @h.file_head
  obtain ⟨name, isFile⟩ := entry
  rw [clearEntry]
  by_cases hsegment : (isFile && (dir.join name).isSegment) = true
  · obtain ⟨rfl, hextension⟩ := Bool.and_eq_true_iff.1 hsegment
    obtain ⟨content, hfile⟩ := hhead rfl
    have hpiece := h.wellNamed.wellFormed name base _ hfile
    have hiff : t.isKept cwd keep (dir.join name) = true ↔
        keep = some (name :: base) ∧ usable (dir.join name) = .ok () ∧ IsEntryName name :=
      isKept_join_iff h.hasDirectory h.wellNamed hfile
    simp only [hextension, forall_const]
    cases hkept : t.isKept cwd keep (dir.join name)
    · have hremoves : (∃ t', t.remove cwd (dir.join name) = .ok t') ↔
          usable (dir.join name) = .ok () ∧ IsEntryName name := by
        constructor
        · rintro ⟨t', hremove⟩
          obtain ⟨-, loc, node, hown, -⟩ := remove_eq_ok_iff.1 hremove
          obtain ⟨husable, hname, -⟩ := (h.hasDirectory.ownLocation_join_iff hpiece).1 hown
          exact ⟨husable, hname⟩
        · rintro ⟨husable, hname⟩
          exact ⟨_, remove_eq_ok_iff.2 ⟨Path.endsInSlash_join hpiece dir, _, _,
            (h.hasDirectory.ownLocation_join_iff hpiece).2 ⟨husable, hname, rfl⟩, hfile, by simp,
            rfl⟩⟩
      rw [← hremoves]
      cases t.remove cwd (dir.join name) <;> simp
    · simpa using (hiff.1 hkept).2
  · simp only [hsegment, Bool.false_and]
    refine ⟨fun _ hfile hextension => absurd ?_ hsegment, fun _ => ⟨(0, t), rfl⟩⟩
    exact Bool.and_eq_true_iff.2 ⟨hfile, hextension⟩

/-- The other entries are still to be looked at. -/
theorem Listed.clearEntry (h : Listed t cwd dir base (entry :: rest))
    (hclear : t.clearEntry cwd dir keep entry = .ok (count, t')) : Listed t' cwd dir base rest := by
  obtain ⟨hfresh, hrest⟩ := List.nodup_cons.1 h.nodup
  have hfiles := fun name hname => h.file name (List.mem_cons_of_mem entry hname)
  rcases clearEntry_eq_ok h hclear with ⟨hstale, -, rfl⟩ | ⟨-, -, rfl⟩
  · have hne : entry.1 :: base ≠ [] := List.cons_ne_nil entry.1 base
    obtain ⟨content, hcontent⟩ := h.file_head (by simp_all [isStale])
    refine ⟨h.hasDirectory.of_keepsWays (keepsWays_erase hne (Or.inr ⟨content, hcontent⟩)),
      h.wellNamed.erase hne, hrest, fun other hother => ?_⟩
    obtain ⟨content', hcontent'⟩ := hfiles other hother
    refine ⟨content', ?_⟩
    rw [lookup_erase t _ hne, if_neg, hcontent']
    intro heq
    rw [← (List.cons.inj heq).1] at hfresh
    exact hfresh (List.mem_map_of_mem (f := Prod.fst) hother)
  · exact ⟨h.hasDirectory, h.wellNamed, hrest, hfiles⟩

theorem clearEntry_eq_error {e : SplitError}
    (h : t.clearEntry cwd dir keep entry = .error e) :
    ∃ path cause, e = .output path (.file cause) := by
  rw [clearEntry] at h
  split at h
  · cases hremove : t.remove cwd (dir.join entry.1) with
    | error cause =>
      rw [hremove] at h
      cases h
      exact ⟨_, cause, rfl⟩
    | ok removed =>
      rw [hremove] at h
      cases h
  · cases h

theorem clear_error_is_output {removed : Nat} {e : SplitError} :
    (clear cwd dir keep removed entries t).1 = .error e →
      ∃ path cause, e = .output path (.file cause) := by
  induction entries generalizing removed t with
  | nil => exact fun h => by cases h
  | cons entry rest ih =>
    rw [clear]
    cases hentry : t.clearEntry cwd dir keep entry with
    | error cause =>
      intro h
      cases h
      exact clearEntry_eq_error hentry
    | ok result => exact ih

/-- **What clearing a directory removes**: the stale ones among its entries and nothing else. -/
theorem clear_eq_ok (h : Listed t cwd dir base entries) {removed total : Nat}
    (hclear : clear cwd dir keep removed entries t = (.ok total, t')) :
    total = removed + (staleLocations dir base keep entries).length ∧
      ∀ l, t'.lookup l = if l ∈ staleLocations dir base keep entries then none else t.lookup l := by
  induction entries generalizing removed t with
  | nil =>
    cases hclear
    exact ⟨rfl, fun l => rfl⟩
  | cons entry rest ih =>
    rw [clear] at hclear
    rcases hentry : t.clearEntry cwd dir keep entry with e | ⟨count, t₁⟩ <;> rw [hentry] at hclear
    · cases hclear
    obtain ⟨htotal, hlookup⟩ := ih (h.clearEntry hentry) hclear
    rcases clearEntry_eq_ok h hentry with ⟨hstale, rfl, rfl⟩ | ⟨hstale, rfl, rfl⟩
    · have hlocations : staleLocations dir base keep (entry :: rest)
          = (entry.1 :: base) :: staleLocations dir base keep rest := by
        rw [staleLocations, List.filter_cons_of_pos hstale]
        rfl
      refine ⟨by rw [htotal, hlocations, List.length_cons]; omega, fun l => ?_⟩
      rw [hlookup l, hlocations, lookup_erase t l (List.cons_ne_nil entry.1 base)]
      by_cases hl : l = entry.1 :: base <;> simp [hl]
    · have hlocations : staleLocations dir base keep (entry :: rest)
          = staleLocations dir base keep rest := by
        rw [staleLocations, List.filter_cons_of_neg (by simp [hstale])]
        rfl
      rw [hlocations]
      exact ⟨htotal, hlookup⟩

/-- **When a directory can be cleared**: every segment file in it has to be reached by its path. -/
theorem clear_ok_iff (h : Listed t cwd dir base entries) {removed : Nat} :
    (∃ total, (clear cwd dir keep removed entries t).1 = .ok total) ↔
      ∀ name, (name, true) ∈ entries → (dir.join name).isSegment = true →
        usable (dir.join name) = .ok () ∧ IsEntryName name := by
  induction entries generalizing removed t with
  | nil => simp [clear]
  | cons entry rest ih =>
    rw [clear]
    have hiff := @clearEntry_ok_iff t cwd base dir keep entry rest h
    rcases hentry : t.clearEntry cwd dir keep entry with e | ⟨count, t₁⟩
    · refine ⟨fun ⟨_, hok⟩ => (by cases hok), fun hall => absurd hiff.2 fun hsome => ?_⟩
      obtain ⟨result, hresult⟩ := hsome fun hfile hsegment =>
        hall entry.1 (by rw [← hfile]; exact List.mem_cons_self) hsegment
      cases hentry.symm.trans hresult
    · refine (ih (h.clearEntry hentry)).trans
        ⟨fun hrest name hname hsegment => ?_, fun hall name hname =>
          hall name (List.mem_cons_of_mem _ hname)⟩
      rcases List.mem_cons.1 hname with rfl | hname
      · exact hiff.1 ⟨_, hentry⟩ rfl hsegment
      · exact hrest name hname hsegment

/-! ## Both -/

/-- Makes the directory for segments and, if asked to, removes the segment files in it but the one
at the path `keep`: how many, or the first failure, and the tree afterwards. -/
def prepareDirectory (t : FileTree) (cwd : Location) (dir : Path) (clean : Bool)
    (keep : Option Path) : Except SplitError Nat × FileTree :=
  match makeDirs cwd dir.ancestors t with
  | (.error e, t') => (.error (.output dir (.file e)), t')
  | (.ok (), t') =>
    if clean then
      match t'.list cwd dir with
      | .error e => (.error (.output dir (.file e)), t')
      | .ok entries => clear cwd dir (keep.bind fun p => (t'.canonical cwd p).toOption) 0 entries t'
    else (.ok 0, t')

/-- What preparing an output directory has done once it has succeeded.  The directory is at `base`;
the entries at `stale` are gone from the tree `made`, in which the directory has just been made. -/
structure Prepared (made t' : FileTree) (cwd : Location) (dir : Path) (clean : Bool)
    (keep : Option Location) (base : Location) (stale : List Location) : Prop where
  /-- The directory was there before anything was removed. -/
  hasDirectory_made : HasDirectory made cwd dir base
  /-- It is still there. -/
  hasDirectory : HasDirectory t' cwd dir base
  /-- Nothing is counted twice. -/
  nodup : stale.Nodup
  /-- What is removed: the regular files directly in the directory that have the extension of
  segment files, but for the one to be kept. -/
  mem_stale_iff : ∀ l, l ∈ stale ↔ clean = true ∧ keep ≠ some l ∧
    ∃ name content, l = name :: base ∧ made.lookup l = some (.file content) ∧
      (dir.join name).isSegment = true
  /-- Everything else is as it was. -/
  lookup : ∀ l, t'.lookup l = if l ∈ stale then none else made.lookup l

theorem WellNamed.makeDirs (h : WellNamed t) (cwd : Location) (paths : List Path) :
    WellNamed (makeDirs cwd paths t).2 :=
  makeDirs_induction (fun _ hnamed hmake => hnamed.makeDir hmake) h

theorem mem_staleLocations_iff (dir : Path) (keep : Option Location)
    (hfiles : ∀ name, (name, true) ∈ entries ↔
      ∃ content, t.lookup (name :: base) = some (.file content)) (l : Location) :
    l ∈ staleLocations dir base keep entries ↔ keep ≠ some l ∧ ∃ name content, l = name :: base ∧
      t.lookup l = some (.file content) ∧ (dir.join name).isSegment = true := by
  simp only [staleLocations, List.mem_map, List.mem_filter, isStale, Bool.and_eq_true,
    decide_eq_true_eq]
  constructor
  · rintro ⟨⟨name, isFile⟩, ⟨hentry, ⟨hfile, hsegment⟩, hkeep⟩, rfl⟩
    dsimp only at hfile
    subst hfile
    obtain ⟨content, hcontent⟩ := (hfiles name).1 hentry
    exact ⟨hkeep, name, content, rfl, hcontent, hsegment⟩
  · rintro ⟨hkeep, name, content, rfl, hcontent, hsegment⟩
    exact ⟨(name, true), ⟨(hfiles name).2 ⟨content, hcontent⟩, ⟨rfl, hsegment⟩, hkeep⟩, rfl⟩

theorem nodup_staleLocations (hnodup : (entries.map Prod.fst).Nodup) :
    (staleLocations dir base keep entries).Nodup := by
  have hsub : ((entries.filter (isStale dir base keep)).map Prod.fst).Nodup :=
    hnodup.sublist (List.filter_sublist.map _)
  have hmap : staleLocations dir base keep entries
      = ((entries.filter (isStale dir base keep)).map Prod.fst).map (· :: base) := by
    rw [staleLocations, List.map_map]
    rfl
  rw [hmap]
  exact hsub.map fun _ _ heq => (List.cons.inj heq).1

/-- **What preparing an output directory does**, if it succeeds. -/
theorem prepared_of_prepareDirectory (hnamed : WellNamed t) {clean : Bool} {keep : Option Path}
    {removed : Nat} (h : prepareDirectory t cwd dir clean keep = (.ok removed, t')) :
    ∃ base stale, removed = stale.length ∧
      Prepared (makeDirs cwd dir.ancestors t).2 t' cwd dir clean
        (keep.bind fun p => ((makeDirs cwd dir.ancestors t).2.canonical cwd p).toOption)
        base stale := by
  have hmadeNamed := hnamed.makeDirs cwd dir.ancestors
  have hmade := @hasDirectory_of_makeDirs_ancestors t cwd dir
  rw [prepareDirectory] at h
  generalize makeDirs cwd dir.ancestors t = outcome at h hmadeNamed hmade ⊢
  rcases outcome with ⟨e | ⟨⟩, made⟩
  · cases h
  obtain ⟨-, base, hdir⟩ := hmade rfl
  dsimp only at h hdir hmadeNamed ⊢
  cases clean with
  | false =>
    cases h
    exact ⟨base, [], rfl, hdir, hdir, List.nodup_nil, by simp, by simp⟩
  | true =>
    rw [if_pos rfl] at h
    cases hlist : made.list cwd dir with
    | error e =>
      rw [hlist] at h
      cases h
    | ok entries =>
      rw [hlist] at h
      obtain ⟨base', hdir', hnodup, hfiles⟩ := list_eq_ok hlist
      obtain rfl := hdir'.unique hdir
      generalize (keep.bind fun p => (made.canonical cwd p).toOption) = keep at h ⊢
      obtain ⟨hremoved, hlookup⟩ :=
        clear_eq_ok ⟨hdir, hmadeNamed, hnodup, fun name => (hfiles name).1⟩ h
      rw [Nat.zero_add] at hremoved
      have hmem := mem_staleLocations_iff dir keep hfiles
      refine ⟨base, staleLocations dir base keep entries, hremoved, hdir, ?_,
        nodup_staleLocations hnodup, fun l => by rw [hmem l]; simp, hlookup⟩
      -- no directory and no link has been removed
      refine hdir.of_keepsWays fun l node hl hnode => ?_
      rw [hlookup l, if_neg, hl]
      intro hstale
      obtain ⟨-, name, content, -, hcontent, -⟩ := (hmem l).1 hstale
      rw [hcontent] at hl
      cases hl
      cases hnode

theorem prepareDirectory_eq_error {clean : Bool} {keep : Option Path} {e : SplitError}
    (h : prepareDirectory t cwd dir clean keep = (.error e, t')) :
    ∃ path cause, e = .output path (.file cause) := by
  rw [prepareDirectory] at h
  generalize makeDirs cwd dir.ancestors t = outcome at h
  rcases outcome with ⟨cause | ⟨⟩, made⟩
  · cases h
    exact ⟨_, cause, rfl⟩
  dsimp only at h
  split at h
  · cases hlist : made.list cwd dir with
    | error cause =>
      rw [hlist] at h
      cases h
      exact ⟨_, cause, rfl⟩
    | ok entries =>
      rw [hlist] at h
      exact clear_error_is_output (congrArg Prod.fst h)
  · cases h

end FileTree

/-! ## On a host -/

theorem makeDirs_onHost (paths : List Path) (host : Host) :
    (makeDirs paths : OnHost (Except FileError Unit)) host
      = ((FileTree.makeDirs host.cwd paths host.files).1,
          { host with files := (FileTree.makeDirs host.cwd paths host.files).2 }) := by
  induction paths generalizing host with
  | nil => rfl
  | cons p above ih =>
    rw [makeDirs, FileTree.makeDirs]
    cases hmake : host.files.makeDir host.cwd p with
    | ok files =>
      have hhost : (Storage.makeDir p : OnHost _) host = (.ok (), { host with files }) :=
        OnHost.change_ok hmake
      exact OnHost.bind_of_eq hhost _
    | error e =>
      have hhost : (Storage.makeDir p : OnHost _) host = (.error e, host) :=
        OnHost.change_error hmake
      refine (OnHost.bind_of_eq hhost _).trans ?_
      cases e with
      | notFound =>
        have habove := ih host
        generalize FileTree.makeDirs host.cwd above host.files = outcome at habove ⊢
        simp only [if_true]
        rw [OnHost.bind_of_eq habove]
        rcases outcome with ⟨e | ⟨⟩, files⟩
        · rfl
        · dsimp only
          cases hagain : files.makeDir host.cwd p with
          | ok files' =>
            have hhost' : (Storage.makeDir p : OnHost _) { host with files }
                = (.ok (), { host with files := files' }) := OnHost.change_ok hagain
            exact OnHost.bind_of_eq hhost' _
          | error e =>
            have hhost' : (Storage.makeDir p : OnHost _) { host with files }
                = (.error e, { host with files }) := OnHost.change_error hagain
            exact OnHost.bind_of_eq hhost' _
      | _ => rfl

section

variable {α : Type} (p : Path) (host : Host)

theorem canonical_onHost (f : Except FileError Location → OnHost α) :
    ((Storage.canonical p : OnHost _) >>= f) host = f (host.files.canonical host.cwd p) host := rfl

/-- Whether a file is kept is settled by looking it up. -/
theorem isKept_onHost (keep : Option Location) (f : Bool → OnHost α) :
    (match keep with
      | none => f false
      | some keep => (Storage.canonical p : OnHost _) >>= fun
        | .ok loc => f (decide (loc = keep))
        | .error _ => f false) host
      = f (host.files.isKept host.cwd keep p) host := by
  cases keep with
  | none => rfl
  | some keep =>
    dsimp only
    rw [canonical_onHost, FileTree.isKept]
    cases host.files.canonical host.cwd p with
    | error e => rfl
    | ok loc => rfl

/-- So is where the file to be kept is. -/
theorem keep_onHost (keep : Option Path) (f : Option Location → OnHost α) :
    (match keep with
      | none => f none
      | some path => (Storage.canonical path : OnHost _) >>= fun
        | .ok loc => f (some loc)
        | .error _ => f none) host
      = f (keep.bind fun path => (host.files.canonical host.cwd path).toOption) host := by
  cases keep with
  | none => rfl
  | some path =>
    dsimp only
    rw [canonical_onHost, Option.bind_some]
    cases host.files.canonical host.cwd path with
    | error e => rfl
    | ok loc => rfl

end

/-- How the segment files among some entries are removed once it is known whether the first of them
is kept. -/
def removeSegmentsBehind (dir : Path) (keep : Option Location) (removed : Nat) (name : Bytes)
    (rest : List (Bytes × Bool)) (kept : Bool) : OnHost (Except SplitError Nat) :=
  if kept then do
    Journal.record (.inputKept (dir.join name))
    removeSegments dir keep removed rest
  else do
    match ← (Storage.remove (dir.join name) : OnHost _) with
    | .error e => return .error (.output (dir.join name) (.file e))
    | .ok () =>
      Journal.record (.fileRemoved (dir.join name))
      removeSegments dir keep (removed + 1) rest

theorem removeSegments_onHost (dir : Path) (keep : Option Location)
    (entries : List (Bytes × Bool)) (removed : Nat) (host : Host) :
    ∃ journal, (removeSegments dir keep removed entries : OnHost _) host
      = ((FileTree.clear host.cwd dir keep removed entries host.files).1,
          { host with
            files := (FileTree.clear host.cwd dir keep removed entries host.files).2
            journal }) := by
  induction entries generalizing removed host with
  | nil => exact ⟨host.journal, rfl⟩
  | cons entry rest ih =>
    obtain ⟨name, isFile⟩ := entry
    rw [removeSegments, FileTree.clear, FileTree.clearEntry]
    dsimp only
    by_cases hsegment : (isFile && (dir.join name).isSegment) = true
    · have hkept := isKept_onHost (dir.join name) host keep
        (removeSegmentsBehind dir keep removed name rest)
      rw [if_pos hsegment, hsegment, Bool.true_and]
      refine Exists.imp (fun _ => hkept.trans) ?_
      cases host.files.isKept host.cwd keep (dir.join name) with
      | true =>
        exact ih removed { host with journal := host.journal ++ [.inputKept (dir.join name)] }
      | false =>
        cases hremove : host.files.remove host.cwd (dir.join name) with
        | error e =>
          have hhost : (Storage.remove (dir.join name) : OnHost _) host = (.error e, host) :=
            OnHost.change_error hremove
          exact ⟨host.journal, OnHost.bind_of_eq hhost _⟩
        | ok files =>
          have hhost : (Storage.remove (dir.join name) : OnHost _) host
              = (.ok (), { host with files }) := OnHost.change_ok hremove
          obtain ⟨journal, hrest⟩ := ih (removed + 1)
            { host with files, journal := host.journal ++ [.fileRemoved (dir.join name)] }
          exact ⟨journal, (OnHost.bind_of_eq hhost _).trans hrest⟩
    · rw [if_neg hsegment, Bool.not_eq_true] at *
      rw [hsegment]
      exact ih removed host

/-- **What preparing an output directory does to the files of a host.** -/
theorem prepareDirectory_onHost (dir : Path) (clean : Bool) (keep : Option Path) (host : Host) :
    ∃ journal, (prepareDirectory dir clean keep : OnHost _) host
      = ((host.files.prepareDirectory host.cwd dir clean keep).1,
          { host with
            files := (host.files.prepareDirectory host.cwd dir clean keep).2
            journal }) := by
  have hmade := makeDirs_onHost dir.ancestors host
  rw [prepareDirectory, FileTree.prepareDirectory]
  generalize FileTree.makeDirs host.cwd dir.ancestors host.files = outcome at hmade ⊢
  rw [OnHost.bind_of_eq hmade]
  rcases outcome with ⟨e | ⟨⟩, files⟩
  · exact ⟨host.journal, rfl⟩
  cases clean with
  | false => exact ⟨host.journal, rfl⟩
  | true =>
    simp only [Bool.not_true, Bool.false_eq_true, if_false, if_true]
    have hkeep := keep_onHost { host with files } keep fun keep => do
      match ← (Storage.list dir : OnHost _) with
      | .error e => return .error (.output dir (.file e))
      | .ok entries => removeSegments dir keep 0 entries
    have hlist : (Storage.list dir : OnHost _) { host with files }
        = (files.list host.cwd dir, { host with files }) := rfl
    refine Exists.imp (fun _ => hkeep.trans) ?_
    rw [OnHost.bind_of_eq hlist]
    cases files.list host.cwd dir with
    | error e => exact ⟨host.journal, rfl⟩
    | ok entries => exact removeSegments_onHost dir _ entries 0 { host with files }

end LogSplit
