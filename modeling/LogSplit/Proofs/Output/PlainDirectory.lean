import LogSplit.Proofs.File.Plain
import LogSplit.Proofs.Output.Preparation
import LogSplit.Proofs.Output.SegmentNames

/-!
# The output directory in a plain tree

In a tree without links what preparing an output directory does can be read off the path of the
directory and the names in it (`readied_of_prepareDirectory`).  The directories that the path passes
are there afterwards; where one is new there was nothing before.  If the directory is to be cleared
then the regular files directly in it that have the name of a segment file are gone, all but the
input.  Nothing else changes.

A directory that is there already can be prepared if the paths that are needed for it can be used
(`Accessible.prepareDirectory`), and those had to be for it to be prepared the first time
(`Plain.accessible_of_prepareDirectory`).
-/

set_option autoImplicit false

namespace LogSplit

namespace FileTree

variable {t t' made : FileTree} {cwd : Location} {dir p : Path} {l : Location}

/-! ## Making the directory -/

/-- Directories on the way to `dir` have been made where nothing was, which has made the tree `t'`
of `t`. -/
structure Opened (t t' : FileTree) (cwd : Location) (dir : Path) : Prop where
  /-- There is still no link. -/
  plain : Plain t'
  /-- Nothing but new directories has come. -/
  lookup : ∀ l, t'.lookup l = t.lookup l ∨
    l ∈ directoriesOn cwd dir ∧ t.lookup l = none ∧ t'.lookup l = some .directory

theorem Opened.makeDir (h : Opened t made cwd dir) (habove : Path.Above p dir)
    (hmake : made.makeDir cwd p = .ok t') : Opened t t' cwd dir where
  plain := h.plain.makeDir hmake
  lookup l := by
    obtain ⟨loc, hown, hvacant, rfl⟩ := makeDir_eq_ok_iff.1 hmake
    rw [lookup_insert made _ l (ownLocation_ne_nil hown)]
    split
    · rename_i hl
      subst hl
      have hnone : t.lookup l = none := by
        rcases h.lookup l with heq | ⟨-, hnone, -⟩
        · rw [← heq, hvacant]
        · exact hnone
      exact Or.inr ⟨h.plain.mem_directoriesOn_of_above habove hown, hnone, rfl⟩
    · exact h.lookup l

theorem Plain.opened (h : Plain t) (cwd : Location) (dir : Path) :
    Opened t (makeDirs cwd dir.ancestors t).2 cwd dir :=
  makeDirs_induction (motive := fun made => Opened t made cwd dir)
    (fun hq hopened => hopened.makeDir (Path.above_of_mem_ancestors hq)) ⟨h, fun _ => Or.inl rfl⟩

theorem Opened.lookup_of_notMem (h : Opened t t' cwd dir) (hl : l ∉ directoriesOn cwd dir) :
    t'.lookup l = t.lookup l :=
  (h.lookup l).resolve_right fun hnew => hl hnew.1

theorem Opened.lookup_file_iff (h : Opened t t' cwd dir) {content : Bytes} :
    t'.lookup l = some (.file content) ↔ t.lookup l = some (.file content) := by
  rcases h.lookup l with heq | ⟨-, hnone, hdir⟩
  · rw [heq]
  · simp [hnone, hdir]

/-! ## Making it ready -/

/-- The regular files that are removed from the directory at `base`: those with the name of a
segment file, but for the input. -/
def IsOutdated (t : FileTree) (base input l : Location) : Prop :=
  l ≠ input ∧ ∃ name content, l = name :: base ∧ t.lookup l = some (.file content) ∧
    IsSegmentName name

/-- An output directory has been prepared, which has made the tree `t'` of `t`.  The file at `input`
is to be kept. -/
structure Readied (t t' : FileTree) (cwd : Location) (dir : Path) (clean : Bool) (input : Location)
    (stale : List Location) : Prop where
  /-- There is still no link. -/
  plain : Plain t'
  /-- The directory is there. -/
  hasDirectory : HasDirectory t' cwd dir (directoryOf cwd dir)
  /-- Where a directory is on the way there was one before, or nothing. -/
  before : ∀ l ∈ directoriesOn cwd dir, t.lookup l = none ∨ t.lookup l = some .directory
  /-- Nothing is counted twice. -/
  nodup : stale.Nodup
  /-- What has been removed. -/
  mem_stale_iff : ∀ l, l ∈ stale ↔ clean = true ∧ IsOutdated t (directoryOf cwd dir) input l
  /-- It is gone. -/
  removed : ∀ l ∈ stale, t'.lookup l = none
  /-- Everything else is as it was. -/
  other : ∀ l, l ∉ directoriesOn cwd dir → l ∉ stale → t'.lookup l = t.lookup l

theorem WellNamed.isSegment_join_iff (h : WellNamed t) {name : Bytes} {base : Location}
    {node : Node} (hnode : t.lookup (name :: base) = some node) (dir : Path) :
    (dir.join name).isSegment = true ↔ IsSegmentName name :=
  Path.isSegment_join_iff (h.wellFormed name base _ hnode) (h.ne_dot hnode) (h.ne_up hnode) dir

/-- **Preparing an output directory in a plain tree.** -/
theorem readied_of_prepareDirectory (hplain : Plain t) {clean : Bool} {input : Location}
    {bytes : Bytes} (hinput : t.entryAt cwd p = .ok (input, .file bytes)) {removed : Nat}
    (h : t.prepareDirectory cwd dir clean (some p) = (.ok removed, t')) :
    ∃ stale, removed = stale.length ∧ Readied t t' cwd dir clean input stale := by
  obtain ⟨base, stale, rfl, hprepared⟩ := prepared_of_prepareDirectory hplain.wellNamed h
  have hopened := hplain.opened cwd dir
  have hgrows := grows_makeDirs cwd dir.ancestors t
  generalize (makeDirs cwd dir.ancestors t).2 = made at hprepared hopened hgrows
  have hcanonical : made.canonical cwd p = .ok input := by
    rw [canonical, hgrows.entryAt hinput]
    rfl
  rw [Option.bind_some, hcanonical] at hprepared
  obtain rfl := hprepared.hasDirectory_made.eq_directoryOf hopened.plain
  have hstale : ∀ l, l ∈ stale ↔ clean = true ∧ IsOutdated t (directoryOf cwd dir) input l := by
    intro l
    rw [hprepared.mem_stale_iff l, IsOutdated]
    refine and_congr_right fun _ => and_congr ⟨fun hne heq => hne (heq ▸ rfl), fun hne heq => ?_⟩ ?_
    · exact hne (Option.some.inj heq).symm
    · refine exists_congr fun name => exists_congr fun content => and_congr_right fun hl => ?_
      rw [hopened.lookup_file_iff]
      refine and_congr_right fun hfile => ?_
      rw [hl] at hfile
      exact hplain.wellNamed.isSegment_join_iff hfile dir
  have hplain' : Plain t' := by
    refine hopened.plain.of_lookup fun l node hnode => ?_
    rw [hprepared.lookup l] at hnode
    split at hnode
    · cases hnode
    · exact hnode
  refine ⟨stale, rfl, hplain', hprepared.hasDirectory, ?_, hprepared.nodup, hstale, ?_, ?_⟩
  · intro l hl
    rcases hopened.lookup l with heq | ⟨-, hnone, -⟩
    · rw [← heq]
      exact Or.inr (hprepared.hasDirectory_made.lookup_of_mem_directoriesOn hopened.plain hl)
    · exact Or.inl hnone
  · intro l hl
    rw [hprepared.lookup l, if_pos hl]
  · intro l hl hl'
    rw [hprepared.lookup l, if_neg hl', hopened.lookup_of_notMem hl]

/-- A directory on the way stays one. -/
theorem Readied.lookup_directory {clean : Bool} {input : Location} {stale : List Location}
    (h : Readied t t' cwd dir clean input stale) (hl : t.lookup l = some .directory) :
    t'.lookup l = some .directory := by
  by_cases hon : l ∈ directoriesOn cwd dir
  · exact h.hasDirectory.lookup_of_mem_directoriesOn h.plain hon
  · rw [h.other l hon, hl]
    intro hstale
    obtain ⟨-, -, name, content, -, hfile, -⟩ := (h.mem_stale_iff l).1 hstale
    cases hl.symm.trans hfile

/-! ## Preparing a directory that is there -/

/-- The paths that are needed to prepare an output directory can be used: its own, if it has a name
or is to be cleared, and in this case those of the segment files in it. -/
structure Accessible (t : FileTree) (cwd : Location) (dir : Path) (clean : Bool) : Prop where
  /-- The directory. -/
  path : dir.names ≠ [] ∨ clean = true → usable dir = .ok ()
  /-- The files. -/
  entry : clean = true → ∀ name content,
    t.lookup (name :: directoryOf cwd dir) = some (.file content) → IsSegmentName name →
      usable (dir.join name) = .ok () ∧ IsEntryName name

variable {clean : Bool} {keep : Option Path} {removed : Nat} {input : Location}
  {stale : List Location}

/-- **What has been prepared is accessible.** -/
theorem Plain.accessible_of_prepareDirectory (h : Plain t)
    (hprepare : t.prepareDirectory cwd dir clean keep = (.ok removed, t')) :
    Accessible t cwd dir clean := by
  have hopened := h.opened cwd dir
  have hmade := @hasDirectory_of_makeDirs_ancestors t cwd dir
  rw [prepareDirectory] at hprepare
  generalize makeDirs cwd dir.ancestors t = outcome at hprepare hopened hmade
  rcases outcome with ⟨e | ⟨⟩, made⟩
  · cases hprepare
  obtain ⟨hpath, base, hdir⟩ := hmade rfl
  dsimp only at hprepare hopened hdir
  cases clean with
  | false => exact ⟨fun hneeded => hpath (by simpa using hneeded), fun hclean => by cases hclean⟩
  | true =>
    rw [if_pos rfl] at hprepare
    cases hlist : made.list cwd dir with
    | error e =>
      rw [hlist] at hprepare
      cases hprepare
    | ok entries =>
      rw [hlist] at hprepare
      obtain ⟨base', hdir', hnodup, hfiles⟩ := list_eq_ok hlist
      obtain rfl := hdir'.eq_directoryOf hopened.plain
      have hreaches := (clear_ok_iff ⟨hdir', hopened.plain.wellNamed, hnodup, fun name =>
        (hfiles name).1⟩).1 ⟨removed, congrArg Prod.fst hprepare⟩
      refine ⟨fun _ => (isDir_iff.1 (exists_list_iff.1 ⟨entries, hlist⟩)).1,
        fun _ name content hfile hname => ?_⟩
      rw [← hopened.lookup_file_iff] at hfile
      exact hreaches name ((hfiles name).2 ⟨content, hfile⟩)
        ((hopened.plain.wellNamed.isSegment_join_iff hfile dir).2 hname)

/-- **A directory that is there and accessible can be prepared.** -/
theorem Accessible.prepareDirectory (h : Accessible t cwd dir clean) (hplain : Plain t)
    (hdir : HasDirectory t cwd dir (directoryOf cwd dir)) (keep : Option Path) :
    ∃ removed t', t.prepareDirectory cwd dir clean keep = (.ok removed, t') := by
  rw [FileTree.prepareDirectory,
    makeDirs_ancestors_of_hasDirectory hdir fun hnames => h.path (Or.inl hnames)]
  cases clean with
  | false => exact ⟨0, t, rfl⟩
  | true =>
    obtain ⟨entries, hlist⟩ := exists_list_iff.2 (isDir_iff.2 ⟨h.path (Or.inr rfl), _, hdir⟩)
    obtain ⟨base, hdir', hnodup, hfiles⟩ := list_eq_ok hlist
    obtain rfl := hdir'.unique hdir
    have hlisted : Listed t cwd dir (directoryOf cwd dir) entries :=
      ⟨hdir, hplain.wellNamed, hnodup, fun name => (hfiles name).1⟩
    have hreaches : ∀ name, (name, true) ∈ entries → (dir.join name).isSegment = true →
        usable (dir.join name) = .ok () ∧ IsEntryName name := by
      intro name hname hsegment
      obtain ⟨content, hfile⟩ := (hfiles name).1 hname
      exact h.entry rfl name content hfile
        ((hplain.wellNamed.isSegment_join_iff hfile dir).1 hsegment)
    dsimp only
    rw [if_pos rfl, hlist]
    obtain ⟨removed, hclear⟩ := (clear_ok_iff hlisted).2 hreaches
    exact ⟨removed, _, Prod.ext hclear rfl⟩

/-- All that has changed when such a directory has been prepared. -/
theorem Readied.lookup_of_hasDirectory (h : Readied t t' cwd dir clean input stale)
    (hplain : Plain t) (hdir : HasDirectory t cwd dir (directoryOf cwd dir)) (l : Location) :
    t'.lookup l = if l ∈ stale then none else t.lookup l := by
  split
  · exact h.removed l (by assumption)
  · by_cases hon : l ∈ directoriesOn cwd dir
    · rw [hdir.lookup_of_mem_directoriesOn hplain hon,
        h.hasDirectory.lookup_of_mem_directoriesOn h.plain hon]
    · exact h.other l hon (by assumption)

/-- It has the directories that it had. -/
theorem Readied.directory_iff (h : Readied t t' cwd dir clean input stale) (hplain : Plain t)
    (hdir : HasDirectory t cwd dir (directoryOf cwd dir)) (l : Location) :
    t'.lookup l = some .directory ↔ t.lookup l = some .directory := by
  refine ⟨fun hl => ?_, h.lookup_directory⟩
  rw [h.lookup_of_hasDirectory hplain hdir l] at hl
  split at hl
  · cases hl
  · exact hl

end FileTree

end LogSplit
