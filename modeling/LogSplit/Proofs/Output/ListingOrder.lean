import LogSplit.Proofs.File.Plain
import LogSplit.Proofs.Output.Preparation
import LogSplit.Proofs.Output.SegmentNames

/-!
# Preparing an output directory, in whatever order it is listed

A system may list the entries of a directory in any order, and the segment files among them are
removed one after the other in that order.  `OnHost.listedIn` is a host on which a listing comes in
some other order than that of the tree, and what is shown here holds of every one of them: the files
that are gone afterwards are the segment files directly in the directory but for the one that is
kept, and nothing else has changed but that directories have been made
(`prepareDirectory_listedIn`).

Links may stand anywhere.  So what has been made is told by the paths that lead there: the path of
the directory or of one above it (`IsSameOrMade`).
-/

set_option autoImplicit false

namespace LogSplit

/-! ## Hosts that list in another order -/

namespace OnHost

/-- The files of a host on which the entries of a directory are listed in another order. -/
@[reducible] def listedIn (order : List (Bytes × Bool) → List (Bytes × Bool)) : Storage OnHost :=
  { (inferInstance : Storage OnHost) with
    list := fun p => ask fun files cwd => (files.list cwd p).map order }

variable (order : List (Bytes × Bool) → List (Bytes × Bool))

/-- Prepares an output directory on such a host. -/
def prepareDirectoryIn (dir : Path) (clean : Bool) (keep : Option Path) :
    OnHost (Except SplitError Nat) :=
  @prepareDirectory OnHost _ (listedIn order) _ dir clean keep

theorem makeDirs_listedIn (paths : List Path) :
    @makeDirs OnHost _ (listedIn order) paths = makeDirs paths := by
  induction paths with
  | nil => rfl
  | cons p above ih =>
    have hstep := @makeDirs.eq_2 OnHost _ (listedIn order) p above
    rw [ih] at hstep
    exact hstep

theorem removeSegments_listedIn (dir : Path) (keep : Option Location)
    (entries : List (Bytes × Bool)) : ∀ removed,
    @removeSegments OnHost _ (listedIn order) _ dir keep removed entries
      = removeSegments dir keep removed entries := by
  induction entries with
  | nil => exact fun _ => rfl
  | cons entry rest ih =>
    intro removed
    have hstep := @removeSegments.eq_2 OnHost _ (listedIn order) _ dir keep removed entry.1
      entry.2 rest
    rw [ih, ih] at hstep
    exact hstep

/-- Only the listing is different. -/
theorem prepareDirectoryIn_eq (dir : Path) (clean : Bool) (keep : Option Path) :
    prepareDirectoryIn order dir clean keep = (do
      match ← makeDirs dir.ancestors with
      | .error e => return .error (.output dir (.file e))
      | .ok () =>
        if !clean then return .ok 0
        let keep ← match keep with
          | none => pure none
          | some path => do
            match ← Storage.canonical path with
            | .ok loc => pure (some loc)
            | .error _ => pure none
        match (← Storage.list dir).map order with
        | .error e => return .error (.output dir (.file e))
        | .ok entries => removeSegments dir keep 0 entries : OnHost _) := by
  have hstep := @prepareDirectory.eq_1 OnHost _ (listedIn order) _ dir clean keep
  rw [makeDirs_listedIn] at hstep
  simp only [removeSegments_listedIn] at hstep
  exact hstep

variable {host : Host} {dir : Path} {files : FileTree}

/-- Where the directory cannot be made that is all. -/
theorem prepareDirectoryIn_of_error {e : FileError}
    (h : FileTree.makeDirs host.cwd dir.ancestors host.files = (.error e, files)) (clean : Bool)
    (keep : Option Path) : prepareDirectoryIn order dir clean keep host
      = (.error (.output dir (.file e)), { host with files }) := by
  have hmade := makeDirs_onHost dir.ancestors host
  rw [h] at hmade
  rw [prepareDirectoryIn_eq]
  exact bind_of_eq hmade _

/-- So it is where nothing is to be removed. -/
theorem prepareDirectoryIn_keeping
    (h : FileTree.makeDirs host.cwd dir.ancestors host.files = (.ok (), files))
    (keep : Option Path) :
    prepareDirectoryIn order dir false keep host = (.ok 0, { host with files }) := by
  have hmade := makeDirs_onHost dir.ancestors host
  rw [h] at hmade
  rw [prepareDirectoryIn_eq]
  exact bind_of_eq hmade _

/-- Otherwise the segment files are removed in the order of the listing. -/
theorem prepareDirectoryIn_cleaning
    (h : FileTree.makeDirs host.cwd dir.ancestors host.files = (.ok (), files))
    (keep : Option Path) {removed : Nat}
    (hok : (prepareDirectoryIn order dir true keep host).1 = .ok removed) :
    ∃ entries files', files.list host.cwd dir = .ok entries ∧
      (prepareDirectoryIn order dir true keep host).2.files = files' ∧
      FileTree.clear host.cwd dir
        (keep.bind fun path => (files.canonical host.cwd path).toOption) 0 (order entries) files
        = (.ok removed, files') := by
  have hmade := makeDirs_onHost dir.ancestors host
  rw [h] at hmade
  rw [prepareDirectoryIn_eq, bind_of_eq hmade] at hok ⊢
  simp only [Bool.not_true, Bool.false_eq_true, if_false] at hok ⊢
  have hkeep := keep_onHost { host with files } keep fun keep => do
    match (← (Storage.list dir : OnHost _)).map order with
    | .error e => return .error (.output dir (.file e))
    | .ok entries => removeSegments dir keep 0 entries
  have hlist : (Storage.list dir : OnHost _) { host with files }
      = (files.list host.cwd dir, { host with files }) := rfl
  rw [bind_of_eq hlist] at hkeep
  cases hentries : files.list host.cwd dir with
  | error e =>
    rw [hentries] at hkeep
    cases (congrArg Prod.fst hkeep).symm.trans hok
  | ok entries =>
    rw [hentries] at hkeep
    obtain ⟨journal, hclear⟩ := removeSegments_onHost dir
      (keep.bind fun path => (files.canonical host.cwd path).toOption) (order entries) 0
      { host with files }
    have hrun := hkeep.trans hclear
    refine ⟨entries, _, rfl, congrArg (·.2.files) hrun, ?_⟩
    exact Prod.ext ((congrArg Prod.fst hrun).symm.trans hok) rfl

end OnHost

namespace FileTree

variable {t t' made : FileTree} {cwd base : Location} {dir p : Path} {paths : List Path}
  {l : Location}

/-! ## What is there afterwards -/

/-- At a location is what was there before, or else a new directory to which one of some paths
leads. -/
def IsSameOrMade (t t' : FileTree) (cwd : Location) (paths : List Path) (l : Location) : Prop :=
  t'.lookup l = t.lookup l ∨ t.lookup l = none ∧ t'.lookup l = some .directory ∧
    ∃ p ∈ paths, t'.entryAt cwd p = .ok (l, .directory)

/-- A directory that is made is one to which its own path leads. -/
theorem IsSameOrMade.makeDir (h : IsSameOrMade t made cwd paths l) (hp : p ∈ paths)
    (hmake : made.makeDir cwd p = .ok t') : IsSameOrMade t t' cwd paths l := by
  have hgrows := grows_makeDir hmake
  obtain ⟨loc, hne, hvacant, rfl, hentry⟩ := entryAt_of_makeDir hmake
  rcases h with hsame | ⟨hnone, hdir, q, hq, hleads⟩
  · by_cases hl : l = loc
    · subst hl
      exact Or.inr ⟨hsame.symm.trans hvacant, by rw [lookup_insert made _ l hne, if_pos rfl], p, hp,
        hentry⟩
    · exact Or.inl (by rw [lookup_insert made _ l hne, if_neg hl, hsame])
  · exact Or.inr ⟨hnone, hgrows.lookup l _ hdir, q, hq, hgrows.entryAt hleads⟩

theorem isSameOrMade_makeDirs (t : FileTree) (cwd : Location) (paths : List Path) (l : Location) :
    IsSameOrMade t (makeDirs cwd paths t).2 cwd paths l :=
  makeDirs_induction (motive := fun made => IsSameOrMade t made cwd paths l)
    (fun hp hmade hmake => hmade.makeDir hp hmake) (Or.inl rfl)

/-- Where no file was removed it stays so. -/
theorem IsSameOrMade.of_keepsWays (h : IsSameOrMade t made cwd paths l)
    (hsame : t'.lookup l = made.lookup l) (hways : KeepsWays made t') :
    IsSameOrMade t t' cwd paths l := by
  rcases h with heq | ⟨hnone, hdir, q, hq, hleads⟩
  · exact Or.inl (hsame.trans heq)
  · obtain ⟨husable, hthere⟩ := entryAt_directory_iff.1 hleads
    exact Or.inr ⟨hnone, hsame.trans hdir, q, hq,
      entryAt_directory_iff.2 ⟨husable, hthere.of_keepsWays hways⟩⟩

/-- A regular file that is there was there before. -/
theorem IsSameOrMade.lookup_file_iff (h : IsSameOrMade t made cwd paths l) {content : Bytes} :
    made.lookup l = some (.file content) ↔ t.lookup l = some (.file content) := by
  rcases h with heq | ⟨hnone, hdir, -⟩
  · rw [heq]
  · simp [hnone, hdir]

/-- Segment files have been removed from a directory.  Before, in the tree `made`, the directory has
been made where it was missing. -/
structure Tidied (t made t' : FileTree) (cwd base : Location) (dir : Path) (keep : Option Path)
    (gone : List Location) : Prop where
  /-- The directory is there. -/
  directory : t'.entryAt cwd dir = .ok (base, .directory)
  /-- Nothing is counted twice. -/
  nodup : gone.Nodup
  /-- What is removed: the regular files directly in the directory that have the name of a segment
  file, but for the one to which the path `keep` leads. -/
  mem_gone_iff : ∀ l, l ∈ gone ↔ (∃ name content, l = name :: base ∧
    t.lookup l = some (.file content) ∧ IsSegmentName name) ∧
      ∀ p ∈ keep, made.canonical cwd p ≠ .ok l
  /-- If that path has led somewhere all the time, it is there that it leads. -/
  kept : ∀ p ∈ keep, ∀ l, t.canonical cwd p = .ok l → made.canonical cwd p = .ok l
  /-- It is gone. -/
  removed : ∀ l ∈ gone, t'.lookup l = none
  /-- Nothing else has changed but that directories have been made. -/
  other : ∀ l, l ∉ gone → IsSameOrMade t t' cwd dir.ancestors l

theorem Grows.canonical (h : Grows t t') (hcanonical : t.canonical cwd p = .ok l) :
    t'.canonical cwd p = .ok l := by
  obtain ⟨⟨loc, node⟩, hentry, hloc⟩ := exists_of_bind_eq_ok hcanonical
  rw [FileTree.canonical, h.entryAt hentry]
  exact hloc

/-- **Clearing a directory that has been made**, in whatever order its entries are listed. -/
theorem tidied_of_clear (hnamed : WellNamed t) {keep : Option Path}
    {entries order : List (Bytes × Bool)} {removed : Nat}
    (hlist : (makeDirs cwd dir.ancestors t).2.list cwd dir = .ok entries)
    (horder : order.Perm entries)
    (hclear : clear cwd dir (keep.bind fun p =>
        ((makeDirs cwd dir.ancestors t).2.canonical cwd p).toOption) 0 order
      (makeDirs cwd dir.ancestors t).2 = (.ok removed, t')) :
    ∃ base gone, removed = gone.length ∧
      Tidied t (makeDirs cwd dir.ancestors t).2 t' cwd base dir keep gone := by
  have hsame := isSameOrMade_makeDirs t cwd dir.ancestors
  have hgrows := grows_makeDirs cwd dir.ancestors t
  have hnamed' := hnamed.makeDirs cwd dir.ancestors
  generalize (makeDirs cwd dir.ancestors t).2 = made at hlist hclear hsame hgrows hnamed' ⊢
  obtain ⟨husable, -⟩ := isDir_iff.1 (exists_list_iff.1 ⟨entries, hlist⟩)
  obtain ⟨base, hdir, hnodup, hfiles⟩ := list_eq_ok hlist
  have hnodup' : (order.map Prod.fst).Nodup := ((horder.map Prod.fst).nodup_iff).2 hnodup
  have hfiles' : ∀ name, (name, true) ∈ order ↔
      ∃ content, made.lookup (name :: base) = some (.file content) :=
    fun name => horder.mem_iff.trans (hfiles name)
  obtain ⟨hremoved, hlookup⟩ :=
    clear_eq_ok ⟨hdir, hnamed', hnodup', fun name => (hfiles' name).1⟩ hclear
  rw [Nat.zero_add] at hremoved
  -- no directory and no link has been removed
  have hways : KeepsWays made t' := by
    intro l node hl hnode
    rw [hlookup l, if_neg, hl]
    intro hgone
    obtain ⟨-, name, content, -, hcontent, -⟩ := (mem_staleLocations_iff dir _ hfiles' l).1 hgone
    rw [hcontent] at hl
    cases hl
    cases hnode
  have hgone : ∀ l, l ∉ staleLocations dir base
      (keep.bind fun p => (made.canonical cwd p).toOption) order → t'.lookup l = made.lookup l :=
    fun l hl => (hlookup l).trans (if_neg hl)
  refine ⟨base, _, hremoved, entryAt_directory_iff.2 ⟨husable, hdir.of_keepsWays hways⟩,
    nodup_staleLocations hnodup', fun l => ?_, fun p _ l => hgrows.canonical,
    fun l hl => (hlookup l).trans (if_pos hl),
    fun l hl => (hsame l).of_keepsWays (hgone l hl) hways⟩
  rw [mem_staleLocations_iff dir _ hfiles' l, and_comm]
  refine and_congr (exists_congr fun name => exists_congr fun content => and_congr_right ?_) ?_
  · rintro rfl
    rw [(hsame _).lookup_file_iff]
    refine and_congr_right fun hfile => ?_
    have hmade := (hsame (name :: base)).lookup_file_iff.2 hfile
    exact Path.isSegment_join_iff (hnamed'.wellFormed name base _ hmade) (hnamed'.ne_dot hmade)
      (hnamed'.ne_up hmade) dir
  · cases keep with
    | none => simp
    | some p => cases hp : made.canonical cwd p <;> simp [hp, Except.toOption, eq_comm]

end FileTree

open FileTree

/-- **Preparing an output directory**, in whatever order its entries are listed.  Where it succeeds
in clearing the directory, the directory is there, and what is gone from it are its segment files
but for the one that is kept, as many as it returns.  Where it is not to clear the directory, or
cannot make it, nothing is gone. -/
theorem prepareDirectory_listedIn {order : List (Bytes × Bool) → List (Bytes × Bool)}
    (horder : ∀ entries, (order entries).Perm entries) {host made host' : Host}
    (hnamed : WellNamed host.files) {dir : Path} {clean : Bool} {keep : Option Path}
    {making : Except FileError Unit} {outcome : Except SplitError Nat}
    (hmade : (makeDirs dir.ancestors : OnHost _) host = (making, made))
    (h : OnHost.prepareDirectoryIn order dir clean keep host = (outcome, host')) :
    (clean = true → ∀ removed, outcome = .ok removed → ∃ base gone, removed = gone.length ∧
      Tidied host.files made.files host'.files host.cwd base dir keep gone) ∧
    (clean = false → (making = .ok () → outcome = .ok 0) ∧
      ∀ l, IsSameOrMade host.files host'.files host.cwd dir.ancestors l) ∧
    ∀ e, making = .error e → outcome = .error (.output dir (.file e)) ∧
      ∀ l, IsSameOrMade host.files host'.files host.cwd dir.ancestors l := by
  have hsame := isSameOrMade_makeDirs host.files host.cwd dir.ancestors
  have hmakes := hmade.symm.trans (makeDirs_onHost dir.ancestors host)
  rcases houtcome : FileTree.makeDirs host.cwd dir.ancestors host.files with ⟨e | ⟨⟩, files⟩ <;>
    rw [houtcome] at hmakes hsame <;> cases hmakes
  · cases h.symm.trans (OnHost.prepareDirectoryIn_of_error order houtcome clean keep)
    refine ⟨fun _ removed hok => (by cases hok), fun _ => ⟨fun hok => (by cases hok), hsame⟩,
      fun e' he => ?_⟩
    cases he
    exact ⟨rfl, hsame⟩
  · refine ⟨?_, ?_, fun e he => (by cases he)⟩
    · rintro rfl removed rfl
      obtain ⟨entries, files', hlist, hfiles, hclear⟩ :=
        OnHost.prepareDirectoryIn_cleaning order houtcome keep (congrArg Prod.fst h)
      rw [h] at hfiles
      have htidied := @tidied_of_clear host.files files' host.cwd dir hnamed keep entries
        (order entries) removed
      rw [houtcome] at htidied
      exact hfiles ▸ htidied hlist (horder entries) hclear
    · rintro rfl
      cases h.symm.trans (OnHost.prepareDirectoryIn_keeping order houtcome keep)
      exact ⟨fun _ => rfl, hsame⟩

/-- A directory with two segment files, the input, a file without an extension, one with another and
a directory with the name of a segment file; and a link to the input. -/
def shelfHost : Host :=
  .start ((⟨[(["out"], .directory), (["run-1.txt", "out"], .file []),
    (["log.txt", "out"], .file [97, 10]), (["run-2.TXT", "out"], .file []),
    ([".txt", "out"], .file []), (["notes.md", "out"], .file []),
    (["more.txt", "out"], .directory)]⟩ : FileTree).insert ["in"] (.link "out/log.txt")) []

/-- The directories on the way to `dir` are made. -/
def shelfMade (dir : Path) : Except FileError Unit × Host :=
  (makeDirs dir.ancestors : OnHost _) shelfHost

/-- The directory `dir` is prepared, and its entries are listed backwards. -/
def shelfRun (dir : Path) (clean : Bool) : Except SplitError Nat × Host :=
  OnHost.prepareDirectoryIn List.reverse dir clean (some ⟨"in"⟩) shelfHost

set_option maxRecDepth 100000 in
/-- The directory is cleared and left as it is, and a directory that cannot be made is not. -/
theorem prepareDirectory_listedIn_shelf :
    (∀ entries : List (Bytes × Bool), entries.reverse.Perm entries) ∧ WellNamed shelfHost.files ∧
      (shelfRun ⟨"out"⟩ true).1 = .ok 2 ∧
      (∃ base gone, 2 = gone.length ∧ Tidied shelfHost.files (shelfMade ⟨"out"⟩).2.files
        (shelfRun ⟨"out"⟩ true).2.files shelfHost.cwd base ⟨"out"⟩ (some ⟨"in"⟩) gone) ∧
      (shelfMade ⟨"out"⟩).1 = .ok () ∧ (shelfRun ⟨"out"⟩ false).1 = .ok 0 ∧
      (shelfMade ⟨"in/new"⟩).1 = .error .notDirectory ∧
      (shelfRun ⟨"in/new"⟩ true).1 = .error (.output "in/new" (.file .notDirectory)) := by
  have hnamed : WellNamed shelfHost.files :=
    (plain_of_entries (by decide +kernel)).wellNamed.insert ⟨by decide, by decide⟩ (by decide)
      (by decide) [] _
  have hok : (shelfRun ⟨"out"⟩ true).1 = .ok 2 := by decide +kernel
  have hmade : (shelfMade ⟨"out"⟩).1 = .ok () := by decide +kernel
  have herror : (shelfMade ⟨"in/new"⟩).1 = .error .notDirectory := by decide +kernel
  have hsettled := fun dir clean => prepareDirectory_listedIn List.reverse_perm hnamed
    (Prod.eta (shelfMade dir)).symm (Prod.eta (shelfRun dir clean)).symm
  exact ⟨List.reverse_perm, hnamed, hok, (hsettled _ true).1 rfl 2 hok, hmade,
    ((hsettled _ false).2.1 rfl).1 hmade, herror, ((hsettled _ true).2.2 _ herror).1⟩

end LogSplit
