import LogSplit.Proofs.Output.ReplacedTable

/-!
# Which segments the files accept

Whether the file of a segment can be put in place in a plain tree depends on its paths and on the
directories of the tree (`CanTake`), not on the bytes, and not on the files that are there.  Putting
a file in place leaves the directories as they are, so the segments of a scan are all accepted if
each of them can be (`exists_accepts_iff`), whatever the others are.
-/

set_option autoImplicit false

namespace LogSplit

namespace Destination

open FileTree

variable {t t' : FileTree} {cwd base : Location} {d : Destination} {header : Header} {n : Nat}
  {segments : List Segment} {written : List WrittenSegment}

/-- A segment file can be put in place in the directory at `base`. -/
structure CanTake (d : Destination) (t : FileTree) (base : Location) (index : Nat) : Prop where
  /-- The path of the file can be used. -/
  reaches : usable (d.pathFor index) = .ok () ∧ IsEntryName (Stem.fileName d.stem index)
  /-- So can the one where it is prepared. -/
  reaches_prepared : usable (d.pathFor index).temporary = .ok () ∧
    IsEntryName (Stem.preparedName d.stem index)
  /-- No directory is in the way of the file. -/
  target : t.lookup (d.target base index) ≠ some .directory
  /-- Nor is one where it is prepared. -/
  prepared : t.lookup (d.prepared base index) ≠ some .directory

/-- Only the directories of the tree matter. -/
theorem CanTake.of_directories (h : d.CanTake t base n)
    (hdirs : ∀ l, t'.lookup l = some .directory → t.lookup l = some .directory) :
    d.CanTake t' base n where
  reaches := h.reaches
  reaches_prepared := h.reaches_prepared
  target hdir := h.target (hdirs _ hdir)
  prepared hdir := h.prepared (hdirs _ hdir)

/-- **A segment file that can be put in place** is put in place, and no other is. -/
theorem exists_replaceFile_iff (hplain : Plain t) (hstem : Stem.validate d.stem = .ok ())
    (hdir : HasDirectory t cwd d.dir base) (bytes : Bytes) :
    (∃ t', t.replaceFile cwd (d.pathFor n) bytes = (.ok (), t')) ↔ d.CanTake t base n := by
  have hslash := (Path.temporary_beside (Stem.isPiece hstem n) d.dir).endsInSlash_left
  have hiff : (t.replaceFile cwd (d.pathFor n) bytes).1 = .ok () ↔
      Replaceable t cwd (d.pathFor n) := hplain.replaceFile_eq_ok_iff hslash
  constructor
  · rintro ⟨t', hreplace⟩
    obtain ⟨-, ⟨prepared, hprepared, hfree⟩, target, htarget, hfree'⟩ :=
      hiff.1 (congrArg Prod.fst hreplace)
    obtain ⟨husable, hname, rfl⟩ := (ownLocation_pathFor_iff hstem hdir).1 htarget
    obtain ⟨husable', hname', rfl⟩ := (ownLocation_temporary_iff hstem hdir).1 hprepared
    exact ⟨⟨husable, hname⟩, ⟨husable', hname'⟩, hfree', hfree⟩
  · rintro ⟨⟨husable, hname⟩, ⟨husable', hname'⟩, hfree', hfree⟩
    have hok := hiff.2 ⟨Path.endsInSlash_join (Stem.isPiece_fileName hstem n) d.dir,
      ⟨_, (ownLocation_temporary_iff hstem hdir).2 ⟨husable', hname', rfl⟩, hfree⟩,
      _, (ownLocation_pathFor_iff hstem hdir).2 ⟨husable, hname, rfl⟩, hfree'⟩
    generalize t.replaceFile cwd (d.pathFor n) bytes = replaced at hok ⊢
    exact ⟨replaced.2, Prod.ext hok rfl⟩

/-- Segment files that could be put in place have left the directories as they were. -/
theorem Placed.directory_iff (h : Placed t t' cwd d base header segments)
    (hcan : ∀ s ∈ segments, d.CanTake t base s.index) (l : Location) :
    t'.lookup l = some .directory ↔ t.lookup l = some .directory := by
  by_cases hl : ∃ s ∈ segments, l = d.target base s.index ∨ l = d.prepared base s.index
  · obtain ⟨s, hs, rfl | rfl⟩ := hl
    · simp [h.target s hs, (hcan s hs).target]
    · simp [h.prepared s hs, (hcan s hs).prepared]
  · rw [h.other l fun s hs =>
      ⟨fun heq => hl ⟨s, hs, Or.inl heq⟩, fun heq => hl ⟨s, hs, Or.inr heq⟩⟩]

/-- **The segments that are accepted** are those of which each could be put in place. -/
theorem exists_accepts_iff (hplain : Plain t) (hstem : Stem.validate d.stem = .ok ())
    (hdir : HasDirectory t cwd d.dir base) :
    (∃ st', Accepts (takeSegment cwd d header) (t, written) segments st') ↔
      ∀ s ∈ segments, d.CanTake t base s.index := by
  induction segments generalizing t written with
  | nil => exact ⟨fun _ => by simp, fun _ => ⟨_, .nil _⟩⟩
  | cons s rest ih =>
    -- the first segment leaves the directories as they are, so the others can be put in place as
    -- before
    have hrest : ∀ {t' : FileTree} {written' : List WrittenSegment}, d.CanTake t base s.index →
        takeSegment cwd d header s (t, written) = (.ok (), (t', written')) →
        ((∃ st', Accepts (takeSegment cwd d header) (t', written') rest st') ↔
          ∀ s ∈ rest, d.CanTake t base s.index) := by
      intro t' written' hcan htake
      have hplaced := placed_of_replaceFile hplain hstem hdir (takeSegment_eq_ok htake).1
      have hdirs := hplaced.directory_iff (by simpa using hcan)
      rw [ih hplaced.plain hplaced.hasDirectory]
      exact forall₂_congr fun s _ => ⟨fun hs => hs.of_directories fun l => (hdirs l).2,
        fun hs => hs.of_directories fun l => (hdirs l).1⟩
    rw [List.forall_mem_cons]
    constructor
    · rintro ⟨st', hall⟩
      cases hall with
      | @cons _ st₁ _ _ _ htake haccepts =>
        obtain ⟨t₁, written₁⟩ := st₁
        have hcan := (exists_replaceFile_iff hplain hstem hdir _).1
          ⟨t₁, (takeSegment_eq_ok htake).1⟩
        exact ⟨hcan, (hrest hcan htake).1 ⟨st', haccepts⟩⟩
    · rintro ⟨hcan, hcans⟩
      obtain ⟨t', hreplace⟩ := (exists_replaceFile_iff hplain hstem hdir
        (Tsv.encode header s.bareRows)).2 hcan
      have htake := takeSegment_of_ok written hreplace
      obtain ⟨st', haccepts⟩ := (hrest hcan htake).2 hcans
      exact ⟨st', .cons htake haccepts⟩

end Destination

end LogSplit
