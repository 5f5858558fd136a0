import LogSplit.Proofs.File.Plain
import LogSplit.Proofs.Output.Replacement
import LogSplit.Proofs.Output.SegmentNames
import LogSplit.Proofs.Output.SegmentSink

/-!
# Segment files in a plain tree

In a tree without links it can be said exactly what putting a file in place does.  `Replaced` lists
the three ways in which it can end, and `Placed` says what the tree looks like when the files of
some segments have been put in place one after the other (`placed_of_accepts`): each of them holds
the header and the rows of its segment, nothing is left where they were prepared, and nothing else
has changed.  `Unplaced` says what a file has left behind that could not be put in place.
-/

set_option autoImplicit false

namespace LogSplit

namespace FileTree

variable {t t' : FileTree} {cwd base loc : Location} {path : Path} {content : Bytes}

/-! ## Putting one file in place -/

/-- How putting a file at a path ends, and the tree afterwards. -/
inductive Replaced (t : FileTree) (cwd : Location) (path : Path) (content : Bytes) :
    Except FileError Unit → FileTree → Prop where
  /-- The file is in place. -/
  | placed {prepared target : Location}
    (hprepared : t.ownLocation cwd path.temporary = .ok prepared)
    (htarget : t.ownLocation cwd path = .ok target) (hfree : t.lookup prepared ≠ some .directory)
    (hfree' : t.lookup target ≠ some .directory) :
    Replaced t cwd path content (.ok ())
      (((t.insert prepared (.file content)).erase prepared).insert target (.file content))
  /-- It cannot be prepared. -/
  | unprepared {e : FileError} (hlanding : ∀ loc, t.landing cwd path.temporary ≠ .ok loc) :
    Replaced t cwd path content (.error e) t
  /-- It has been prepared and cannot be moved.  It is removed again. -/
  | unmoved {e : FileError} {prepared : Location}
    (hprepared : t.ownLocation cwd path.temporary = .ok prepared)
    (hfree : t.lookup prepared ≠ some .directory) :
    Replaced t cwd path content (.error e) ((t.insert prepared (.file content)).erase prepared)

/-- What has been put somewhere and taken away again is not there. -/
theorem lookup_erase_insert (t : FileTree) (node : Node) (hne : loc ≠ []) (l : Location) :
    ((t.insert loc node).erase loc).lookup l = if l = loc then none else t.lookup l := by
  rw [lookup_erase _ l hne, lookup_insert t node l hne]
  split <;> rfl

/-- A file that is in place: where, and what else has changed. -/
theorem Replaced.ok_inv (h : Replaced t cwd path content (.ok ()) t') (hplain : Plain t) :
    ∃ prepared target, t.ownLocation cwd path.temporary = .ok prepared ∧
      t.ownLocation cwd path = .ok target ∧ t.lookup prepared ≠ some .directory ∧
      t.lookup target ≠ some .directory ∧ Plain t' ∧ KeepsWays t t' ∧
      ∀ l, t'.lookup l = if l = target then some (.file content)
        else if l = prepared then none else t.lookup l := by
  cases h with
  | @placed prepared target hprepared htarget hfree hfree' =>
    have hne := ownLocation_ne_nil hprepared
    have hlookup : ∀ l, (((t.insert prepared (.file content)).erase prepared).insert target
        (.file content)).lookup l = if l = target then some (.file content)
          else if l = prepared then none else t.lookup l := by
      intro l
      rw [lookup_insert _ _ l (ownLocation_ne_nil htarget), lookup_erase_insert t _ hne l]
    refine ⟨prepared, target, hprepared, htarget, hfree, hfree',
      ((hplain.insert hprepared (by simp)).erase hne).insert htarget (by simp),
      fun l node hl hnode => ?_, hlookup⟩
    rw [hlookup l, if_neg ((hplain.hasNoWay hfree').ne hl hnode),
      if_neg ((hplain.hasNoWay hfree).ne hl hnode), hl]

/-- A file that is not in place: what has been prepared is gone, and nothing else has changed. -/
theorem Replaced.error_inv {e : FileError} (h : Replaced t cwd path content (.error e) t')
    (hplain : Plain t) :
    (t' = t ∧ ∀ loc, t.landing cwd path.temporary ≠ .ok loc) ∨
      ∃ prepared, t.ownLocation cwd path.temporary = .ok prepared ∧
        t.lookup prepared ≠ some .directory ∧ Plain t' ∧ KeepsWays t t' ∧
        ∀ l, t'.lookup l = if l = prepared then none else t.lookup l := by
  cases h with
  | unprepared hlanding => exact Or.inl ⟨rfl, hlanding⟩
  | @unmoved _ prepared hprepared hfree =>
    have hne := ownLocation_ne_nil hprepared
    have hlookup := lookup_erase_insert t (.file content) hne
    refine Or.inr ⟨prepared, hprepared, hfree, (hplain.insert hprepared (by simp)).erase hne,
      fun l node hl hnode => ?_, hlookup⟩
    rw [hlookup l, if_neg ((hplain.hasNoWay hfree).ne hl hnode), hl]

/-- **Putting a file in place ends in one of these ways.** -/
theorem Plain.replaced (h : Plain t) (hslash : path.temporary.endsInSlash = false) :
    Replaced t cwd path content (t.replaceFile cwd path content).1
      (t.replaceFile cwd path content).2 := by
  cases hwrite : t.write cwd path.temporary content with
  | error e =>
    have hlanding : ∀ loc, t.landing cwd path.temporary ≠ .ok loc := by
      intro loc hloc
      rw [write_eq, hloc] at hwrite
      cases hwrite
    have hremoved : t.removed cwd path.temporary = t := by
      rw [removed]
      cases hremove : t.remove cwd path.temporary with
      | error e => rfl
      | ok files =>
        obtain ⟨-, loc, node, hown, hnode, hdir, -⟩ := remove_eq_ok_iff.1 hremove
        exact absurd (h.landing_eq_ok_iff.2 ⟨hslash, hown, lookup_ne_directory hnode hdir⟩)
          (hlanding loc)
    rw [replaceFile_of_write_error hwrite, hremoved]
    exact .unprepared hlanding
  | ok written =>
    obtain ⟨prepared, hlanding, rfl⟩ := landing_of_write hwrite
    obtain ⟨-, hown, hfree⟩ := h.landing_eq_ok_iff.1 hlanding
    have hne := ownLocation_ne_nil hown
    have hways := keepsWays_insert hne (h.hasNoWay hfree) (.file content)
    have hback : KeepsWays (t.insert prepared (.file content)) t := keepsWays_of_insert hne content
    have hnode : (t.insert prepared (.file content)).lookup prepared = some (.file content) := by
      rw [lookup_insert t _ _ hne, if_pos rfl]
    cases hmove : (t.insert prepared (.file content)).move cwd path.temporary path with
    | error e =>
      have hremove : (t.insert prepared (.file content)).remove cwd path.temporary
          = .ok ((t.insert prepared (.file content)).erase prepared) :=
        remove_eq_ok_iff.2 ⟨hslash, prepared, _, ownLocation_of_keepsWays hown hways, hnode,
          by simp, rfl⟩
      rw [replaceFile_of_move_error hwrite hmove, removed, hremove]
      exact .unmoved hown hfree
    | ok moved =>
      rw [replaceFile_of_move_ok hwrite hmove]
      obtain ⟨-, -, source, target, node, hsource, htarget, hsourceNode, -, hdir, rfl⟩ :=
        move_eq_ok_iff.1 hmove
      cases hown.symm.trans (ownLocation_of_keepsWays hsource hback)
      cases hnode.symm.trans hsourceNode
      refine .placed hown (ownLocation_of_keepsWays htarget hback) hfree ?_
      rw [lookup_insert t _ _ hne] at hdir
      split at hdir
      · rename_i heq
        rwa [heq]
      · exact hdir

theorem Plain.replaced_of_eq (h : Plain t) (hslash : path.temporary.endsInSlash = false)
    {outcome : Except FileError Unit} (heq : t.replaceFile cwd path content = (outcome, t')) :
    Replaced t cwd path content outcome t' := by
  have hreplaced : Replaced t cwd path content (t.replaceFile cwd path content).1
      (t.replaceFile cwd path content).2 := h.replaced hslash
  rwa [heq] at hreplaced

/-- Where no file can be written no file is. -/
theorem Plain.no_file_of_landing (h : Plain t) {p : Path} (hslash : p.endsInSlash = false)
    (hlanding : ∀ loc, t.landing cwd p ≠ .ok loc) (loc : Location) (content : Bytes) :
    t.entryAt cwd p ≠ .ok (loc, .file content) := by
  intro hentry
  obtain ⟨hown, hfile⟩ := h.ownLocation_of_entryAt hslash hentry
  exact hlanding loc (h.landing_eq_ok_iff.2 ⟨hslash, hown, lookup_ne_directory hfile (by simp)⟩)

end FileTree

/-! ## The files of segments -/

namespace Destination

open FileTree

variable {t t' t'' : FileTree} {cwd base : Location} {d : Destination} {header : Header}
  {s : Segment} {segments front back : List Segment} {n m : Nat}

/-- Where the file of a segment stands if the directory is at `base`. -/
def target (d : Destination) (base : Location) (index : Nat) : Location :=
  Stem.fileName d.stem index :: base

/-- Where it is prepared. -/
def prepared (d : Destination) (base : Location) (index : Nat) : Location :=
  Stem.preparedName d.stem index :: base

theorem target_inj (h : d.target base m = d.target base n) : m = n :=
  Stem.fileName_inj (List.cons.inj h).1

theorem prepared_inj (h : d.prepared base m = d.prepared base n) : m = n :=
  Stem.preparedName_inj (List.cons.inj h).1

theorem target_ne_prepared : d.target base m ≠ d.prepared base n :=
  fun h => Stem.fileName_ne_preparedName (List.cons.inj h).1

theorem temporary_pathFor (hstem : Stem.validate d.stem = .ok ()) (index : Nat) :
    (d.pathFor index).temporary = d.dir.join (Stem.preparedName d.stem index) :=
  Path.temporary_join (Stem.isPiece hstem index) d.dir

theorem ownLocation_pathFor_iff (hstem : Stem.validate d.stem = .ok ())
    (hdir : HasDirectory t cwd d.dir base) {loc : Location} :
    t.ownLocation cwd (d.pathFor n) = .ok loc ↔ usable (d.pathFor n) = .ok () ∧
      IsEntryName (Stem.fileName d.stem n) ∧ loc = d.target base n :=
  hdir.ownLocation_join_iff (Stem.isPiece_fileName hstem n)

theorem ownLocation_temporary_iff (hstem : Stem.validate d.stem = .ok ())
    (hdir : HasDirectory t cwd d.dir base) {loc : Location} :
    t.ownLocation cwd (d.pathFor n).temporary = .ok loc ↔ usable (d.pathFor n).temporary = .ok () ∧
      IsEntryName (Stem.preparedName d.stem n) ∧ loc = d.prepared base n := by
  rw [temporary_pathFor hstem]
  exact hdir.ownLocation_join_iff (Stem.isPiece_preparedName hstem n)

/-- What stands where the file of a segment goes can be read at its path. -/
theorem read_pathFor (hplain : Plain t) (hstem : Stem.validate d.stem = .ok ())
    (hdir : HasDirectory t cwd d.dir base)
    (hreaches : usable (d.pathFor n) = .ok () ∧ IsEntryName (Stem.fileName d.stem n))
    {bytes : Bytes} (hfile : t.lookup (d.target base n) = some (.file bytes)) :
    t.read cwd (d.pathFor n) = .ok bytes := by
  obtain ⟨husable, hname⟩ := hreaches
  exact read_eq_ok_iff.2 ⟨_, (hdir.entryAt_join_iff (Stem.isPiece_fileName hstem n) hname.ne_dot
    hname.ne_up fun target => hplain.no_link _ target).2 ⟨husable, hname, rfl, hfile⟩⟩

/-- No file is at the path where it is prepared if none stands there. -/
theorem no_file_temporary (hplain : Plain t) (hstem : Stem.validate d.stem = .ok ())
    (hdir : HasDirectory t cwd d.dir base)
    (h : ∀ content, t.lookup (d.prepared base n) ≠ some (.file content)) (loc : Location)
    (content : Bytes) : t.entryAt cwd (d.pathFor n).temporary ≠ .ok (loc, .file content) := by
  intro hentry
  obtain ⟨hown, hfile⟩ := hplain.ownLocation_of_entryAt
    (Path.temporary_beside (Stem.isPiece hstem n) d.dir).endsInSlash_left hentry
  obtain ⟨-, -, rfl⟩ := (ownLocation_temporary_iff hstem hdir).1 hown
  exact h content hfile

/-- The files of some segments have been put in place, which has made the tree `t'` of `t`. -/
structure Placed (t t' : FileTree) (cwd : Location) (d : Destination) (base : Location)
    (header : Header) (segments : List Segment) : Prop where
  /-- There is still no link. -/
  plain : Plain t'
  /-- The directory is still there. -/
  hasDirectory : HasDirectory t' cwd d.dir base
  /-- The paths of the files can be used. -/
  reaches : ∀ s ∈ segments,
    usable (d.pathFor s.index) = .ok () ∧ IsEntryName (Stem.fileName d.stem s.index)
  /-- Each file holds the header and the rows of its segment. -/
  target : ∀ s ∈ segments,
    t'.lookup (d.target base s.index) = some (.file (Tsv.encode header s.bareRows))
  /-- Nothing is left where it was prepared. -/
  prepared : ∀ s ∈ segments, t'.lookup (d.prepared base s.index) = none
  /-- Everything else is as it was. -/
  other : ∀ l, (∀ s ∈ segments, l ≠ d.target base s.index ∧ l ≠ d.prepared base s.index) →
    t'.lookup l = t.lookup l

/-- Each file can be read at its path. -/
theorem Placed.read (h : Placed t t' cwd d base header segments)
    (hstem : Stem.validate d.stem = .ok ()) (hs : s ∈ segments) :
    t'.read cwd (d.pathFor s.index) = .ok (Tsv.encode header s.bareRows) :=
  read_pathFor h.plain hstem h.hasDirectory (h.reaches s hs) (h.target s hs)

/-- No file is left where it was prepared. -/
theorem Placed.no_file (h : Placed t t' cwd d base header segments)
    (hstem : Stem.validate d.stem = .ok ()) (hs : s ∈ segments) (loc : Location) (content : Bytes) :
    t'.entryAt cwd (d.pathFor s.index).temporary ≠ .ok (loc, .file content) :=
  no_file_temporary h.plain hstem h.hasDirectory (by simp [h.prepared s hs]) loc content

theorem Placed.nil (hplain : Plain t) (hdir : HasDirectory t cwd d.dir base) :
    Placed t t cwd d base header [] :=
  ⟨hplain, hdir, by simp, by simp, by simp, fun _ _ => rfl⟩

/-- Files under different numbers do not get into each other's way. -/
theorem Placed.append (h : Placed t t' cwd d base header front)
    (h' : Placed t' t'' cwd d base header back)
    (hne : ∀ a ∈ front, ∀ b ∈ back, a.index ≠ b.index) :
    Placed t t'' cwd d base header (front ++ back) where
  plain := h'.plain
  hasDirectory := h'.hasDirectory
  reaches s hs := (List.mem_append.1 hs).elim (h.reaches s) (h'.reaches s)
  target s hs := by
    rcases List.mem_append.1 hs with hs | hs
    · rw [h'.other _ fun b hb =>
        ⟨fun heq => hne s hs b hb (target_inj heq), target_ne_prepared⟩, h.target s hs]
    · exact h'.target s hs
  prepared s hs := by
    rcases List.mem_append.1 hs with hs | hs
    · rw [h'.other _ fun b hb =>
        ⟨target_ne_prepared.symm, fun heq => hne s hs b hb (prepared_inj heq)⟩, h.prepared s hs]
    · exact h'.prepared s hs
  other l hl := by
    rw [h'.other l fun b hb => hl b (List.mem_append_right front hb),
      h.other l fun a ha => hl a (List.mem_append_left back ha)]

/-- How putting the file of a segment in place ends, with the locations at which that happens. -/
theorem replaced_pathFor (hplain : Plain t) (hstem : Stem.validate d.stem = .ok ()) {bytes : Bytes}
    {outcome : Except FileError Unit} (h : t.replaceFile cwd (d.pathFor n) bytes = (outcome, t')) :
    Replaced t cwd (d.pathFor n) bytes outcome t' :=
  hplain.replaced_of_eq (Path.temporary_beside (Stem.isPiece hstem n) d.dir).endsInSlash_left h

/-- **A segment file that has been put in place.** -/
theorem placed_of_replaceFile (hplain : Plain t) (hstem : Stem.validate d.stem = .ok ())
    (hdir : HasDirectory t cwd d.dir base)
    (h : t.replaceFile cwd (d.pathFor s.index) (Tsv.encode header s.bareRows) = (.ok (), t')) :
    Placed t t' cwd d base header [s] := by
  obtain ⟨prepared, target, hprepared, htarget, -, -, hplain', hways, hlookup⟩ :=
    (replaced_pathFor hplain hstem h).ok_inv hplain
  obtain ⟨-, -, rfl⟩ := (ownLocation_temporary_iff hstem hdir).1 hprepared
  obtain ⟨husable, hname, rfl⟩ := (ownLocation_pathFor_iff hstem hdir).1 htarget
  refine ⟨hplain', hdir.of_keepsWays hways, ?_, ?_, ?_, fun l hl => ?_⟩
  · simpa using ⟨husable, hname⟩
  · simp [hlookup]
  · simp [hlookup, target_ne_prepared.symm]
  · obtain ⟨htarget, hprepared⟩ := hl s List.mem_cons_self
    rw [hlookup l, if_neg htarget, if_neg hprepared]

/-- A segment file could not be put in place, which has made the tree `t'` of `t`. -/
structure Unplaced (t t' : FileTree) (cwd : Location) (d : Destination) (base : Location)
    (index : Nat) : Prop where
  /-- There is still no link. -/
  plain : Plain t'
  /-- The directory is still there. -/
  hasDirectory : HasDirectory t' cwd d.dir base
  /-- Nothing has changed except that what had been prepared is gone. -/
  lookup : ∀ l, t'.lookup l = t.lookup l ∨ l = d.prepared base index ∧ t'.lookup l = none
  /-- No regular file is left where it was to be prepared. -/
  no_file : ∀ loc content, t'.entryAt cwd (d.pathFor index).temporary ≠ .ok (loc, .file content)

/-- **A segment file that could not be put in place.** -/
theorem unplaced_of_replaceFile (hplain : Plain t) (hstem : Stem.validate d.stem = .ok ())
    (hdir : HasDirectory t cwd d.dir base) {bytes : Bytes} {e : FileError}
    (h : t.replaceFile cwd (d.pathFor n) bytes = (.error e, t')) :
    Unplaced t t' cwd d base n := by
  have hslash := (Path.temporary_beside (Stem.isPiece hstem n) d.dir).endsInSlash_left
  rcases (replaced_pathFor hplain hstem h).error_inv hplain with ⟨rfl, hlanding⟩ |
    ⟨prepared, hprepared, -, hplain', hways, hlookup⟩
  · exact ⟨hplain, hdir, fun l => Or.inl rfl, hplain.no_file_of_landing hslash hlanding⟩
  · obtain ⟨-, -, rfl⟩ := (ownLocation_temporary_iff hstem hdir).1 hprepared
    have hdir' := hdir.of_keepsWays hways
    refine ⟨hplain', hdir', fun l => ?_, no_file_temporary hplain' hstem hdir' ?_⟩
    · rw [hlookup l]
      split
      · exact Or.inr ⟨by assumption, rfl⟩
      · exact Or.inl rfl
    · simp [hlookup]

/-- **The files of segments that a scan has handed over**, as long as none fails. -/
theorem placed_of_accepts (hplain : Plain t) (hstem : Stem.validate d.stem = .ok ())
    (hdir : HasDirectory t cwd d.dir base) {written written' : List WrittenSegment}
    (hnodup : (segments.map Segment.index).Nodup)
    (h : Accepts (takeSegment cwd d header) (t, written) segments (t', written')) :
    Placed t t' cwd d base header segments := by
  generalize hst : (t, written) = st at h
  generalize hst' : (t', written') = st' at h
  induction h generalizing t written with
  | nil =>
    cases hst.trans hst'.symm
    exact .nil hplain hdir
  | @cons st st₁ st' s rest hs _ ih =>
    subst hst
    obtain ⟨t₁, written₁⟩ := st₁
    rw [List.map_cons, List.nodup_cons] at hnodup
    obtain ⟨hfresh, hrest⟩ := hnodup
    have hfirst := placed_of_replaceFile hplain hstem hdir (takeSegment_eq_ok hs).1
    refine hfirst.append (ih hfirst.plain hfirst.hasDirectory hrest rfl hst') ?_
    rintro a ha b hb heq
    rw [List.mem_singleton.1 ha] at heq
    exact hfresh (heq ▸ List.mem_map_of_mem (f := Segment.index) hb)

end Destination

end LogSplit
