import LogSplit.Proofs.File.JoinedNames
import LogSplit.Proofs.Output.AcceptedSegments
import LogSplit.Proofs.Text.Encoding

/-!
# Which segments the files refuse

A stem is accepted for its characters, at most sixty-four of them, while what the files ask of a
name is about bytes, and about the whole name.  The longest name of a segment is the one under which
its file is prepared, nine bytes longer than the stem and the number together.  So the names are
short enough for all numbers with so many digits only if the stem leaves room for them
(`Stem.names_fit_iff`), and an accepted stem need not.

In a plain tree a segment file is refused for one of two reasons: its names are too long
(`Destination.TooLong`), or a directory is in the way.  `Destination.outcome_of_replaceFile` says
which error there is for each.
-/

set_option autoImplicit false

namespace LogSplit

/-! ## The length of names -/

/-- A number has a byte for each of its digits. -/
theorem length_encode_toString (n : Nat) :
    (Utf8.encode (toString n)).length = (Nat.toDigits 10 n).length := by
  have hascii : ∀ cs : List Char, (∀ c ∈ cs, c.isDigit = true) →
      (Utf8.encodeChars cs).length = cs.length := by
    intro cs
    induction cs with
    | nil => exact fun _ => rfl
    | cons c cs ih =>
      intro hdigits
      obtain ⟨hc, hcs⟩ := List.forall_mem_cons.1 hdigits
      have hlt : c.toNat < 128 :=
        Nat.lt_of_le_of_lt (Char.isDigit_iff_toNat.1 hc).2 (by decide)
      rw [Utf8.encodeChars_cons, Utf8.utf8EncodeChar_of_lt hlt, List.length_append, ih hcs,
        List.length_singleton, List.length_cons, Nat.add_comm]
  rw [Utf8.encode_eq, Nat.toString_eq_ofList_toDigits, String.toList_ofList]
  exact hascii _ fun c hc => Nat.isDigit_of_mem_toDigits (by decide) (by decide) hc

namespace Stem

variable {stem : String} {n : Nat}

theorem length_fileName (stem : String) (n : Nat) :
    (fileName stem n).length = stem.utf8ByteSize + (Nat.toDigits 10 n).length + 5 := by
  have hdash : (Utf8.encode "-").length = 1 := by decide
  have hextension : (Utf8.encode ".txt").length = 4 := by decide
  rw [fileName, Utf8.encode_append, Utf8.encode_append, Utf8.encode_append, List.length_append,
    List.length_append, List.length_append, Utf8.length_encode stem, length_encode_toString, hdash,
    hextension]
  omega

theorem length_preparedName (stem : String) (n : Nat) :
    (preparedName stem n).length = (fileName stem n).length + 4 := by
  rw [preparedName, List.length_append]
  rfl

/-- **Which stems leave room for all numbers with so many digits.** -/
theorem names_fit_iff {digits : Nat} (h : 0 < digits) :
    (∀ n < 10 ^ digits, (fileName stem n).length ≤ maxNameLength ∧
        (preparedName stem n).length ≤ maxNameLength) ↔
      stem.utf8ByteSize + digits + 9 ≤ maxNameLength := by
  constructor
  · intro hfit
    -- the largest of the numbers has all digits
    have hpos : 0 < 10 ^ digits := Nat.pow_pos (by decide)
    have hlong : digits ≤ (Nat.toDigits 10 (10 ^ digits - 1)).length := by
      have hlt : 10 ^ digits - 1 < 10 ^ (Nat.toDigits 10 (10 ^ digits - 1)).length :=
        (Nat.length_toDigits_le_iff (by decide) Nat.length_toDigits_pos).1 (Nat.le_refl _)
      by_contra hless
      have hpow := Nat.pow_lt_pow_right (a := 10) (by decide) (Nat.lt_of_not_le hless)
      omega
    have hprepared := (hfit (10 ^ digits - 1) (by omega)).2
    rw [length_preparedName, length_fileName] at hprepared
    omega
  · intro hroom n hn
    have hlength := (Nat.length_toDigits_le_iff (by decide) h).2 hn
    rw [length_preparedName, length_fileName]
    omega

/-- The byte zero is in no name of a segment. -/
theorem zero_not_mem_fileName (h : validate stem = .ok ()) : 0 ∉ fileName stem n := by
  intro hmem
  rw [fileName, Utf8.encode_eq] at hmem
  obtain ⟨c, hc, hvalue⟩ := Utf8.exists_of_mem_encodeChars hmem (by decide)
  have hnul : c = '\x00' := Char.toNat_inj.1 hvalue
  subst hnul
  simp only [String.toList_append, List.mem_append] at hc
  rcases hc with ((hstem | hdash) | hdigits) | hextension
  · exact absurd (plain_of_mem h hstem).2 (by decide)
  · exact absurd hdash (by decide)
  · rw [Nat.toString_eq_ofList_toDigits, String.toList_ofList] at hdigits
    exact absurd (Nat.isDigit_of_mem_toDigits (by decide) (by decide) hdigits) (by decide)
  · exact absurd hextension (by decide)

theorem zero_not_mem_preparedName (h : validate stem = .ok ()) : 0 ∉ preparedName stem n :=
  fun hmem => (List.mem_append.1 hmem).elim (zero_not_mem_fileName h) (by decide)

end Stem

namespace Destination

open FileTree

variable {t : FileTree} {cwd base : Location} {d : Destination} {n : Nat} {bytes : Bytes}

/-! ## Names that are too long -/

/-- The name under which the file of a segment is prepared has more bytes than a name may have, or
its path has too many. -/
def TooLong (d : Destination) (index : Nat) : Prop :=
  maxNameLength < (Stem.preparedName d.stem index).length ∨
    maxPathLength ≤ (d.pathFor index).temporary.bytes.length

instance (d : Destination) (index : Nat) : Decidable (d.TooLong index) := by
  unfold TooLong
  infer_instance

theorem isEntryName_preparedName (h : ¬ d.TooLong n) :
    IsEntryName (Stem.preparedName d.stem n) where
  ne_dot := Stem.preparedName_ne (by decide)
  ne_up := Stem.preparedName_ne (by decide)
  length_le := Nat.le_of_not_lt (not_or.1 h).1

/-- The name of the file itself is shorter. -/
theorem isEntryName_fileName (h : ¬ d.TooLong n) : IsEntryName (Stem.fileName d.stem n) where
  ne_dot := Stem.fileName_ne (by decide)
  ne_up := Stem.fileName_ne (by decide)
  length_le := by
    have hle := (isEntryName_preparedName h).length_le
    rw [Stem.length_preparedName] at hle
    omega

theorem usable_temporary (hstem : Stem.validate d.stem = .ok ())
    (hzero : 0 ∉ d.dir.bytes) : usable (d.pathFor n).temporary
      = if maxPathLength ≤ (d.pathFor n).temporary.bytes.length then .error .nameTooLong
        else .ok () := by
  rw [temporary_pathFor hstem]
  exact usable_join (Stem.isPiece_preparedName hstem n) hzero (Stem.zero_not_mem_preparedName hstem)

theorem usable_pathFor (hstem : Stem.validate d.stem = .ok ())
    (hzero : 0 ∉ d.dir.bytes) (h : ¬ d.TooLong n) : usable (d.pathFor n) = .ok () := by
  have hprepared := (not_or.1 h).2
  have hle : (d.pathFor n).bytes.length ≤ (d.pathFor n).temporary.bytes.length := by
    rw [temporary_pathFor hstem, Path.join_eq (Stem.isPiece_preparedName hstem n), pathFor,
      Path.join_eq (Stem.isPiece_fileName hstem n), List.length_append, List.length_append,
      Stem.length_preparedName]
    omega
  rw [pathFor, usable_join (Stem.isPiece_fileName hstem n) hzero (Stem.zero_not_mem_fileName hstem),
    ← pathFor, if_neg (by omega)]

/-- **Which segment files can be put in place.** -/
theorem canTake_iff (hstem : Stem.validate d.stem = .ok ()) (hzero : 0 ∉ d.dir.bytes) :
    d.CanTake t base n ↔ ¬ d.TooLong n ∧ t.lookup (d.target base n) ≠ some .directory ∧
      t.lookup (d.prepared base n) ≠ some .directory := by
  constructor
  · intro h
    refine ⟨?_, h.target, h.prepared⟩
    rintro (hlong | hlong)
    · exact absurd h.reaches_prepared.2.length_le (Nat.not_le.2 hlong)
    · have husable := h.reaches_prepared.1
      rw [usable_temporary hstem hzero, if_pos hlong] at husable
      cases husable
  · rintro ⟨hshort, htarget, hprepared⟩
    have husable : usable (d.pathFor n).temporary = .ok () := by
      rw [usable_temporary hstem hzero, if_neg (not_or.1 hshort).2]
    exact ⟨⟨usable_pathFor hstem hzero hshort, isEntryName_fileName hshort⟩,
      ⟨husable, isEntryName_preparedName hshort⟩, htarget, hprepared⟩

/-! ## Why a segment file is refused -/

/-- Where a segment file is prepared, or why that cannot be done. -/
theorem landing_temporary (hplain : Plain t) (hstem : Stem.validate d.stem = .ok ())
    (hzero : 0 ∉ d.dir.bytes) (hdir : HasDirectory t cwd d.dir base) :
    t.landing cwd (d.pathFor n).temporary = if d.TooLong n then .error .nameTooLong
      else if t.lookup (d.prepared base n) = some .directory then .error .isDirectory
        else .ok (d.prepared base n) := by
  have hlanding := hplain.landing_join hdir (Stem.isPiece_preparedName hstem n)
    (Stem.preparedName_ne (by decide)) (Stem.preparedName_ne (by decide))
  rw [← temporary_pathFor hstem, usable_temporary hstem hzero] at hlanding
  rw [hlanding, childOf]
  by_cases hpath : maxPathLength ≤ (d.pathFor n).temporary.bytes.length
  · rw [if_pos hpath, if_pos (show d.TooLong n from Or.inr hpath)]
    rfl
  by_cases hname : maxNameLength < (Stem.preparedName d.stem n).length
  · rw [if_neg hpath, if_pos hname, if_pos (show d.TooLong n from Or.inl hname)]
    rfl
  · rw [if_neg hpath, if_neg hname, if_neg (show ¬ d.TooLong n from not_or.2 ⟨hname, hpath⟩)]
    rfl

/-- A file that has been prepared is not moved over a directory. -/
theorem move_of_directory (hstem : Stem.validate d.stem = .ok ())
    (hzero : 0 ∉ d.dir.bytes) (hdir : HasDirectory t cwd d.dir base)
    (hshort : ¬ d.TooLong n) (hprepared : t.lookup (d.prepared base n) = some (.file bytes))
    (htarget : t.lookup (d.target base n) = some .directory) :
    t.move cwd (d.pathFor n).temporary (d.pathFor n) = .error .isDirectory := by
  have husable : usable (d.pathFor n).temporary = .ok () := by
    rw [usable_temporary hstem hzero, if_neg (not_or.1 hshort).2]
  have hsource : t.parentOf cwd (d.pathFor n).temporary
      = .ok (base, .named (Stem.preparedName d.stem n)) := by
    rw [temporary_pathFor hstem] at husable ⊢
    rw [hdir.parentOf_join (Stem.isPiece_preparedName hstem n) (Stem.preparedName_ne (by decide))
      (Stem.preparedName_ne (by decide)), husable]
    rfl
  have hgoal : t.parentOf cwd (d.pathFor n) = .ok (base, .named (Stem.fileName d.stem n)) := by
    have husable := usable_pathFor hstem hzero hshort
    rw [pathFor] at husable ⊢
    rw [hdir.parentOf_join (Stem.isPiece_fileName hstem n) (Stem.fileName_ne (by decide))
      (Stem.fileName_ne (by decide)), husable]
    rfl
  have hbeside := Path.temporary_beside (Stem.isPiece hstem n) d.dir
  have hchild : childOf base (Stem.preparedName d.stem n) = .ok (d.prepared base n) :=
    if_neg (Nat.not_lt.2 (isEntryName_preparedName hshort).length_le)
  have hchild' : childOf base (Stem.fileName d.stem n) = .ok (d.target base n) :=
    if_neg (Nat.not_lt.2 (isEntryName_fileName hshort).length_le)
  have hslash : ((d.pathFor n).temporary.endsInSlash || (d.pathFor n).endsInSlash) = false :=
    Bool.or_eq_false_iff.2 ⟨hbeside.endsInSlash_left, hbeside.endsInSlash_right⟩
  rw [move, hsource, hgoal]
  simp only [bind, Except.bind, hchild, hchild', hprepared, htarget, hslash, if_true]
  rfl

/-- **How putting a segment file in place ends.** -/
theorem outcome_of_replaceFile (hplain : Plain t) (hstem : Stem.validate d.stem = .ok ())
    (hzero : 0 ∉ d.dir.bytes) (hdir : HasDirectory t cwd d.dir base) (bytes : Bytes) :
    (t.replaceFile cwd (d.pathFor n) bytes).1 = if d.TooLong n then .error .nameTooLong
      else if t.lookup (d.target base n) = some .directory ∨
          t.lookup (d.prepared base n) = some .directory then .error .isDirectory
        else .ok () := by
  have hlanding := landing_temporary (n := n) hplain hstem hzero hdir
  by_cases hlong : d.TooLong n
  · rw [if_pos hlong] at hlanding ⊢
    rw [replaceFile_of_write_error (e := .nameTooLong) (by rw [write_eq, hlanding]; rfl)]
  rw [if_neg hlong] at hlanding ⊢
  by_cases hprepared : t.lookup (d.prepared base n) = some .directory
  · rw [if_pos hprepared] at hlanding
    rw [if_pos (Or.inr hprepared),
      replaceFile_of_write_error (e := .isDirectory) (by rw [write_eq, hlanding]; rfl)]
  by_cases htarget : t.lookup (d.target base n) = some .directory
  · rw [if_neg hprepared] at hlanding
    rw [if_pos (Or.inl htarget)]
    have hown := (hplain.landing_eq_ok_iff.1 hlanding).2.1
    have hne := ownLocation_ne_nil hown
    have hwrite : t.write cwd (d.pathFor n).temporary bytes
        = .ok (t.insert (d.prepared base n) (.file bytes)) := by
      rw [write_eq, hlanding]
      rfl
    have hfile : (t.insert (d.prepared base n) (.file bytes)).lookup (d.prepared base n)
        = some (.file bytes) := by
      rw [lookup_insert t _ _ hne, if_pos rfl]
    have hstays : (t.insert (d.prepared base n) (.file bytes)).lookup (d.target base n)
        = some .directory := by
      rw [lookup_insert t _ _ hne, if_neg target_ne_prepared, htarget]
    have hdir' := hdir.of_keepsWays
      (keepsWays_insert hne (hplain.hasNoWay hprepared) (.file bytes))
    rw [replaceFile_of_move_error hwrite (move_of_directory hstem hzero hdir' hlong hfile hstays)]
  · rw [if_neg (not_or.2 ⟨htarget, hprepared⟩)]
    obtain ⟨t', hreplace⟩ := (exists_replaceFile_iff hplain hstem hdir bytes).2
      ((canTake_iff hstem hzero).2 ⟨hlong, htarget, hprepared⟩)
    rw [hreplace]

end Destination

end LogSplit
