import LogSplit.File.Tree
import LogSplit.Proofs.Text.Encoding
import LogSplit.Stem
import Mathlib.Data.List.Basic

/-!
# Names of joined paths

A name that is joined to a path becomes its last name and leaves the names before it alone, and
the path that a segment file is prepared at is joined from the same directory.  So a segment file
and the file it is prepared in always stand side by side.  The other way round, the directories
above a path have the first of its names (`Path.above_of_mem_ancestors`).
-/

set_option autoImplicit false

namespace LogSplit

namespace Path

/-- A name that can be joined to a path: not empty and without a slash. -/
structure IsPiece (name : Bytes) : Prop where
  /-- It is not empty. -/
  ne_nil : name ≠ []
  /-- It has no slash. -/
  slash_not_mem : slash ∉ name

variable {name : Bytes}

/-- A text without a slash can be joined. -/
theorem isPiece_encode {text : String} (hne : text ≠ "") (hslash : '/' ∉ text.toList) :
    IsPiece text where
  ne_nil := Utf8.encode_ne_nil hne
  slash_not_mem hmem := by
    rw [Utf8.encode_eq] at hmem
    obtain ⟨c, hc, hvalue⟩ := Utf8.exists_of_mem_encodeChars hmem (by decide)
    have hchar : c = '/' := Char.toNat_inj.1 hvalue
    exact hslash (hchar ▸ hc)

/-- What joining puts in front of a name. -/
def stub (dir : Path) : Bytes :=
  if dir.bytes = [] || dir.endsInSlash then dir.bytes else dir.bytes ++ [slash]

theorem IsPiece.head?_ne (h : IsPiece name) : name.head? ≠ some slash :=
  fun hhead => h.slash_not_mem (List.mem_of_head? hhead)

theorem join_eq (h : IsPiece name) (dir : Path) : dir.join name = ⟨dir.stub ++ name⟩ := by
  rw [join, if_neg h.head?_ne, stub]
  split <;> rfl

/-! ## Names -/

theorem names_append_slash (front back : Bytes) :
    (Path.mk (front ++ [slash] ++ back)).names = (Path.mk front).names ++ (Path.mk back).names := by
  have hsplit : (front ++ [slash] ++ back).splitOn slash
      = front.splitOn slash ++ back.splitOn slash := by
    rw [List.append_assoc]
    exact List.splitOn_append_cons_self front back
  rw [names, names, names, hsplit, List.filter_append]

theorem names_empty : (Path.mk []).names = [] := by decide

theorem names_concat_slash (bs : Bytes) : (Path.mk (bs ++ [slash])).names = (Path.mk bs).names := by
  have hsplit := names_append_slash bs []
  rwa [List.append_nil, names_empty, List.append_nil] at hsplit

theorem names_piece (h : IsPiece name) : (Path.mk name).names = [name] := by
  rw [names, List.splitOn_eq_singleton h.slash_not_mem]
  exact List.filter_cons_of_pos (by simp [h.ne_nil])

theorem slash_not_mem_of_mem_splitOn {bs piece : Bytes} (h : piece ∈ bs.splitOn slash) :
    slash ∉ piece := by
  induction bs generalizing piece with
  | nil =>
    rw [List.splitOn_nil, List.mem_singleton] at h
    rw [h]
    exact List.not_mem_nil
  | cons b bs ih =>
    rw [List.splitOn_cons_eq_if_modifyHead] at h
    split at h
    · rcases List.mem_cons.1 h with rfl | h
      · exact List.not_mem_nil
      · exact ih h
    · rename_i hb
      -- the first piece of the rest has the byte put in front of it
      obtain ⟨first, pieces, hpieces⟩ := List.exists_cons_of_ne_nil (List.splitOn_ne_nil slash bs)
      rw [hpieces, List.modifyHead_cons] at h
      rw [hpieces] at ih
      rcases List.mem_cons.1 h with rfl | h
      · intro hmem
        rcases List.mem_cons.1 hmem with rfl | hmem
        · exact hb rfl
        · exact ih List.mem_cons_self hmem
      · exact ih (List.mem_cons_of_mem _ h)

/-- **The names of a path have no slash and are not empty.** -/
theorem isPiece_of_mem_names {p : Path} (h : name ∈ p.names) : IsPiece name := by
  obtain ⟨hpiece, hne⟩ := List.mem_filter.1 h
  exact ⟨fun hnil => by simp [hnil] at hne, slash_not_mem_of_mem_splitOn hpiece⟩

/-- What stands in front of a joined name is nothing or ends in a slash. -/
theorem stub_cases (dir : Path) :
    dir.bytes = [] ∧ dir.stub = [] ∨
      (∃ front, dir.bytes = front ++ [slash] ∧ dir.stub = front ++ [slash]) ∨
      dir.bytes ≠ [] ∧ dir.stub = dir.bytes ++ [slash] := by
  rw [stub]
  by_cases hempty : dir.bytes = []
  · exact Or.inl ⟨hempty, by rw [if_pos (by simp [hempty]), hempty]⟩
  · cases hslash : dir.endsInSlash with
    | true =>
      obtain ⟨front, hfront⟩ := List.getLast?_eq_some_iff.1 (beq_iff_eq.1 hslash)
      exact Or.inr (Or.inl ⟨front, hfront, by rw [if_pos (by simp), hfront]⟩)
    | false => exact Or.inr (Or.inr ⟨hempty, by rw [if_neg (by simp [hempty])]⟩)

/-- **A joined name becomes the last name.** -/
theorem names_join (h : IsPiece name) (dir : Path) :
    (dir.join name).names = dir.names ++ [name] := by
  obtain ⟨bytes⟩ := dir
  rw [join_eq h]
  rcases stub_cases ⟨bytes⟩ with ⟨rfl, hstub⟩ | ⟨front, rfl, hstub⟩ | ⟨-, hstub⟩ <;> rw [hstub]
  · rw [names_empty, List.nil_append, names_piece h, List.nil_append]
  · rw [names_append_slash, names_piece h, names_concat_slash]
  · rw [names_append_slash, names_piece h]

theorem endsInSlash_join (h : IsPiece name) (dir : Path) : (dir.join name).endsInSlash = false := by
  rw [join_eq h, endsInSlash, List.getLast?_append]
  cases hlast : name.getLast? with
  | none => exact absurd (List.getLast?_eq_none_iff.1 hlast) h.ne_nil
  | some last =>
    have hne : last ≠ slash := by
      rintro rfl
      exact h.slash_not_mem (List.mem_of_getLast? hlast)
    simpa using hne

/-- Whatever is joined to a path, it is read from the same place. -/
theorem isAbsolute_join (h : IsPiece name) (dir : Path) :
    (dir.join name).isAbsolute = dir.isAbsolute := by
  obtain ⟨bytes⟩ := dir
  rw [join_eq h, isAbsolute, isAbsolute]
  rcases stub_cases ⟨bytes⟩ with ⟨rfl, hstub⟩ | ⟨front, rfl, hstub⟩ | ⟨hne, hstub⟩ <;> rw [hstub]
  · rw [List.nil_append, beq_eq_false_iff_ne.2 h.head?_ne]
    rfl
  · rw [List.head?_append_of_ne_nil _ (by simp)]
  · rw [List.append_assoc, List.head?_append_of_ne_nil _ hne]

theorem origin_join (h : IsPiece name) (cwd : Location) (dir : Path) :
    FileTree.origin cwd (dir.join name) = FileTree.origin cwd dir := by
  rw [FileTree.origin, FileTree.origin, isAbsolute_join h]

/-! ## Where a segment file is prepared -/

theorem isPiece_append (h : IsPiece name) {suffix : Bytes} (hsuffix : slash ∉ suffix) :
    IsPiece (name ++ suffix) where
  ne_nil := List.append_ne_nil_of_left_ne_nil h.ne_nil _
  slash_not_mem hmem := (List.mem_append.1 hmem).elim h.slash_not_mem hsuffix

/-- A name is cut at a point with something in front of it and no point behind it. -/
theorem cutExtension_point {stem extension : Bytes} (h : stem ≠ []) (hpoint : point ∉ extension) :
    cutExtension (stem ++ [point] ++ extension) = (stem, some extension) := by
  have hreversed : (stem ++ [point] ++ extension).reverse
      = extension.reverse ++ point :: stem.reverse := by
    simp
  have htake : (extension.reverse ++ point :: stem.reverse).takeWhile (· ≠ point)
      = extension.reverse := by
    rw [List.takeWhile_append_of_pos]
    · simp
    · intro b hb
      simpa using fun heq : b = point => hpoint (heq ▸ List.mem_reverse.1 hb)
  rw [cutExtension, hreversed, htake, List.drop_left]
  cases hstem : stem.reverse with
  | nil => exact absurd (List.reverse_eq_nil_iff.1 hstem) h
  | cons b bs =>
    have hback : (b :: bs).reverse = stem := by rw [← hstem, List.reverse_reverse]
    simp only [hback, List.reverse_reverse]

theorem drop_length_takeWhile (p : UInt8 → Bool) (bs : Bytes) :
    bs.drop (bs.takeWhile p).length = bs.dropWhile p := by
  have h : ((bs.takeWhile p) ++ bs.dropWhile p).drop (bs.takeWhile p).length = bs.dropWhile p :=
    List.drop_left
  rwa [List.takeWhile_append_dropWhile] at h

/-- Every cut is one of these. -/
theorem exists_of_cutExtension {extension : Bytes} (h : (cutExtension name).2 = some extension) :
    ∃ stem, name = stem ++ [point] ++ extension ∧ stem ≠ [] ∧ point ∉ extension := by
  have hsplit := List.takeWhile_append_dropWhile (p := (· ≠ point)) (l := name.reverse)
  rw [cutExtension, drop_length_takeWhile] at h
  split at h
  · rename_i b first rest hrest
    cases h
    have hb : b = point := by
      have hhead := List.head?_dropWhile_not (· ≠ point) name.reverse
      rw [hrest] at hhead
      simpa using hhead
    subst hb
    refine ⟨(first :: rest).reverse, ?_, by simp, fun hmem => ?_⟩
    · rw [hrest] at hsplit
      refine List.reverse_inj.1 (hsplit.symm.trans ?_)
      simp
    · have hall := List.all_takeWhile (p := (· ≠ point)) (l := name.reverse)
      simpa using List.all_eq_true.1 hall point (List.mem_reverse.1 hmem)
  · cases h

theorem cutExtension_txt {stem : Bytes} (h : stem ≠ []) :
    cutExtension (stem ++ ".txt") = (stem, some (Utf8.encode "txt")) := by
  have hbytes : stem ++ Utf8.encode ".txt" = stem ++ [point] ++ Utf8.encode "txt" := by
    rw [List.append_assoc]
    rfl
  rw [hbytes, cutExtension_point h (by decide)]

/-- The last name of a joined path is the joined one, unless it leads to a directory as it is. -/
theorem fileName?_join (h : IsPiece name) (hdot : name ≠ ".") (hup : name ≠ "..") (dir : Path) :
    (dir.join name).fileName? = some name := by
  have hfilter : [name].filter (fun name : Bytes => name ≠ ".") = [name] :=
    List.filter_cons_of_pos (by simpa using hdot)
  rw [fileName?, names_join h, List.filter_append, hfilter, List.getLast?_concat]
  exact Option.filter_some_pos (by simpa using hup)

theorem append_txt_ne (stem : Bytes) {other : Bytes} (h : other.getLast? = some point) :
    stem ++ ".txt" ≠ other := by
  rintro rfl
  rw [List.getLast?_append] at h
  cases h

theorem fileName?_join_txt {stem : Bytes} (h : IsPiece stem) (dir : Path) :
    (dir.join (stem ++ ".txt")).fileName? = some (stem ++ ".txt") :=
  fileName?_join (isPiece_append h (by decide)) (append_txt_ne stem (by decide))
    (append_txt_ne stem (by decide)) dir

/-- Nothing is taken off the end of a path that ends in some other byte. -/
theorem dropTail_cons_of_ne {b : UInt8} (hslash : b ≠ slash) (hpoint : b ≠ point) (bs : Bytes) :
    dropTail (b :: bs) = b :: bs := by
  rw [dropTail, if_neg hslash, if_neg fun h => hpoint h.1]

/-- **A segment file is prepared next to its own path.** -/
theorem temporary_join {stem : Bytes} (h : IsPiece stem) (dir : Path) :
    (dir.join (stem ++ ".txt")).temporary = dir.join (stem ++ ".txt" ++ ".tmp") := by
  have hpiece : IsPiece (stem ++ ".txt") := isPiece_append h (by decide)
  have hlong : IsPiece (stem ++ ".txt" ++ ".tmp") := isPiece_append hpiece (by decide)
  have hkept : (dropTail (dir.join (stem ++ ".txt")).bytes.reverse).drop
      (stem ++ Utf8.encode ".txt").length = dir.stub.reverse := by
    have htail : dropTail ((stem ++ Utf8.encode ".txt").reverse ++ dir.stub.reverse)
        = (stem ++ Utf8.encode ".txt").reverse ++ dir.stub.reverse := by
      rw [List.reverse_append]
      exact dropTail_cons_of_ne (by decide) (by decide) _
    rw [join_eq hpiece, List.reverse_append, htail, ← List.length_reverse, List.drop_left]
  rw [temporary, extension?, fileName?_join_txt h, Option.bind_some, cutExtension_txt h.ne_nil]
  simp only
  rw [withExtension, fileName?_join_txt h]
  simp only
  rw [hkept, cutExtension_txt h.ne_nil, List.reverse_reverse, join_eq hlong, Path.mk.injEq]
  simp only [List.append_assoc]
  rfl

/-- Two paths to names in the same directory, spelled in the same way up to their last names. -/
structure Beside (p q : Path) : Prop where
  /-- The names before the last one are the same. -/
  names : p.names.dropLast = q.names.dropLast
  /-- They are read from the same place. -/
  isAbsolute : p.isAbsolute = q.isAbsolute
  /-- The first does not ask for a directory. -/
  endsInSlash_left : p.endsInSlash = false
  /-- Neither does the second. -/
  endsInSlash_right : q.endsInSlash = false

theorem beside_join {name other : Bytes} (h : IsPiece name) (hother : IsPiece other) (dir : Path) :
    (dir.join name).Beside (dir.join other) where
  names := by rw [names_join h, names_join hother, List.dropLast_concat, List.dropLast_concat]
  isAbsolute := by rw [isAbsolute_join h, isAbsolute_join hother]
  endsInSlash_left := endsInSlash_join h dir
  endsInSlash_right := endsInSlash_join hother dir

theorem temporary_beside {stem : Bytes} (h : IsPiece stem) (dir : Path) :
    (dir.join (stem ++ ".txt")).temporary.Beside (dir.join (stem ++ ".txt")) := by
  have hpiece : IsPiece (stem ++ ".txt") := isPiece_append h (by decide)
  rw [temporary_join h]
  exact beside_join (isPiece_append hpiece (by decide)) hpiece dir

/-! ## The directories above a path -/

theorem dropTail_slash (bs : Bytes) : dropTail (slash :: bs) = dropTail bs := by
  rw [dropTail, if_pos rfl]

/-- What is taken off the end of a path begins with a slash. -/
theorem exists_dropTail (bs : Bytes) :
    ∃ taken, bs = taken ++ dropTail bs ∧ (taken = [] ∨ ∃ front, taken = front ++ [slash]) := by
  fun_induction dropTail bs with
  | case1 => exact ⟨[], rfl, Or.inl rfl⟩
  | case2 bs ih =>
    obtain ⟨taken, hbs, rfl | ⟨front, rfl⟩⟩ := ih
    · exact ⟨[slash], congrArg (slash :: ·) hbs, Or.inr ⟨[], rfl⟩⟩
    · exact ⟨slash :: front ++ [slash], congrArg (slash :: ·) hbs, Or.inr ⟨slash :: front, rfl⟩⟩
  | case3 b bs hb hpoint ih =>
    obtain ⟨taken, hbs, rfl | ⟨front, rfl⟩⟩ := ih
    · -- the slash has been taken off
      obtain ⟨rest, rfl⟩ := List.head?_eq_some_iff.1 hpoint.2
      have hlt := congrArg List.length hbs
      have hle := length_dropTail_le rest
      rw [List.nil_append, List.length_cons, dropTail_slash] at hlt
      omega
    · exact ⟨b :: front ++ [slash], congrArg (b :: ·) hbs, Or.inr ⟨b :: front, rfl⟩⟩
  | case4 b bs hb hpoint => exact ⟨[], rfl, Or.inl rfl⟩

/-- The path of the directory stands in front of a slash. -/
theorem exists_dropName (bs : Bytes) :
    dropName bs = [] ∨ ∃ front, bs = front ++ slash :: dropName bs := by
  obtain ⟨taken, hbs, -⟩ := exists_dropTail bs
  have hname := (List.takeWhile_append_dropWhile (p := (· ≠ slash)) (l := dropTail bs)).symm
  rw [dropName]
  rcases hrest : (dropTail bs).dropWhile (· ≠ slash) with _ | ⟨b, rest⟩
  · exact Or.inl rfl
  · have hb : b = slash := by
      have hhead := List.head?_dropWhile_not (· ≠ slash) (dropTail bs)
      rw [hrest] at hhead
      simpa using hhead
    subst hb
    obtain ⟨taken', hrest', rfl | ⟨front, rfl⟩⟩ := exists_dropTail (slash :: rest)
    · have hlt := congrArg List.length hrest'
      have hle := length_dropTail_le rest
      rw [List.nil_append, List.length_cons, dropTail_slash] at hlt
      omega
    · refine Or.inr ⟨taken ++ (dropTail bs).takeWhile (· ≠ slash) ++ front, ?_⟩
      rw [hrest] at hname
      calc bs = taken ++ dropTail bs := hbs
        _ = taken ++ ((dropTail bs).takeWhile (· ≠ slash) ++ slash :: rest) :=
          congrArg (taken ++ ·) hname
        _ = taken ++ ((dropTail bs).takeWhile (· ≠ slash)
              ++ (front ++ [slash] ++ dropTail (slash :: rest))) := by rw [← hrest']
        _ = taken ++ (dropTail bs).takeWhile (· ≠ slash) ++ front
              ++ slash :: dropTail (slash :: rest) := by
          simp only [List.append_assoc, List.singleton_append]

/-- One path is a directory above another by its spelling. -/
structure Above (q p : Path) : Prop where
  /-- Its names are the first of the other's. -/
  names : q.names <+: p.names
  /-- Both are read from the same place. -/
  isAbsolute : q.isAbsolute = p.isAbsolute

theorem Above.refl (p : Path) : Above p p := ⟨List.prefix_refl _, rfl⟩

theorem Above.trans {o p q : Path} (h : Above q p) (h' : Above p o) : Above q o :=
  ⟨h.names.trans h'.names, h.isAbsolute.trans h'.isAbsolute⟩

theorem above_of_slash {front : Bytes} (hne : front ≠ []) (back : Bytes) :
    Above ⟨front⟩ ⟨front ++ slash :: back⟩ where
  names := by
    rw [List.append_cons, names_append_slash]
    exact List.prefix_append _ _
  isAbsolute := by
    obtain ⟨b, bs, rfl⟩ := List.exists_cons_of_ne_nil hne
    simp [isAbsolute]

theorem above_of_mem_above {bs : Bytes} {q : Path} (h : q ∈ above bs) : Above q ⟨bs.reverse⟩ := by
  fun_induction above bs with
  | case1 bs up hlt hempty => cases h
  | case2 bs up hlt hempty ih =>
    have hne : up ≠ [] := fun hnil => hempty (List.isEmpty_iff.2 hnil)
    have hup : Above ⟨up.reverse⟩ ⟨bs.reverse⟩ := by
      obtain hnil | ⟨front, hbs⟩ := exists_dropName bs
      · exact absurd hnil hne
      · rw [hbs, List.reverse_append, List.reverse_cons, List.append_assoc]
        exact above_of_slash (by simpa using hne) front.reverse
    rcases List.mem_cons.1 h with rfl | h
    · exact hup
    · exact (ih h).trans hup
  | case3 bs up hlt => cases h

/-- **The directories that are made for a path lie on the way to it.** -/
theorem above_of_mem_ancestors {p q : Path} (h : q ∈ p.ancestors) : Above q p := by
  rw [ancestors] at h
  split at h
  · cases h
  · rcases List.mem_cons.1 h with rfl | h
    · exact .refl q
    · simpa using above_of_mem_above h

end Path

namespace Stem

theorem slash_not_mem {stem : String} (h : validate stem = .ok ()) : '/' ∉ stem.toList := by
  intro hmem
  have hany : stem.toList.any isSeparator = true := List.any_eq_true.2 ⟨'/', hmem, by decide⟩
  have hfault : ∃ fault, fault? stem = some fault := by
    rw [fault?]
    split
    · exact ⟨_, rfl⟩
    · split
      · exact ⟨_, rfl⟩
      · exact ⟨_, rfl⟩
  obtain ⟨fault, hfault⟩ := hfault
  rw [validate, hfault] at h
  cases h

/-- The name of a segment file without its extension. -/
def numbered (stem : String) (index : Nat) : Bytes := Utf8.encode (stem ++ "-" ++ toString index)

theorem fileName_eq (stem : String) (index : Nat) :
    fileName stem index = numbered stem index ++ ".txt" :=
  Utf8.encode_append _ _

/-- The name of a segment file is one name, whatever the number. -/
theorem isPiece {stem : String} (h : validate stem = .ok ()) (index : Nat) :
    Path.IsPiece (numbered stem index) := by
  refine Path.isPiece_encode (by simp) ?_
  have hdigits : '/' ∉ (toString index).toList := by
    rw [Nat.toString_eq_ofList_toDigits, String.toList_ofList]
    intro hmem
    exact absurd (Nat.isDigit_of_mem_toDigits (by decide) (by decide) hmem) (by decide)
  simp only [String.toList_append, List.mem_append, not_or]
  exact ⟨⟨slash_not_mem h, by decide⟩, hdigits⟩

end Stem

end LogSplit
