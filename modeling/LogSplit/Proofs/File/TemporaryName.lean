import LogSplit.Proofs.File.PathNames

/-!
# The path that is written before another

A path may have slashes and single points behind its last name.  `Path.EndsIn` takes
such a path apart: a directory, the last name, and points behind it that lead nowhere else.  Every
path with a last name can be taken apart in this way (`Path.exists_endsIn`), and the path at which
its file is prepared is the name with `.tmp` behind it in the same directory, whether or not the
name has an extension and however it ends.
-/

set_option autoImplicit false

namespace LogSplit

namespace Path

variable {name : Bytes} {p dir : Path}

/-- A path that ends in a name of a directory, perhaps with slashes and single points behind it. -/
structure EndsIn (p dir : Path) (name : Bytes) : Prop where
  /-- The name can be joined to a path. -/
  isPiece : IsPiece name
  /-- It is not the directory itself. -/
  ne_dot : name ≠ "."
  /-- It is not the directory above. -/
  ne_up : name ≠ ".."
  /-- What is behind it are points. -/
  names : ∃ dots, p.names = dir.names ++ name :: dots ∧ ∀ dot ∈ dots, dot = "."
  /-- The path is read from where the directory is read. -/
  isAbsolute : p.isAbsolute = dir.isAbsolute
  /-- Its file is prepared in the same directory. -/
  temporary : p.temporary = dir.join (name ++ ".tmp")

/-! ## Extensions -/

theorem cutExtension_fst (h : (cutExtension name).2 = none) : (cutExtension name).1 = name := by
  rw [cutExtension] at h ⊢
  split
  · rename_i heq
    simp only [heq] at h
    cases h
  · rfl

/-- Whatever extension a name has, the one of the prepared file comes behind it. -/
theorem bytes_temporary (h : p.fileName? = some name) :
    p.temporary.bytes
      = ((dropTail p.bytes.reverse).drop name.length).reverse ++ (name ++ ".tmp") := by
  rw [temporary, extension?, h, Option.bind_some]
  cases hcut : (cutExtension name).2 with
  | none =>
    simp only [withExtension, h, cutExtension_fst hcut]
    rw [List.append_assoc, List.append_assoc]
    rfl
  | some extension =>
    obtain ⟨stem, rfl, hstem, hpoint⟩ := exists_of_cutExtension hcut
    simp only [withExtension, h, cutExtension_point hstem hpoint]
    simp only [List.append_assoc]

/-! ## What is behind the last name -/

/-- What is taken off the end of a path are points. -/
theorem names_dropTail (bs : Bytes) :
    ∃ dots, (Path.mk bs.reverse).names = (Path.mk (dropTail bs).reverse).names ++ dots ∧
      ∀ dot ∈ dots, dot = "." := by
  fun_induction dropTail bs with
  | case1 => exact ⟨[], (List.append_nil _).symm, by simp⟩
  | case2 bs ih => rwa [List.reverse_cons, names_concat_slash]
  | case3 b bs hb hpoint ih =>
    obtain ⟨rfl, hslash⟩ := hpoint
    obtain ⟨rest, rfl⟩ := List.head?_eq_some_iff.1 hslash
    obtain ⟨dots, hnames, hdots⟩ := ih
    refine ⟨dots ++ [Utf8.encode "."], ?_, fun dot hdot => ?_⟩
    · have hpoint : (Path.mk [point]).names = [Utf8.encode "."] := by decide
      rw [List.reverse_cons, List.reverse_cons] at *
      rw [names_append_slash, hpoint, ← List.append_assoc, ← hnames, names_concat_slash]
    · rcases List.mem_append.1 hdot with hdot | hdot
      · exact hdots dot hdot
      · exact List.mem_singleton.1 hdot
  | case4 b bs hb hpoint => exact ⟨[], (List.append_nil _).symm, by simp⟩

/-- What is left is nothing, a single point, or ends in a word that is neither. -/
theorem dropTail_cases (bs : Bytes) :
    dropTail bs = [] ∨ dropTail bs = [point] ∨
      ∃ word rest, dropTail bs = word ++ rest ∧ word ≠ [] ∧ slash ∉ word ∧ word ≠ [point] ∧
        (rest = [] ∨ ∃ front, rest = slash :: front) := by
  fun_induction dropTail bs with
  | case1 => exact Or.inl rfl
  | case2 bs ih => exact ih
  | case3 b bs hb hpoint ih => exact ih
  | case4 b bs hb hpoint =>
    have hcut := (List.takeWhile_append_dropWhile (p := (· ≠ slash)) (l := b :: bs)).symm
    have hword : slash ∉ (b :: bs).takeWhile (· ≠ slash) := fun hmem => by
      simpa using
        List.all_eq_true.1 (List.all_takeWhile (p := (· ≠ slash)) (l := b :: bs)) slash hmem
    have hrest : (b :: bs).dropWhile (· ≠ slash) = [] ∨
        ∃ front, (b :: bs).dropWhile (· ≠ slash) = slash :: front := by
      rcases hback : (b :: bs).dropWhile (· ≠ slash) with _ | ⟨c, front⟩
      · exact Or.inl rfl
      · have hhead := List.head?_dropWhile_not (· ≠ slash) (b :: bs)
        rw [hback] at hhead
        have hc : c = slash := by simpa using hhead
        exact Or.inr ⟨front, by rw [hc]⟩
    generalize (b :: bs).takeWhile (· ≠ slash) = word at hcut hword
    generalize (b :: bs).dropWhile (· ≠ slash) = rest at hcut hrest
    by_cases hnil : word = []
    · rcases hrest with rfl | ⟨front, rfl⟩
      · exact Or.inl (by rw [hcut, hnil, List.append_nil])
      · rw [hnil, List.nil_append] at hcut
        exact absurd (List.cons.inj hcut).1 hb
    by_cases hdot : word = [point]
    · rcases hrest with rfl | ⟨front, rfl⟩
      · exact Or.inr (Or.inl (by rw [hcut, hdot, List.append_nil]))
      · rw [hdot, List.singleton_append] at hcut
        obtain ⟨rfl, rfl⟩ := List.cons.inj hcut
        exact absurd ⟨rfl, rfl⟩ hpoint
    exact Or.inr (Or.inr ⟨word, rest, hcut, hnil, hword, hdot, hrest⟩)

/-- Points behind the names of a path do not change its last name. -/
theorem filter_append_dots (names : List Bytes) {dots : List Bytes}
    (hdots : ∀ dot ∈ dots, dot = ".") :
    (names ++ dots).filter (fun name : Bytes => name ≠ ".")
      = names.filter fun name : Bytes => name ≠ "." := by
  have hnone : dots.filter (fun name : Bytes => name ≠ ".") = [] :=
    List.filter_eq_nil_iff.2 fun dot hdot => by simp [hdots dot hdot]
  rw [List.filter_append, hnone, List.append_nil]

/-- A name that is joined to nothing, or behind a slash, is put there as it is. -/
theorem join_of_slash {rest : Bytes} (hrest : rest = [] ∨ ∃ front, rest = slash :: front)
    (hname : IsPiece name) : (Path.mk rest.reverse).join name = ⟨rest.reverse ++ name⟩ := by
  rw [join_eq hname, stub, if_pos]
  rcases hrest with rfl | ⟨front, rfl⟩
  · rfl
  · simp [endsInSlash]

/-- The last name of a path is the one in front of the points at its end. -/
theorem eq_of_fileName? (hdot : name ≠ ".") {dots : List Bytes} (hdots : ∀ dot ∈ dots, dot = ".")
    (hp : p.names = dir.names ++ name :: dots) {last : Bytes} (h : p.fileName? = some last) :
    last = name ∧ name ≠ ".." := by
  have hfilter : [name].filter (fun name : Bytes => name ≠ ".") = [name] :=
    List.filter_cons_of_pos (by simpa using hdot)
  rw [fileName?, hp, List.append_cons, filter_append_dots _ hdots, List.filter_append, hfilter,
    List.getLast?_concat] at h
  obtain ⟨hlast, hup⟩ := Option.filter_eq_some_iff.1 h
  cases hlast
  exact ⟨rfl, by simpa using hup⟩

/-- Without what stands behind it a path ends in its last name, which is a whole one: nothing
stands in front of it, or a slash.  The bytes are given in reverse. -/
theorem exists_dropTail_of_fileName? (h : p.fileName? = some name) : ∃ rest,
    dropTail p.bytes.reverse = name.reverse ++ rest ∧
      (rest = [] ∨ ∃ front, rest = slash :: front) ∧ IsPiece name ∧ name ≠ "." ∧ name ≠ ".." ∧
      ∃ dots, p.names = (Path.mk rest.reverse).names ++ name :: dots ∧
        ∀ dot ∈ dots, dot = "." := by
  obtain ⟨dots, hnames, hdots⟩ := names_dropTail p.bytes.reverse
  rw [List.reverse_reverse] at hnames
  rcases dropTail_cases p.bytes.reverse with hnil | hpoint |
    ⟨word, rest, hword, hne, hslash, hdot, hrest⟩
  · rw [fileName?, hnames, filter_append_dots _ hdots, hnil] at h
    cases h
  · have hnone : ((Path.mk [point].reverse).names.filter
        fun name : Bytes => name ≠ ".").getLast? = none := by decide
    rw [fileName?, hnames, filter_append_dots _ hdots, hpoint, hnone] at h
    cases h
  have hpiece : IsPiece word.reverse := ⟨by simpa using hne, by simpa using hslash⟩
  have hdot' : word.reverse ≠ "." := fun heq => hdot (List.reverse_inj.1 heq)
  have hjoin : (Path.mk rest.reverse).join word.reverse = ⟨(word ++ rest).reverse⟩ := by
    rw [join_of_slash hrest hpiece, List.reverse_append]
  rw [hword, ← hjoin, names_join hpiece, List.append_assoc, List.singleton_append] at hnames
  obtain ⟨rfl, hup⟩ := eq_of_fileName? hdot' hdots hnames h
  exact ⟨rest, by simp [hword], hrest, hpiece, hdot', hup, dots, hnames, hdots⟩

theorem bytes_temporary_of_dropTail {rest : Bytes} (h : p.fileName? = some name)
    (htail : dropTail p.bytes.reverse = name.reverse ++ rest) :
    p.temporary.bytes = rest.reverse ++ (name ++ ".tmp") := by
  rw [bytes_temporary h, htail, ← List.length_reverse, List.drop_left]

/-- **Every path with a last name ends in it.** -/
theorem exists_endsIn (h : p.fileName? = some name) : ∃ dir : Path, p.EndsIn dir name := by
  obtain ⟨rest, htail, hrest, hpiece, hdot, hup, hnames⟩ := exists_dropTail_of_fileName? h
  refine ⟨⟨rest.reverse⟩, hpiece, hdot, hup, hnames, ?_, ?_⟩
  · -- what has been taken off stands behind the name
    obtain ⟨taken, htaken, -⟩ := exists_dropTail p.bytes.reverse
    have hbytes : p.bytes = rest.reverse ++ name ++ taken.reverse := by
      rw [← List.reverse_inj, htaken, htail]
      simp
    have hne : rest.reverse ++ name ≠ [] := List.append_ne_nil_of_right_ne_nil _ hpiece.ne_nil
    rw [← isAbsolute_join hpiece ⟨rest.reverse⟩, join_of_slash hrest hpiece, isAbsolute, isAbsolute,
      hbytes, List.head?_append_of_ne_nil _ hne]
  · rw [join_of_slash hrest (isPiece_append hpiece (by decide)), Path.mk.injEq,
      bytes_temporary_of_dropTail h htail]

end Path

end LogSplit
