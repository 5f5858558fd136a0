import LogSplit.Proofs.File.TemporaryName

/-!
# A name with `.tmp` behind it

The path at which a file is prepared is made by giving the path of the file another extension.
Which extension a name has depends on its points: one at its front counts for nothing, one at its
end leaves the empty extension behind, and of several the last one counts.  None of this can be
seen in the result.  The last name of the new path is the old one with `.tmp` behind it, and
everything in front of it is the same (`Path.temporary_appends`).

So a file is never prepared at its own path, and files with different names are never prepared at
the same one.
-/

set_option autoImplicit false

namespace LogSplit

namespace Path

variable {name : Bytes} {p : Path}

/-- The path of the directory that a path names something in, without slashes and points at its
end.  Of the root, and of the directory that paths are read from, nothing is left. -/
def directory (p : Path) : Path := ⟨(dropName p.bytes.reverse).reverse⟩

/-- Two paths name something in the same directory. -/
structure SameDirectory (p q : Path) : Prop where
  /-- The paths of the directories are the same. -/
  directory : p.directory = q.directory
  /-- They are read from the same place. -/
  isAbsolute : p.isAbsolute = q.isAbsolute

/-- Once what stands behind the last name is gone, the directory is in front of it. -/
theorem dropName_of_dropTail {bs word rest : Bytes} (h : dropTail bs = word ++ rest)
    (hword : slash ∉ word) (hrest : rest = [] ∨ ∃ front, rest = slash :: front) :
    dropName bs = dropTail rest := by
  have hall : ∀ b ∈ word, decide (b ≠ slash) = true := by
    intro b hb
    exact decide_eq_true fun heq => hword (heq ▸ hb)
  rw [dropName, h, List.dropWhile_append_of_pos hall]
  rcases hrest with rfl | ⟨front, rfl⟩ <;> simp

theorem fileName?_temporary (h : p.fileName? = some name) :
    p.temporary.fileName? = some (name ++ ".tmp") := by
  obtain ⟨dir, hends⟩ := exists_endsIn h
  have hlong : ∀ other : Bytes, other.length < 4 → name ++ ".tmp" ≠ other := by
    rintro other hother rfl
    rw [List.length_append] at hother
    exact absurd hother (Nat.not_lt.2 (Nat.le_add_left 4 name.length))
  rw [hends.temporary]
  exact fileName?_join (isPiece_append hends.isPiece (by decide)) (hlong _ (by decide))
    (hlong _ (by decide)) dir

theorem sameDirectory_temporary (h : p.fileName? = some name) : p.temporary.SameDirectory p := by
  obtain ⟨dir, hends⟩ := exists_endsIn h
  obtain ⟨rest, htail, hrest, hpiece, -⟩ := exists_dropTail_of_fileName? h
  have hlong : IsPiece (name ++ ".tmp") := isPiece_append hpiece (by decide)
  constructor
  · have hbytes : p.temporary.bytes.reverse = (name ++ Utf8.encode ".tmp").reverse ++ rest := by
      rw [bytes_temporary_of_dropTail h htail, List.reverse_append, List.reverse_reverse]
    have htmp : dropTail ((name ++ Utf8.encode ".tmp").reverse ++ rest)
        = (name ++ Utf8.encode ".tmp").reverse ++ rest := by
      rw [List.reverse_append]
      exact dropTail_cons_of_ne (by decide) (by decide) _
    rw [directory, directory, hbytes,
      dropName_of_dropTail htail (fun h => hpiece.slash_not_mem (List.mem_reverse.1 h)) hrest,
      dropName_of_dropTail htmp (fun h => hlong.slash_not_mem (List.mem_reverse.1 h)) hrest]
  · rw [hends.temporary, hends.isAbsolute, isAbsolute_join hlong]

/-- The new path is what stands in front of the last name, and the name with `.tmp` behind it. -/
theorem exists_parts (h : p.fileName? = some name) : ∃ front behind,
    p.bytes = front ++ name ++ behind ∧ p.temporary.bytes = front ++ (name ++ ".tmp") ∧
      ∀ piece ∈ (Path.mk behind).names, piece = "." := by
  obtain ⟨rest, htail, hrest, hpiece, -, -, dots, hnames, hdots⟩ := exists_dropTail_of_fileName? h
  obtain ⟨taken, htaken, hslash⟩ := exists_dropTail p.bytes.reverse
  have hbytes : p.bytes = rest.reverse ++ name ++ taken.reverse := by
    rw [← List.reverse_inj, htaken, htail]
    simp
  refine ⟨_, _, hbytes, bytes_temporary_of_dropTail h htail, ?_⟩
  rcases hslash with rfl | ⟨behind, rfl⟩
  · simp [names]
  · -- the names behind the slash are those behind the last name
    have hfront : (Path.mk (rest.reverse ++ name)).names
        = (Path.mk rest.reverse).names ++ [name] := by
      rw [← join_of_slash hrest hpiece, names_join hpiece]
    have hboth : p.names
        = (Path.mk (rest.reverse ++ name)).names ++ (Path.mk behind.reverse).names := by
      rw [← names_append_slash, names, hbytes]
      simp [names]
    rw [hnames, hfront, ← List.append_cons] at hboth
    have hsame := (List.cons_eq_cons.1 (List.append_cancel_left hboth)).2
    have hempty := names_append_slash [] behind.reverse
    rw [List.nil_append, names_empty, List.nil_append, ← hsame] at hempty
    rwa [List.reverse_append, List.reverse_singleton, hempty]

/-- **A file is prepared under its name with `.tmp` behind it, in its own directory**, whatever
points there are in the name.  What stands in front of the name stays as it is, and of what stands
behind it, which can only be slashes and single points, nothing is left.  So the file is not
prepared at its own path, nor where any file of another name is prepared. -/
theorem temporary_appends (h : p.fileName? = some name) :
    p.temporary.fileName? = some (name ++ ".tmp") ∧ p.temporary.SameDirectory p ∧
    (∃ front behind, p.bytes = front ++ name ++ behind ∧
      p.temporary.bytes = front ++ (name ++ ".tmp") ∧
      ∀ piece ∈ (Path.mk behind).names, piece = ".") ∧
    p.temporary.fileName? ≠ p.fileName? ∧ p.temporary ≠ p ∧
    ∀ (q : Path) (other : Bytes), q.fileName? = some other → other ≠ name →
      q.temporary.fileName? ≠ p.temporary.fileName? ∧ q.temporary ≠ p.temporary := by
  have hname := fileName?_temporary h
  have hne : p.temporary.fileName? ≠ p.fileName? := by
    simpa [hname, h] using (by decide : Utf8.encode ".tmp" ≠ [])
  refine ⟨hname, sameDirectory_temporary h, exists_parts h, hne, fun heq => hne (by rw [heq]), ?_⟩
  intro q other hother hdistinct
  have hother' : q.temporary.fileName? ≠ p.temporary.fileName? := by
    rw [fileName?_temporary hother, hname]
    exact fun heq => hdistinct (List.append_cancel_right (Option.some_inj.1 heq))
  exact ⟨hother', fun heq => hother' (by rw [heq])⟩

/-- A name that is hidden and one that ends in a point, side by side. -/
theorem temporary_appends_hidden :
    let p : Path := ⟨"logs/.hidden/./"⟩
    let q : Path := ⟨"logs/a."⟩
    p.fileName? = some (Utf8.encode ".hidden") ∧
      p.temporary.fileName? = some (Utf8.encode ".hidden.tmp") ∧
      p.temporary.SameDirectory p ∧ p.temporary ≠ p ∧ q.fileName? = some (Utf8.encode "a.") ∧
      q.temporary ≠ p.temporary := by
  intro p q
  have hp : p.fileName? = some (Utf8.encode ".hidden") := by decide
  have hq : q.fileName? = some (Utf8.encode "a.") := by decide
  obtain ⟨hname, hdirectory, -, -, hne, hothers⟩ := temporary_appends hp
  exact ⟨hp, hname, hdirectory, hne, hq, (hothers q "a." hq (by decide)).2⟩

end Path

end LogSplit
