import LogSplit.Output.Directory
import LogSplit.Proofs.File.PathNames

/-!
# Names of segment files

A file counts as a segment file of an earlier run if there is something in front of the last point
of its name and `txt` in any case behind it (`Path.isSegment_join_iff`).  The names under which a
run puts its own files are all different (`Stem.fileName_inj`), and different from those under which
it prepares them (`Stem.fileName_ne_preparedName`).
-/

set_option autoImplicit false

namespace LogSplit

open LogSplit.Path

variable {name extension : Bytes}

/-! ## Segment files of earlier runs -/

/-- The name of a segment file, of this or of an earlier run. -/
def IsSegmentName (name : Bytes) : Prop :=
  ∃ stem extension : Bytes, name = stem ++ [point] ++ extension ∧ stem ≠ [] ∧
    Text.sameBytesIgnoringCase extension segmentExtension = true

theorem point_not_mem_of_sameBytesIgnoringCase
    (h : Text.sameBytesIgnoringCase extension segmentExtension = true) : point ∉ extension := by
  intro hmem
  have hpoint := List.mem_map_of_mem (f := Text.lowerByte) hmem
  rw [beq_iff_eq.1 h] at hpoint
  exact absurd hpoint (by decide)

/-- **What counts as a segment file.** -/
theorem Path.isSegment_join_iff (h : IsPiece name) (hdot : name ≠ ".") (hup : name ≠ "..")
    (dir : Path) : (dir.join name).isSegment = true ↔ IsSegmentName name := by
  have hcut : (dir.join name).extension? = (cutExtension name).2 := by
    rw [extension?, fileName?_join h hdot hup, Option.bind_some]
  rw [isSegment, hcut]
  constructor
  · intro hsegment
    cases hextension : (cutExtension name).2 with
    | none =>
      rw [hextension] at hsegment
      cases hsegment
    | some extension =>
      rw [hextension] at hsegment
      obtain ⟨stem, hname, hstem, -⟩ := exists_of_cutExtension hextension
      exact ⟨stem, extension, hname, hstem, hsegment⟩
  · rintro ⟨stem, extension, rfl, hstem, hsame⟩
    rw [cutExtension_point hstem (point_not_mem_of_sameBytesIgnoringCase hsame)]
    exact hsame

/-! ## Segment files of a run -/

namespace Stem

variable {stem : String} {m n : Nat}

/-- An accepted stem has no character that separates directories, and no control character. -/
theorem plain_of_mem (h : validate stem = .ok ()) {c : Char} (hc : c ∈ stem.toList) :
    isSeparator c = false ∧ Text.isControl c = false := by
  have hfault : fault? stem = none := by
    rw [validate] at h
    split at h
    · cases h
    · assumption
  rw [fault?] at hfault
  split at hfault
  · cases hfault
  split at hfault
  · cases hfault
  split at hfault
  · cases hfault
  rename_i hseparator
  split at hfault
  · cases hfault
  split at hfault
  · cases hfault
  rename_i hcontrol
  simp only [List.any_eq_true, not_exists, not_and, Bool.not_eq_true] at hseparator hcontrol
  exact ⟨hseparator c hc, hcontrol c hc⟩

theorem fileName_inj (h : fileName stem m = fileName stem n) : m = n := by
  have htext : toString m = toString n :=
    (String.append_right_inj _).1 ((String.append_left_inj _).1 (Utf8.encode_inj.1 h))
  rw [Nat.toString_eq_ofList_toDigits, Nat.toString_eq_ofList_toDigits, String.ofList_inj] at htext
  rw [← Nat.ofDigitChars_ten_toDigits (n := m), htext, Nat.ofDigitChars_ten_toDigits]

/-- The file of a segment counts as a segment file of an earlier run in the next one. -/
theorem isSegmentName (stem : String) (index : Nat) : IsSegmentName (fileName stem index) := by
  refine ⟨numbered stem index, segmentExtension, ?_, Utf8.encode_ne_nil (by simp), by decide⟩
  rw [fileName_eq, List.append_assoc]
  rfl

/-- The name under which the file of a segment is prepared. -/
def preparedName (stem : String) (index : Nat) : Bytes := fileName stem index ++ ".tmp"

theorem getLast?_fileName (stem : String) (index : Nat) :
    (fileName stem index).getLast? = some 0x74 := by
  rw [fileName_eq, List.getLast?_append]
  rfl

theorem getLast?_preparedName (stem : String) (index : Nat) :
    (preparedName stem index).getLast? = some 0x70 := by
  rw [preparedName, List.getLast?_append]
  rfl

theorem fileName_ne {other : Bytes} (h : other.getLast? = some point) :
    fileName stem n ≠ other := by
  rintro rfl
  rw [getLast?_fileName] at h
  cases h

theorem preparedName_ne {other : Bytes} (h : other.getLast? = some point) :
    preparedName stem n ≠ other := by
  rintro rfl
  rw [getLast?_preparedName] at h
  cases h

theorem isPiece_fileName (h : validate stem = .ok ()) (index : Nat) :
    IsPiece (fileName stem index) := by
  rw [fileName_eq]
  exact isPiece_append (isPiece h index) (by decide)

theorem isPiece_preparedName (h : validate stem = .ok ()) (index : Nat) :
    IsPiece (preparedName stem index) :=
  isPiece_append (isPiece_fileName h index) (by decide)

theorem preparedName_inj (h : preparedName stem m = preparedName stem n) : m = n :=
  fileName_inj (List.append_cancel_right h)

theorem fileName_ne_preparedName : fileName stem m ≠ preparedName stem n := by
  intro h
  have hlast := getLast?_fileName stem m
  rw [h, getLast?_preparedName] at hlast
  cases hlast

end Stem

end LogSplit
