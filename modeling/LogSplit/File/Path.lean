import LogSplit.Text.Utf8

/-!
# Paths

A path is kept as it was written.  Joining puts a slash between two paths and does no more;
in particular nothing is resolved or simplified.  A path is bytes, as a file system has it, and
its names are bytes, whether or not they are the bytes of a text.

The parts of a path are read off its bytes.  Repeated slashes count as one and the name `.`
counts for nothing, at the end of a path as well, so that the last name of `a/b/.` is `b`.
A path that ends in `..` or that has no name at all has no last name.  The extension is what
follows the last point of the last name; a name whose only point is its first byte has
none, and a name that ends in a point has the empty one.
-/

set_option autoImplicit false

namespace LogSplit

/-- A path as it is written. -/
structure Path where
  /-- The bytes of the path. -/
  bytes : Bytes
  deriving DecidableEq, Repr

/-- A text stands for the path that it spells. -/
instance : Coe String Path := ⟨fun text => ⟨text⟩⟩

namespace Path

/-- The byte between two names. -/
def slash : UInt8 := 0x2F

/-- The byte in front of an extension. -/
def point : UInt8 := 0x2E

/-! ## Text -/

/-- The text of a path, if it has one. -/
def text? (p : Path) : Option String := (Utf8.decode p.bytes).toOption

/-- A path as it is shown to the user. -/
def shown (p : Path) : String := Utf8.shown p.bytes

/-! ## Names -/

/-- Whether a path starts at the root. -/
def isAbsolute (p : Path) : Bool := p.bytes.head? == some slash

/-- Whether a slash is the last byte. -/
def endsInSlash (p : Path) : Bool := p.bytes.getLast? == some slash

/-- Everything between slashes, without empty pieces. -/
def names (p : Path) : List Bytes := (p.bytes.splitOn slash).filter fun word => !word.isEmpty

/-- Takes slashes, and names that are a single point, off the end of a path whose bytes are
given in reverse. -/
def dropTail : Bytes → Bytes
  | [] => []
  | b :: bs =>
    if b = slash then dropTail bs
    else if b = point ∧ bs.head? = some slash then dropTail bs
    else b :: bs

/-- The last name, unless it leads upwards. -/
def fileName? (p : Path) : Option Bytes :=
  (p.names.filter fun name : Bytes => name ≠ ".").getLast?.filter fun name : Bytes => name ≠ ".."

/-- Cuts a name at its last point, which belongs to neither half.  A point that is the first
byte cuts nothing. -/
def cutExtension (name : Bytes) : Bytes × Option Bytes :=
  let extension := name.reverse.takeWhile (· ≠ point)
  match name.reverse.drop extension.length with
  | _ :: stem@(_ :: _) => (stem.reverse, some extension.reverse)
  | _ => (name, none)

/-- The extension of the last name. -/
def extension? (p : Path) : Option Bytes := p.fileName?.bind fun name => (cutExtension name).2

/-! ## Other paths -/

/-- The path `name` read from `base`: `name` itself if it starts at the root. -/
def join (base : Path) (name : Bytes) : Path :=
  if name.head? = some slash then ⟨name⟩
  else if base.bytes = [] || base.endsInSlash then ⟨base.bytes ++ name⟩
  else ⟨base.bytes ++ [slash] ++ name⟩

/-- The path with the extension of its last name replaced or, where there is none, added.
Slashes behind the last name are lost.  A path without a last name stays as it is. -/
def withExtension (p : Path) (extension : Bytes) : Path :=
  match p.fileName? with
  | none => p
  | some name =>
    let kept := (dropTail p.bytes.reverse).drop name.length
    ⟨kept.reverse ++ (cutExtension name).1 ++ [point] ++ extension⟩

/-- The path at which a file is prepared before it takes the place of `p`. -/
def temporary (p : Path) : Path :=
  match p.extension? with
  | some extension => p.withExtension (extension ++ ".tmp")
  | none => p.withExtension "tmp"

/-- The path of the directory, given and returned in reverse and without a trailing slash. -/
def dropName (reversed : Bytes) : Bytes :=
  dropTail ((dropTail reversed).dropWhile (· ≠ slash))

theorem length_dropTail_le (bs : Bytes) : (dropTail bs).length ≤ bs.length := by
  fun_induction dropTail bs with
  | case1 => exact Nat.le_refl _
  | case2 bs ih => exact Nat.le_succ_of_le ih
  | case3 b bs hb hpoint ih => exact Nat.le_succ_of_le ih
  | case4 b bs hb hpoint => exact Nat.le_refl _

/-- The directories above a path, nearest first, without the root; given in reverse. -/
def above (reversed : Bytes) : List Path :=
  let up := dropName reversed
  if up.length < reversed.length then
    if up.isEmpty then [] else ⟨up.reverse⟩ :: above up
  else []
termination_by reversed.length

/-- A path and the directories above it, nearest first, without the root. -/
def ancestors (p : Path) : List Path :=
  if p.names.isEmpty then [] else p :: above p.bytes.reverse

end Path

end LogSplit
