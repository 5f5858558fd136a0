import LogSplit.File.Error
import LogSplit.File.Path
import LogSplit.Text.Utf8

/-!
# File trees

A file system as a value: which files, directories and symbolic links there are, and what the
files hold.  An entry is known by its location, the names on the way to it with its own name
first, so that the directory of an entry is the tail of its location and the root is the empty
location.  Every file has one location: there are symbolic links and no hard ones, so what is
done to a file is seen at no other location.  Names are bytes, whether or not they are the bytes
of a text.

`FileTree.walk` resolves the names of a path one after the other, through links and upwards
links, and `FileTree.read`, `write`, `move`, `remove`, `makeDir` and `list` are the operations
of a file system on top of it.  Each either fails and leaves the tree alone, or gives the new
tree.  What an operation did is seen by looking locations up: `lookup_insert` and
`lookup_erase` say that it touched one location only.
-/

set_option autoImplicit false

namespace LogSplit

/-- The names on the way to an entry, its own name first.  A name is bytes, of a text or of none. -/
abbrev Location := List Bytes

/-- What stands at a location. -/
inductive Node where
  /-- A regular file and its bytes. -/
  | file (content : Bytes)
  /-- A directory. -/
  | directory
  /-- A symbolic link and the path it holds. -/
  | link (target : Bytes)
  deriving DecidableEq, Repr

/-- A regular file, not a directory or a link. -/
def Node.isFile : Node → Bool
  | .file _ => true
  | _ => false

/-- The most bytes a name may have. -/
def maxNameLength : Nat := 255

/-- A path has fewer bytes than this. -/
def maxPathLength : Nat := 4096

/-- The most symbolic links that the resolution of one path goes through. -/
def maxLinks : Nat := 40

/-- The entries of a file system, besides its root.  Of several entries at one location only
the first counts.  Files at two locations are two files, even with the same bytes. -/
structure FileTree where
  /-- The entries. -/
  entries : List (Location × Node)
  deriving DecidableEq, Repr

namespace FileTree

/-- A file system with nothing in it. -/
def empty : FileTree := ⟨[]⟩

/-! ## Locations -/

/-- What stands at a location; the root is a directory. -/
def lookup (t : FileTree) (loc : Location) : Option Node :=
  if loc = [] then some .directory else (t.entries.find? fun e => e.1 = loc).map (·.2)

/-- The tree without what stands at a location. -/
def erase (t : FileTree) (loc : Location) : FileTree :=
  ⟨t.entries.filter fun e => e.1 ≠ loc⟩

/-- The tree with `node` at a location, whatever stood there. -/
def insert (t : FileTree) (loc : Location) (node : Node) : FileTree :=
  ⟨(loc, node) :: (t.erase loc).entries⟩

theorem lookup_erase (t : FileTree) {loc : Location} (other : Location) (h : loc ≠ []) :
    (t.erase loc).lookup other = if other = loc then none else t.lookup other := by
  unfold lookup erase
  by_cases hr : other = []
  · subst hr; simp [h.symm]
  · by_cases ho : other = loc
    · subst ho; simp [hr, List.find?_filter]
    · simp only [hr, if_false, ho, List.find?_filter]
      congr 2
      funext e
      by_cases he : e.1 = other <;> simp [he, ho]

theorem lookup_insert (t : FileTree) {loc : Location} (node : Node) (other : Location)
    (h : loc ≠ []) :
    (t.insert loc node).lookup other = if other = loc then some node else t.lookup other := by
  by_cases ho : other = loc
  · subst ho; simp [lookup, insert, h]
  · have he := lookup_erase t other h
    simp only [ho, if_false] at he ⊢
    rw [← he]
    unfold lookup insert
    have : loc ≠ other := fun h => ho h.symm
    simp [this]

/-- The names in a directory, without repetition. -/
def childNames (t : FileTree) (dir : Location) : List Bytes :=
  ((t.entries.filterMap fun e => match e.1 with
    | name :: up => if up = dir then some name else none
    | [] => none)).eraseDups

/-! ## Resolving a path -/

/-- What a path leads to. -/
inductive Place where
  /-- An entry. -/
  | entry (loc : Location) (node : Node)
  /-- A name that is not taken, in a directory that exists. -/
  | vacant (dir : Location) (name : Bytes)
  deriving DecidableEq, Repr

/-- The names of a path in the order they are resolved.  A slash at its end asks for a directory,
as the name of the directory itself would. -/
def steps (p : Path) : List Bytes := if p.endsInSlash then p.names ++ [Utf8.encode "."] else p.names

/-- What a path is resolved for. -/
inductive Aim where
  /-- To use what it leads to. -/
  | found
  /-- To put a file there; then a link at its end must not ask for a directory. -/
  | filled
  deriving DecidableEq, Repr

/-- The names of a path up to the directory in which its last name stands. -/
def parentSteps (p : Path) : List Bytes := p.names.dropLast ++ [Utf8.encode "."]

/-- Resolves names from the directory `here` on, up to the first link.  What a link leads to, with
the names behind it, is left to `follow`. -/
def walkFrom (t : FileTree) (aim : Aim) (follow : Location → List Bytes → Except FileError Place) :
    (here : Location) → (names : List Bytes) → Except FileError Place
  | here, [] => .ok (.entry here .directory)
  | here, name :: rest =>
    if name = "." then walkFrom t aim follow here rest
    else if name = ".." then walkFrom t aim follow here.tail rest
    else if maxNameLength < name.length then .error .nameTooLong
    else match t.lookup (name :: here) with
      | none => if rest.isEmpty then .ok (.vacant here name) else .error .notFound
      | some .directory => walkFrom t aim follow (name :: here) rest
      | some (.file content) =>
        if rest.isEmpty then .ok (.entry (name :: here) (.file content)) else .error .notDirectory
      | some (.link target) =>
        let path : Path := ⟨target⟩
        let here := if path.isAbsolute then [] else here
        if rest.isEmpty && aim = .filled && path.endsInSlash then do
          let _ ← follow here (parentSteps path)
          .error .isDirectory
        else follow here (steps path ++ rest)

/-- Resolves names from the directory `here` on.  Every link is followed, and uses up one of the
remaining `links`. -/
def walk (t : FileTree) (aim : Aim) :
    (links : Nat) → (here : Location) → (names : List Bytes) → Except FileError Place
  | 0 => walkFrom t aim fun _ _ => .error .tooManyLinks
  | links + 1 => walkFrom t aim (walk t aim links)

/-- Where the names of a path are resolved from. -/
def origin (cwd : Location) (p : Path) : Location := if p.isAbsolute then [] else cwd

/-- A path that the system can take at all. -/
def usable (p : Path) : Except FileError Unit :=
  if p.bytes.contains 0 then .error .nulInPath
  else if p.bytes = [] then .error .notFound
  else if maxPathLength ≤ p.bytes.length then .error .nameTooLong
  else .ok ()

/-- What a path leads to. -/
def place (t : FileTree) (cwd : Location) (aim : Aim) (p : Path) :
    Except FileError Place := do
  usable p
  t.walk aim maxLinks (origin cwd p) (steps p)

/-- The entry a path leads to through all links. -/
def entryAt (t : FileTree) (cwd : Location) (p : Path) : Except FileError (Location × Node) := do
  match ← t.place cwd .found p with
  | .entry loc node => .ok (loc, node)
  | .vacant .. => .error .notFound

/-- The last name of a path. -/
inductive LastName where
  /-- A name of its own. -/
  | named (name : Bytes)
  /-- The root, `.` or `..`, which name a directory that exists already. -/
  | standing
  deriving DecidableEq, Repr

/-- The directory in which the last name of a path stands, and that name. -/
def parentOf (t : FileTree) (cwd : Location) (p : Path) :
    Except FileError (Location × LastName) := do
  usable p
  match ← t.walk .found maxLinks (origin cwd p) (parentSteps p) with
  | .entry dir _ =>
    match p.names.getLast? with
    | none => .ok (dir, .standing)
    | some name =>
      if name = "." ∨ name = ".." then .ok (dir, .standing) else .ok (dir, .named name)
  | .vacant .. => .error .notFound

/-- The location of a name in a directory, unless the name is too long. -/
def childOf (dir : Location) (name : Bytes) : Except FileError Location :=
  if maxNameLength < name.length then .error .nameTooLong else .ok (name :: dir)

/-! ## Operations -/

/-- The bytes of a file.  A directory can be opened and not read. -/
def read (t : FileTree) (cwd : Location) (p : Path) : Except ReadError Bytes :=
  match t.entryAt cwd p with
  | .error e => .error (.opening e)
  | .ok (_, .file content) => .ok content
  | .ok _ => .error (.reading .isDirectory)

/-- Puts bytes into a file, which is created if the name is not taken.  A link is followed. -/
def write (t : FileTree) (cwd : Location) (p : Path) (content : Bytes) :
    Except FileError FileTree := do
  match ← t.parentOf cwd p with
  | (_, .standing) => .error .isDirectory
  | (_, .named _) =>
    if p.endsInSlash then .error .isDirectory
    else match ← t.place cwd .filled p with
      | .entry _ .directory => .error .isDirectory
      | .entry loc _ => .ok (t.insert loc (.file content))
      | .vacant dir name => .ok (t.insert (name :: dir) (.file content))

/-- Moves a file or a link, not what it leads to, over whatever file or link stands at the new
path. -/
def move (t : FileTree) (cwd : Location) (source target : Path) : Except FileError FileTree := do
  let (sourceDir, sourceName) ← t.parentOf cwd source
  let (targetDir, targetName) ← t.parentOf cwd target
  match sourceName, targetName with
  | .named sourceName, .named targetName =>
    let sourceLoc ← childOf sourceDir sourceName
    match t.lookup sourceLoc with
    | none => .error .notFound
    | some .directory => .error .isDirectory
    | some node =>
      let targetLoc ← childOf targetDir targetName
      if source.endsInSlash || target.endsInSlash then .error .notDirectory
      else if t.lookup targetLoc = some .directory then .error .isDirectory
      else .ok ((t.erase sourceLoc).insert targetLoc node)
  | _, _ => .error .busy

/-- Removes a file or a link, not what it leads to. -/
def remove (t : FileTree) (cwd : Location) (p : Path) : Except FileError FileTree := do
  match ← t.parentOf cwd p with
  | (_, .standing) => .error .isDirectory
  | (dir, .named name) =>
    let loc ← childOf dir name
    match t.lookup loc with
    | none => .error .notFound
    | some .directory => .error .isDirectory
    | some _ => if p.endsInSlash then .error .notDirectory else .ok (t.erase loc)

/-- Makes a directory. -/
def makeDir (t : FileTree) (cwd : Location) (p : Path) : Except FileError FileTree := do
  match ← t.parentOf cwd p with
  | (_, .standing) => .error .alreadyExists
  | (dir, .named name) =>
    let loc ← childOf dir name
    match t.lookup loc with
    | none => .ok (t.insert loc .directory)
    | some _ => .error .alreadyExists

/-- Whether a path leads to a directory. -/
def isDir (t : FileTree) (cwd : Location) (p : Path) : Bool :=
  match t.entryAt cwd p with
  | .ok (_, .directory) => true
  | _ => false

/-- The names in a directory, and whether a regular file stands at each. -/
def list (t : FileTree) (cwd : Location) (p : Path) : Except FileError (List (Bytes × Bool)) := do
  match ← t.entryAt cwd p with
  | (dir, .directory) => .ok <| (t.childNames dir).map fun name =>
      (name, ((t.lookup (name :: dir)).map Node.isFile).getD false)
  | _ => .error .notDirectory

/-- The location a path leads to. -/
def canonical (t : FileTree) (cwd : Location) (p : Path) : Except FileError Location := do
  let (loc, _) ← t.entryAt cwd p
  .ok loc

end FileTree

end LogSplit
