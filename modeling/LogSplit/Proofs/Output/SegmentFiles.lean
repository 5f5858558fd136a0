import LogSplit.Output.SegmentFile
import LogSplit.Proofs.File.Host

/-!
# What writing segments does to the files

`FileTree.replaceFile` is the whole effect that putting a file in place has on a tree, and
`FileTree.writeSegments` that of putting the files of segments in place one after the other, as
long as none fails.  On a host nothing else is done to the files when a segment is written
(`Destination.write_onHost`); the journal grows along the way.
-/

set_option autoImplicit false

namespace LogSplit

namespace FileTree

/-- The tree without what stands at a path, if that can be removed. -/
def removed (t : FileTree) (cwd : Location) (p : Path) : FileTree :=
  match t.remove cwd p with
  | .ok t' => t'
  | .error _ => t

/-- Puts bytes at a path by way of a file next to it: how that ends, and the tree afterwards. -/
def replaceFile (t : FileTree) (cwd : Location) (path : Path) (content : Bytes) :
    Except FileError Unit × FileTree :=
  match t.write cwd path.temporary content with
  | .error e => (.error e, t.removed cwd path.temporary)
  | .ok written =>
    match written.move cwd path.temporary path with
    | .error e => (.error e, written.removed cwd path.temporary)
    | .ok moved => (.ok (), moved)

section

variable {t written moved : FileTree} {cwd : Location} {path : Path} {content : Bytes}
  {e : FileError}

theorem replaceFile_of_write_error (h : t.write cwd path.temporary content = .error e) :
    t.replaceFile cwd path content = (.error e, t.removed cwd path.temporary) := by
  unfold replaceFile
  rw [h]

theorem replaceFile_of_move_error (h : t.write cwd path.temporary content = .ok written)
    (hmove : written.move cwd path.temporary path = .error e) :
    t.replaceFile cwd path content = (.error e, written.removed cwd path.temporary) := by
  unfold replaceFile
  rw [h]
  simp only [hmove]

theorem replaceFile_of_move_ok (h : t.write cwd path.temporary content = .ok written)
    (hmove : written.move cwd path.temporary path = .ok moved) :
    t.replaceFile cwd path content = (.ok (), moved) := by
  unfold replaceFile
  rw [h]
  simp only [hmove]

end

/-- The tree after the files of some segments have been put in place, up to the first that could
not be. -/
def writeSegments (cwd : Location) (d : Destination) (header : Header) :
    FileTree → List Segment → FileTree
  | t, [] => t
  | t, s :: rest =>
    let (outcome, t') := t.replaceFile cwd (d.pathFor s.index) (Tsv.encode header s.bareRows)
    if outcome.isOk then writeSegments cwd d header t' rest else t'

section

variable {cwd : Location} {d : Destination} {header : Header} {t t' : FileTree} {s : Segment}

theorem writeSegments_of_error {e : FileError} (h : t.replaceFile cwd (d.pathFor s.index)
    (Tsv.encode header s.bareRows) = (.error e, t')) (rest : List Segment) :
    writeSegments cwd d header t (s :: rest) = t' := by
  rw [writeSegments, h]
  rfl

theorem writeSegments_of_ok (h : t.replaceFile cwd (d.pathFor s.index)
    (Tsv.encode header s.bareRows) = (.ok (), t')) (rest : List Segment) :
    writeSegments cwd d header t (s :: rest) = writeSegments cwd d header t' rest := by
  rw [writeSegments, h]
  rfl

end

end FileTree

/-! ## On a host -/

/-- An attempt to remove a file, whatever comes of it. -/
theorem remove_onHost (p : Path) (host : Host) :
    ((Storage.remove p : OnHost (Except FileError Unit)) host).2
      = { host with files := host.files.removed host.cwd p } := by
  change (OnHost.change (fun files cwd => files.remove cwd p) host).2 = _
  rw [FileTree.removed]
  cases h : host.files.remove host.cwd p with
  | error e => rw [OnHost.change_error h]
  | ok files => rw [OnHost.change_ok h]

theorem replaceTable_onHost (path : Path) (header : Header) (rows : List Row) (host : Host) :
    ∃ journal, (replaceTable path header rows : OnHost _) host
      = ((host.files.replaceFile host.cwd path (Tsv.encode header rows)).1.mapError .file,
          { host with
            files := (host.files.replaceFile host.cwd path (Tsv.encode header rows)).2
            journal }) := by
  rw [replaceTable]
  cases hwrite : host.files.write host.cwd path.temporary (Tsv.encode header rows) with
  | error e =>
    have hhost : (Storage.write path.temporary (Tsv.encode header rows) : OnHost _) host
        = (.error e, host) := OnHost.change_error hwrite
    rw [FileTree.replaceFile_of_write_error hwrite]
    refine ⟨host.journal, (OnHost.bind_of_eq hhost _).trans ?_⟩
    simp only
    rw [OnHost.bind_apply, remove_onHost]
    rfl
  | ok written =>
    have hhost : (Storage.write path.temporary (Tsv.encode header rows) : OnHost _) host
        = (.ok (), { host with files := written }) := OnHost.change_ok hwrite
    cases hmove : written.move host.cwd path.temporary path with
    | error e =>
      have hhost' : (Storage.move path.temporary path : OnHost _) { host with files := written }
          = (.error e, { host with files := written }) := OnHost.change_error hmove
      rw [FileTree.replaceFile_of_move_error hwrite hmove]
      refine ⟨host.journal, (OnHost.bind_of_eq hhost _).trans
        ((OnHost.bind_of_eq hhost' _).trans ?_)⟩
      simp only
      rw [OnHost.bind_apply, remove_onHost]
      rfl
    | ok moved =>
      have hhost' : (Storage.move path.temporary path : OnHost _) { host with files := written }
          = (.ok (), { host with files := moved }) := OnHost.change_ok hmove
      rw [FileTree.replaceFile_of_move_ok hwrite hmove]
      exact ⟨_, (OnHost.bind_of_eq hhost _).trans (OnHost.bind_of_eq hhost' _)⟩

namespace Destination

theorem write_onHost (d : Destination) (header : Header) (s : Segment) (host : Host) :
    ∃ journal, (d.write header s : OnHost _) host
      = ((host.files.replaceFile host.cwd (d.pathFor s.index)
            (Tsv.encode header s.bareRows)).1.mapError
              fun e => .output (d.pathFor s.index) (.file e),
          { host with
            files := (host.files.replaceFile host.cwd (d.pathFor s.index)
              (Tsv.encode header s.bareRows)).2
            journal }) := by
  obtain ⟨journal, hreplace⟩ := replaceTable_onHost (d.pathFor s.index) header s.bareRows host
  rw [write]
  generalize host.files.replaceFile host.cwd (d.pathFor s.index) (Tsv.encode header s.bareRows)
    = replaced at hreplace ⊢
  obtain ⟨_ | _, files⟩ := replaced
  · exact ⟨journal, OnHost.bind_of_eq hreplace _⟩
  · exact ⟨_, OnHost.bind_of_eq hreplace _⟩

end Destination

end LogSplit
