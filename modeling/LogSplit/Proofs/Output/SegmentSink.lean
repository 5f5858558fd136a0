import LogSplit.Proofs.Output.SegmentFiles
import LogSplit.Proofs.Segment.HandedOver

/-!
# The files as a sink

The segments of a scan go to files.  `FileTree.takeSegment` is the sink that this makes of a tree of
files, together with the list of the segments that have been written.  On a host the scan carries
this sink out (`Destination.writeSegments_onHost`), so how it ends is a case of `HandedOver`.
-/

set_option autoImplicit false

namespace LogSplit

/-- Puts the file of a segment in place and, if that succeeds, lists the segment. -/
def FileTree.takeSegment (cwd : Location) (d : Destination) (header : Header) (s : Segment) :
    StateM (FileTree × List WrittenSegment) (Except SplitError Unit) := fun st =>
  match st.1.replaceFile cwd (d.pathFor s.index) (Tsv.encode header s.bareRows) with
  | (.error e, t') => (.error (.output (d.pathFor s.index) (.file e)), (t', st.2))
  | (.ok (), t') => (.ok (), (t', st.2 ++ [d.written s]))

namespace Destination

variable {cwd : Location} {d : Destination} {header : Header} {s : Segment}
  {segments : List Segment} {t t' : FileTree} {written written' : List WrittenSegment}

/-! ## What the sink takes -/

theorem takeSegment_eq_ok
    (h : FileTree.takeSegment cwd d header s (t, written) = (.ok (), (t', written'))) :
    t.replaceFile cwd (d.pathFor s.index) (Tsv.encode header s.bareRows) = (.ok (), t') ∧
      written' = written ++ [d.written s] := by
  unfold FileTree.takeSegment at h
  dsimp only at h
  rcases hreplace : t.replaceFile cwd (d.pathFor s.index) (Tsv.encode header s.bareRows) with
    ⟨e | ⟨⟩, files⟩ <;> rw [hreplace] at h
  · cases (Prod.mk.inj h).1
  · obtain ⟨rfl, rfl⟩ := Prod.mk.inj (Prod.mk.inj h).2
    exact ⟨rfl, rfl⟩

theorem takeSegment_of_ok (written : List WrittenSegment)
    (h : t.replaceFile cwd (d.pathFor s.index) (Tsv.encode header s.bareRows) = (.ok (), t')) :
    FileTree.takeSegment cwd d header s (t, written)
      = (.ok (), (t', written ++ [d.written s])) := by
  unfold FileTree.takeSegment
  dsimp only
  rw [h]

theorem takeSegment_eq_error {e : SplitError}
    (h : FileTree.takeSegment cwd d header s (t, written) = (.error e, (t', written'))) :
    ∃ cause, t.replaceFile cwd (d.pathFor s.index) (Tsv.encode header s.bareRows)
        = (.error cause, t') ∧
      e = .output (d.pathFor s.index) (.file cause) ∧ written' = written := by
  unfold FileTree.takeSegment at h
  dsimp only at h
  rcases hreplace : t.replaceFile cwd (d.pathFor s.index) (Tsv.encode header s.bareRows) with
    ⟨cause | ⟨⟩, files⟩ <;> rw [hreplace] at h
  · obtain ⟨herror, hst⟩ := Prod.mk.inj h
    obtain ⟨rfl, rfl⟩ := Prod.mk.inj hst
    exact ⟨cause, rfl, (Except.error.inj herror).symm, rfl⟩
  · cases (Prod.mk.inj h).1

/-- What is listed are the segments that were accepted. -/
theorem written_of_accepts
    (h : Accepts (FileTree.takeSegment cwd d header) (t, written) segments (t', written')) :
    written' = written ++ segments.map d.written := by
  generalize hst : (t, written) = st at h
  generalize hst' : (t', written') = st' at h
  induction h generalizing t written with
  | nil =>
    cases hst.trans hst'.symm
    rw [List.map_nil, List.append_nil]
  | @cons st st₁ st' s rest hs _ ih =>
    subst hst
    obtain ⟨t₁, written₁⟩ := st₁
    obtain ⟨-, rfl⟩ := takeSegment_eq_ok hs
    rw [ih rfl hst', List.map_cons, List.append_assoc]
    rfl

/-- As long as it accepts them, the files are put in place one after the other. -/
theorem writeSegments_of_accepts
    (h : Accepts (FileTree.takeSegment cwd d header) (t, written) segments (t', written'))
    (back : List Segment) : FileTree.writeSegments cwd d header t (segments ++ back)
      = FileTree.writeSegments cwd d header t' back := by
  generalize hst : (t, written) = st at h
  generalize hst' : (t', written') = st' at h
  induction h generalizing t written with
  | nil =>
    cases hst.trans hst'.symm
    rfl
  | @cons st st₁ st' s rest hs _ ih =>
    subst hst
    obtain ⟨t₁, written₁⟩ := st₁
    rw [List.cons_append, FileTree.writeSegments_of_ok (takeSegment_eq_ok hs).1, ih rfl hst']

/-! ## On a host -/

/-- Programs that list segments on a host, run on the list and the host. -/
def listingRunner : Runner (StateT (List WrittenSegment) OnHost) (List WrittenSegment × Host) where
  run c x := (((c.run x.1) x.2).1.1, (((c.run x.1) x.2).1.2, ((c.run x.1) x.2).2))
  run_pure _ _ := rfl
  run_bind _ _ _ := rfl

/-- What lists a segment if it could be written carries the sink out. -/
theorem carries_takeSegment (d : Destination) (header : Header)
    (observe : ScanEvent → StateT (List WrittenSegment) OnHost Unit)
    (program : Segment → StateT (List WrittenSegment) OnHost (Except SplitError Unit))
    (hobserve : ∀ event written host,
      ∃ journal, (observe event).run written host = (((), written), { host with journal }))
    (hprogram : ∀ s written host, (program s).run written host
      = match (d.write header s : OnHost _) host with
        | (.error e, host') => ((.error e, written), host')
        | (.ok (), host') => ((.ok (), written ++ [d.written s]), host')) (host : Host) :
    Carries listingRunner observe program (FileTree.takeSegment host.cwd d header)
      fun x st _ => ∃ journal, x = (st.2, { host with files := st.1, journal }) where
  observe {x st told} event h := by
    obtain ⟨journal, rfl⟩ := h
    obtain ⟨journal', hevent⟩ := hobserve event st.2 { host with files := st.1, journal }
    refine ⟨journal', ?_⟩
    simp only [listingRunner, hevent]
  program {x st told} s h := by
    obtain ⟨journal, rfl⟩ := h
    obtain ⟨t, written⟩ := st
    obtain ⟨journal', hwrite⟩ := write_onHost d header s { host with files := t, journal }
    have hrun := hprogram s written { host with files := t, journal }
    rw [hwrite] at hrun
    unfold FileTree.takeSegment
    simp only [listingRunner, hrun]
    rcases t.replaceFile host.cwd (d.pathFor s.index) (Tsv.encode header s.bareRows) with
      ⟨e | ⟨⟩, files⟩
    · exact ⟨rfl, journal', rfl⟩
    · exact ⟨rfl, journal', rfl⟩

/-- Writes a segment and lists it if that has succeeded. -/
def writeAndList (d : Destination) (header : Header) (s : Segment) :
    StateT (List WrittenSegment) OnHost (Except SplitError Unit) := do
  match ← (d.write header s : OnHost _) with
  | .error e => return .error e
  | .ok () =>
    modify (· ++ [d.written s])
    return .ok ()

theorem writeAndList_run (d : Destination) (header : Header) (s : Segment)
    (written : List WrittenSegment) (host : Host) :
    (d.writeAndList header s).run written host = match (d.write header s : OnHost _) host with
      | (.error e, host') => ((.error e, written), host')
      | (.ok (), host') => ((.ok (), written ++ [d.written s]), host') := by
  rw [writeAndList, StateT.run_bind,
    OnHost.bind_of_eq (OnHost.run_liftM (d.write header s) written host)]
  rcases (d.write header s : OnHost _) host with ⟨e | ⟨⟩, host'⟩
  · rfl
  · rfl

/-- **How writing segments ends on a host**: as the scan ends for the files as a sink. -/
theorem writeSegments_onHost (d : Destination) (p : CompiledPredicate) (t : Table) (host : Host) :
    ∃ outcome files written told journal,
      HandedOver (FileTree.takeSegment host.cwd d t.header) (host.files, []) (.start t.body.length)
        (scan p t) outcome (files, written) told ∧
      (d.writeSegments p t : OnHost _) host
        = ((outcome, written), { host with files, journal }) := by
  have hcarries := carries_takeSegment d t.header
    (fun event => (Journal.record (.scanned event) : OnHost Unit)) (d.writeAndList t.header)
    (fun _ _ _ => ⟨_, rfl⟩) (d.writeAndList_run t.header) host
  obtain ⟨outcome, x, ⟨files, written⟩, told, hended, hrun, journal, rfl⟩ :=
    hcarries.handOver (scan p t) (.start t.body.length) ([], host) (host.files, []) []
      ⟨host.journal, rfl⟩
  obtain ⟨houtcome, hst⟩ := Prod.mk.inj hrun
  obtain ⟨hwritten, hhost⟩ := Prod.mk.inj hst
  exact ⟨outcome, files, written, told, journal, hended,
    Prod.ext (Prod.ext houtcome hwritten) hhost⟩

/-- **What writing segments does to the files.** -/
theorem files_writeSegments (d : Destination) (p : CompiledPredicate) (t : Table) (host : Host) :
    ∃ outcome journal, (d.writeSegments p t : OnHost _) host
      = (outcome, { host with
          files := FileTree.writeSegments host.cwd d t.header host.files (closedSegments (scan p t))
          journal }) := by
  obtain ⟨outcome, files, written, told, journal, hended, hrun⟩ := writeSegments_onHost d p t host
  suffices hfiles : FileTree.writeSegments host.cwd d t.header host.files
      (closedSegments (scan p t)) = files from ⟨(outcome, written), journal, by rw [hrun, hfiles]⟩
  generalize hst : (files, written) = st at hended
  cases hended with
  | @refused front back s st₁ _ e hevents hok hfront hs =>
    subst hst
    obtain ⟨cause, hreplace, -, -⟩ := takeSegment_eq_error hs
    rw [hevents, closedSegments_append hok, closedSegments_closed, writeSegments_of_accepts hfront,
      FileTree.writeSegments_of_error hreplace]
  | @failed front back e _ hevents hok hfront =>
    subst hst
    rw [hevents, closedSegments_append hok, closedSegments_failed,
      writeSegments_of_accepts hfront]
    rfl
  | completed hok hall =>
    subst hst
    rw [← List.append_nil (closedSegments (scan p t)), writeSegments_of_accepts hall]
    rfl

end Destination

end LogSplit
