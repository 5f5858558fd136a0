import LogSplit.Proofs.Output.AcceptedSegments
import LogSplit.Proofs.Split.CompletedSplit

/-!
# Splitting a second time

A split that has succeeded can be made again, and then it changes nothing (`split_again`).  This is
about trees of directories and regular files, and about an input that does not lie where a segment
file goes or is prepared, under whatever number.

The second split finds the same table, since the input is where it was, and so the same segments.
It finds the output directory as well.  If this is to be cleared then the files that go are those of
the segments and no others (`Delivered.isOutdated_iff`): the other segment files have been removed
before.  They are then put back as they were.  Whether a file can be removed, or put in place,
depends on its path and on the directories of the tree, and neither has changed.
-/

set_option autoImplicit false

namespace LogSplit

open FileTree

variable {settings : Settings} {predicate : String} {plan : Plan} {host host' : Host}
  {report : Report} {t t' t'' prepared : FileTree} {cwd input : Location} {d : Destination}
  {header : Header} {segments : List Segment} {stale stale' : List Location} {clean : Bool}
  {removed : Nat}

/-! ## The same segments delivered twice -/

/-- A file that is there after segments have been delivered is that of a segment, or it was there
before and has not been removed. -/
theorem Delivered.file_before (h : Delivered t t' cwd d clean input header segments stale)
    {l : Location} {content : Bytes} (hfile : t'.lookup l = some (.file content)) :
    (∃ s ∈ segments, l = d.target (directoryOf cwd d.dir) s.index) ∨
      l ∉ stale ∧ t.lookup l = some (.file content) := by
  refine or_iff_not_imp_left.2 fun hother => ?_
  have htarget : ∀ s ∈ segments, l ≠ d.target (directoryOf cwd d.dir) s.index :=
    fun s hs heq => hother ⟨s, hs, heq⟩
  have hprepared : ∀ s ∈ segments, l ≠ d.prepared (directoryOf cwd d.dir) s.index := by
    rintro s hs rfl
    cases hfile.symm.trans (h.prepared s hs)
  have hon : l ∉ directoriesOn cwd d.dir := fun hon => by
    cases hfile.symm.trans (h.directory l hon)
  have hstale : l ∉ stale := fun hstale => by
    cases hfile.symm.trans (h.removed l hstale htarget)
  rw [h.other l hon hstale fun s hs => ⟨htarget s hs, hprepared s hs⟩] at hfile
  exact ⟨hstale, hfile⟩

/-- What is outdated after segments have been delivered in a directory that is to be cleared: the
files of these segments. -/
theorem Delivered.isOutdated_iff
    (h : Delivered t t' cwd d true input header segments stale)
    (hapart : ∀ n, input ≠ d.target (directoryOf cwd d.dir) n) (l : Location) :
    IsOutdated t' (directoryOf cwd d.dir) input l ↔
      ∃ s ∈ segments, l = d.target (directoryOf cwd d.dir) s.index := by
  constructor
  · rintro ⟨hne, name, content, hl, hfile, hname⟩
    refine (h.file_before hfile).resolve_right fun ⟨hstale, hbefore⟩ => ?_
    exact hstale ((h.mem_stale_iff l).2 ⟨rfl, hne, name, content, hl, hbefore, hname⟩)
  · rintro ⟨s, hs, rfl⟩
    exact ⟨(hapart s.index).symm, _, _, rfl, h.target s hs, Stem.isSegmentName d.stem s.index⟩

/-- **The files that are removed before the second time** are those of the segments. -/
theorem Delivered.mem_stale_again
    (h : Delivered t t' cwd d clean input header segments stale)
    (h' : Delivered t' t'' cwd d clean input header segments stale')
    (hapart : ∀ n, input ≠ d.target (directoryOf cwd d.dir) n) (l : Location) :
    l ∈ stale' ↔ clean = true ∧ ∃ s ∈ segments, l = d.target (directoryOf cwd d.dir) s.index := by
  rw [h'.mem_stale_iff]
  refine and_congr_right fun hclean => ?_
  subst hclean
  exact h.isOutdated_iff hapart l

/-- There are as many as segments, if any. -/
theorem Delivered.length_stale_again
    (h : Delivered t t' cwd d clean input header segments stale)
    (h' : Delivered t' t'' cwd d clean input header segments stale')
    (hapart : ∀ n, input ≠ d.target (directoryOf cwd d.dir) n)
    (hnodup : (segments.map Segment.index).Nodup) :
    stale'.length = if clean then segments.length else 0 := by
  have hmem := h.mem_stale_again h' hapart
  cases clean with
  | false =>
    have hnil : stale' = [] := List.eq_nil_iff_forall_not_mem.2 fun l hl => by
      simpa using (hmem l).1 hl
    rw [hnil]
    rfl
  | true =>
    have hlocations : ((segments.map Segment.index).map
        (d.target (directoryOf cwd d.dir))).Nodup :=
      hnodup.map fun _ _ heq => Destination.target_inj heq
    have hperm : stale'.Perm ((segments.map Segment.index).map
        (d.target (directoryOf cwd d.dir))) := by
      refine (List.perm_ext_iff_of_nodup h'.nodup hlocations).2 fun l => ?_
      rw [hmem l]
      simp [eq_comm]
    rw [hperm.length_eq, List.length_map, List.length_map]
    rfl

/-- **Nothing changes the second time.** -/
theorem Delivered.lookup_again
    (h : Delivered t t' cwd d clean input header segments stale)
    (h' : Delivered t' t'' cwd d clean input header segments stale')
    (hapart : ∀ n, input ≠ d.target (directoryOf cwd d.dir) n) (l : Location) :
    t''.lookup l = t'.lookup l := by
  by_cases hon : l ∈ directoriesOn cwd d.dir
  · rw [h.directory l hon, h'.directory l hon]
  by_cases htarget : ∃ s ∈ segments, l = d.target (directoryOf cwd d.dir) s.index
  · obtain ⟨s, hs, rfl⟩ := htarget
    rw [h.target s hs, h'.target s hs]
  by_cases hprepared : ∃ s ∈ segments, l = d.prepared (directoryOf cwd d.dir) s.index
  · obtain ⟨s, hs, rfl⟩ := hprepared
    rw [h.prepared s hs, h'.prepared s hs]
  refine h'.other l hon (fun hstale => htarget ?_) fun s hs =>
    ⟨fun heq => htarget ⟨s, hs, heq⟩, fun heq => hprepared ⟨s, hs, heq⟩⟩
  exact ((h.mem_stale_again h' hapart l).1 hstale).2

/-! ## What lets the second split succeed -/

/-- The input is found where it was. -/
theorem Delivered.entryAt (h : Delivered t t' cwd d clean input header segments stale)
    (hplain : Plain t) (hdirs : ∀ l, t.lookup l = some .directory → t'.lookup l = some .directory)
    (hapart : ∀ n, input ≠ d.target (directoryOf cwd d.dir) n ∧
      input ≠ d.prepared (directoryOf cwd d.dir) n) {p : Path} {bytes : Bytes}
    (hinput : t.entryAt cwd p = .ok (input, .file bytes)) :
    t'.entryAt cwd p = .ok (input, .file bytes) := by
  obtain ⟨-, route, hlead⟩ := entryAt_eq_ok_iff.1 hinput
  refine hplain.entryAt_congr hdirs ?_ hinput
  refine h.other input (fun hon => ?_) (fun hstale => ?_) fun s _ => hapart s.index
  · rcases h.before input hon with hnone | hdir
    · cases hlead.lookup_file.symm.trans hnone
    · cases hlead.lookup_file.symm.trans hdir
  · exact ((h.mem_stale_iff input).1 hstale).2.1 rfl

/-- The directory can be prepared as it could be before. -/
theorem Delivered.accessible (h : Delivered t t' cwd d clean input header segments stale)
    (hreaches : ∀ s ∈ segments,
      usable (d.pathFor s.index) = .ok () ∧ IsEntryName (Stem.fileName d.stem s.index))
    (haccessible : Accessible t cwd d.dir clean) : Accessible t' cwd d.dir clean := by
  refine ⟨haccessible.path, fun hclean name content hfile hname => ?_⟩
  rcases h.file_before hfile with ⟨s, hs, heq⟩ | ⟨-, hbefore⟩
  · rw [(List.cons.inj heq).1]
    exact hreaches s hs
  · exact haccessible.entry hclean name content hbefore hname

/-! ## The second split -/

/-- **What has succeeded can be done again**, with the same plan. -/
theorem Succeeds.again (h : Succeeds settings predicate t prepared t' cwd plan removed)
    (hplain : Plain t) {bytes : Bytes}
    (hinput : t.entryAt cwd settings.input = .ok (input, .file bytes))
    (hapart : ∀ n, input ≠ Destination.target ⟨settings.outputDir, settings.stem⟩
        (directoryOf cwd settings.outputDir) n ∧
      input ≠ Destination.prepared ⟨settings.outputDir, settings.stem⟩
        (directoryOf cwd settings.outputDir) n) :
    ∃ removed' prepared' t'', Succeeds settings predicate t' prepared' t'' cwd plan removed' ∧
      t'.entryAt cwd settings.input = .ok (input, .file bytes) := by
  obtain ⟨_, _, stale, hfound, hdecode, rfl, -, hready, hplaced⟩ := h.phases hplain
  cases hinput.symm.trans hfound
  have hdelivered := delivered_of_placed hready hplaced h.madeOf.stem
  obtain ⟨written, hall⟩ := h.accepts
  have hcan := (Destination.exists_accepts_iff (d := ⟨settings.outputDir, settings.stem⟩)
    hready.plain h.madeOf.stem hready.hasDirectory).1 ⟨_, hall⟩
  have hdirs := hplaced.directory_iff hcan
  have hinput' := hdelivered.entryAt hplain
    (fun l hl => (hdirs l).2 (hready.lookup_directory hl)) hapart hinput
  have hmade : plan.MadeOf settings predicate t' cwd :=
    { h.madeOf with table := ⟨bytes, read_eq_ok_iff.2 ⟨input, hinput'⟩, hdecode⟩ }
  have haccessible := hdelivered.accessible hplaced.reaches
    (hplain.accessible_of_prepareDirectory h.prepare)
  obtain ⟨removed', prepared', hprepare⟩ :=
    haccessible.prepareDirectory hplaced.plain hplaced.hasDirectory (some settings.input)
  obtain ⟨_, _, stale', -, -, rfl, hready'⟩ := hmade.readied hplaced.plain hprepare
  have hdirs' := hready'.directory_iff hplaced.plain hplaced.hasDirectory
  have hcan' : ∀ s ∈ closedSegments (scan plan.compiled plan.table),
      Destination.CanTake ⟨settings.outputDir, settings.stem⟩ prepared'
        (directoryOf cwd settings.outputDir) s.index := fun s hs =>
    (hcan s hs).of_directories fun l hl => (hdirs l).1 ((hdirs' l).1 hl)
  obtain ⟨⟨t'', written'⟩, hall'⟩ := (Destination.exists_accepts_iff
    (d := ⟨settings.outputDir, settings.stem⟩) hready'.plain h.madeOf.stem
    hready'.hasDirectory).2 hcan'
  exact ⟨_, prepared', t'', ⟨hmade, hprepare, h.testable, written', hall'⟩, hinput'⟩

/-- The input does not lie where a segment file goes or is prepared, under any number. -/
def InputApart (settings : Settings) (t : FileTree) (cwd : Location) : Prop :=
  ∀ entry, t.entryAt cwd settings.input = .ok entry → ∀ n,
    entry.1 ≠ Destination.target ⟨settings.outputDir, settings.stem⟩
        (directoryOf cwd settings.outputDir) n ∧
      entry.1 ≠ Destination.prepared ⟨settings.outputDir, settings.stem⟩
        (directoryOf cwd settings.outputDir) n

/-- **Splitting twice is splitting once.**  In a tree of directories and regular files, with an
input that lies apart from all segment files, a split that has succeeded succeeds again.  It leaves
every file as it is and gives the same report, except that the files that it removes, if it is to,
are those of the segments. -/
theorem split_again (hplain : Plain host.files)
    (hapart : InputApart settings host.files host.cwd)
    (h : (split settings predicate : OnHost _) host = (.ok report, host')) :
    ∃ host'' : Host, (split settings predicate : OnHost _) host'
        = (.ok { report with
            removedFiles := if settings.clean then report.segments.length else 0 }, host'') ∧
      (∀ l, host''.files.lookup l = host'.files.lookup l) ∧
      host''.cwd = host'.cwd ∧ host''.output = host'.output := by
  obtain ⟨outcome, files, journal, hends, hrun⟩ := split_onHost settings predicate host
  obtain ⟨rfl, rfl⟩ := Prod.mk.inj (h.symm.trans hrun)
  obtain ⟨plan, removed, prepared, hsucceeds, rfl⟩ := hends.exists_succeeds
  obtain ⟨input, bytes, stale, hinput, -, rfl, hruns, hready, hplaced⟩ := hsucceeds.phases hplain
  obtain ⟨removed', prepared', files', hagain, hinput'⟩ :=
    hsucceeds.again hplain hinput (hapart _ hinput)
  obtain ⟨input', bytes', stale', hinput'', -, rfl, -, hready', hplaced'⟩ :=
    hagain.phases hplaced.plain
  cases hinput'.symm.trans hinput''
  have hfirst := delivered_of_placed hready hplaced hsucceeds.madeOf.stem
  have hsecond := delivered_of_placed hready' hplaced' hsucceeds.madeOf.stem
  have hgoes := fun n => (hapart _ hinput n).1
  have hlength := hfirst.length_stale_again hsecond hgoes (nodup_index hruns.index_eq)
  obtain ⟨outcome, files'', journal', hends', hrun'⟩ :=
    split_onHost settings predicate { host with files, journal }
  obtain ⟨rfl, rfl⟩ := hagain.ends.unique hends'
  refine ⟨{ host with files := files'', journal := journal' }, ?_,
    hfirst.lookup_again hsecond hgoes, rfl, rfl⟩
  rw [hrun', hlength]
  simp [Plan.reportOn, Plan.report]

/-- The host on which the log of the field has been split. -/
def fieldHostAfter : Host := ((split fieldSettings "state >= 1" : OnHost _) fieldHost).2

theorem inputApart_field : InputApart fieldSettings fieldHost.files fieldHost.cwd := by
  intro entry hentry n
  have hinput : fieldHost.files.entryAt fieldHost.cwd fieldSettings.input
      = .ok (["log.txt", "out"], .file (Utf8.encode "t\tstate\n0\t1\n1\t0\n2\t1\n3\t0\n")) := by
    decide +kernel
  obtain rfl := Except.ok.inj (hinput.symm.trans hentry)
  -- the names of the segment files begin with another letter
  have hfirst : ∀ name : Bytes, name.head? = some 0x66 → Utf8.encode "log.txt" ≠ name := by
    rintro name hname rfl
    exact absurd hname (by decide)
  have hstem : ∀ rest : Bytes, (Utf8.encode fieldSettings.stem ++ rest).head? = some 0x66 :=
    fun _ => rfl
  have hname : (Stem.fileName fieldSettings.stem n).head? = some 0x66 := by
    rw [Stem.fileName, String.append_assoc, String.append_assoc, Utf8.encode_append]
    exact hstem _
  have hprepared : (Stem.preparedName fieldSettings.stem n).head? = some 0x66 := by
    rw [Stem.preparedName, List.head?_append, hname]
    rfl
  exact ⟨fun heq => hfirst _ hname (List.cons.inj heq).1,
    fun heq => hfirst _ hprepared (List.cons.inj heq).1⟩

set_option maxRecDepth 100000 in
/-- The first split removes one file and the second the two that the first has written. -/
theorem split_again_field :
    Plain fieldHost.files ∧ InputApart fieldSettings fieldHost.files fieldHost.cwd ∧
      (split fieldSettings "state >= 1" : OnHost _) fieldHost = (.ok fieldReport, fieldHostAfter) ∧
      ∃ host'' : Host, (split fieldSettings "state >= 1" : OnHost _) fieldHostAfter
          = (.ok { fieldReport with removedFiles := 2 }, host'') ∧
        (∀ l, host''.files.lookup l = fieldHostAfter.files.lookup l) ∧
        host''.files.lookup ["flight-2.txt", "out"]
          = some (.file (Utf8.encode "t\tstate\n2\t1\n")) ∧
        host''.cwd = fieldHostAfter.cwd ∧ host''.output = fieldHostAfter.output := by
  have hplain : Plain fieldHost.files := plain_of_entries (by decide +kernel)
  have hreport : ((split fieldSettings "state >= 1" : OnHost _) fieldHost).1 = .ok fieldReport := by
    decide +kernel
  have hsplit : (split fieldSettings "state >= 1" : OnHost _) fieldHost
      = (.ok fieldReport, fieldHostAfter) := Prod.ext hreport rfl
  have hfile : fieldHostAfter.files.lookup ["flight-2.txt", "out"]
      = some (.file (Utf8.encode "t\tstate\n2\t1\n")) := by decide +kernel
  obtain ⟨host'', hagain, hsame, hcwd, houtput⟩ := split_again hplain inputApart_field hsplit
  exact ⟨hplain, inputApart_field, hsplit, host'', hagain, hsame, (hsame _).trans hfile, hcwd,
    houtput⟩

end LogSplit
