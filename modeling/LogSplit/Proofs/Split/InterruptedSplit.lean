import LogSplit.Proofs.Output.PlacedFiles
import LogSplit.Proofs.Split.Phases

/-!
# What a split that fails in the middle leaves behind

Once the output directory has been prepared a split can still fail, at a row that cannot be tested
or at a segment file that cannot be put in place.  `split_interrupted` says what the files are then,
over a tree of directories and regular files.  `Interrupted` has the details: the segments that
were accepted before are in their files as a whole, what stood where the file of the failing
segment was to go stands there still, no half-written file is left, and nothing else has changed
since the directory was prepared.

What stands at the path where a segment file is prepared may stay, but only if it is a directory or
if the path cannot be used at all.
-/

set_option autoImplicit false

namespace LogSplit

open FileTree

variable {settings : Settings} {predicate : String} {plan : Plan} {host host₁ host₂ host' : Host}
  {e : SplitError} {removed : Nat} {t t₁ t' : FileTree} {cwd : Location} {d : Destination}
  {header : Header} {accepted : List Segment} {s : Segment}

/-! ## The files -/

/-- Writing segments to a tree `t` has been cut short, which has made it the tree `t'`.  Some
segments have been accepted, and then one may have been refused. -/
structure Interrupted (t t' : FileTree) (cwd : Location) (d : Destination) (header : Header)
    (accepted : List Segment) (refused : Option Segment) : Prop where
  /-- The file of each accepted segment has the header and the rows of the segment. -/
  target : ∀ s ∈ accepted, t'.lookup (d.target (directoryOf cwd d.dir) s.index)
    = some (.file (Tsv.encode header s.bareRows))
  /-- That is what its path gives. -/
  read : ∀ s ∈ accepted, t'.read cwd (d.pathFor s.index) = .ok (Tsv.encode header s.bareRows)
  /-- Where the file of the refused segment was to go nothing has changed. -/
  unplaced : ∀ s ∈ refused, t'.lookup (d.target (directoryOf cwd d.dir) s.index)
    = t.lookup (d.target (directoryOf cwd d.dir) s.index)
  /-- No regular file is left at a path where one was prepared, or was to be. -/
  no_file : ∀ s ∈ accepted ++ refused.toList, ∀ loc content,
    t'.entryAt cwd (d.pathFor s.index).temporary ≠ .ok (loc, .file content)
  /-- What stands there now stood there before. -/
  prepared : ∀ s ∈ accepted ++ refused.toList,
    t'.lookup (d.prepared (directoryOf cwd d.dir) s.index) = none ∨
      t'.lookup (d.prepared (directoryOf cwd d.dir) s.index)
        = t.lookup (d.prepared (directoryOf cwd d.dir) s.index)
  /-- Everything else is as it was. -/
  other : ∀ l, (∀ s ∈ accepted, l ≠ d.target (directoryOf cwd d.dir) s.index) →
    (∀ s ∈ accepted ++ refused.toList, l ≠ d.prepared (directoryOf cwd d.dir) s.index) →
      t'.lookup l = t.lookup l

/-- Writing is cut short behind an accepted segment. -/
theorem interrupted_of_placed (h : d.Placed t t' cwd (directoryOf cwd d.dir) header accepted)
    (hstem : Stem.validate d.stem = .ok ()) : Interrupted t t' cwd d header accepted none where
  target := h.target
  read s hs := h.read hstem hs
  unplaced s hs := by cases hs
  no_file s hs := by
    rw [Option.toList_none, List.append_nil] at hs
    exact h.no_file hstem hs
  prepared s hs := by
    rw [Option.toList_none, List.append_nil] at hs
    exact Or.inl (h.prepared s hs)
  other l htarget hprepared := by
    rw [Option.toList_none, List.append_nil] at hprepared
    exact h.other l fun s hs => ⟨htarget s hs, hprepared s hs⟩

/-- Writing is cut short by a segment that is refused. -/
theorem interrupted_of_unplaced (h : d.Placed t t₁ cwd (directoryOf cwd d.dir) header accepted)
    (h' : d.Unplaced t₁ t' cwd (directoryOf cwd d.dir) s.index)
    (hstem : Stem.validate d.stem = .ok ()) (hne : ∀ a ∈ accepted, a.index ≠ s.index) :
    Interrupted t t' cwd d header accepted (some s) := by
  have hkept : ∀ l, l ≠ d.prepared (directoryOf cwd d.dir) s.index → t'.lookup l = t₁.lookup l :=
    fun l hl => (h'.lookup l).resolve_right fun hprepared => hl hprepared.1
  have htarget : ∀ a ∈ accepted, t'.lookup (d.target (directoryOf cwd d.dir) a.index)
      = some (.file (Tsv.encode header a.bareRows)) := fun a ha => by
    rw [hkept _ Destination.target_ne_prepared, h.target a ha]
  have hprepared : ∀ a ∈ accepted, t'.lookup (d.prepared (directoryOf cwd d.dir) a.index) = none :=
    fun a ha => by
      rw [hkept _ fun heq => hne a ha (Destination.prepared_inj heq), h.prepared a ha]
  have hattempted : ∀ a ∈ accepted ++ [s], a ∈ accepted ∨ a = s := by simp
  refine ⟨htarget, fun a ha => ?_, ?_, fun a ha => ?_, fun a ha => ?_, fun l hl hl' => ?_⟩
  · exact Destination.read_pathFor h'.plain hstem h'.hasDirectory (h.reaches a ha) (htarget a ha)
  · rintro _ ⟨⟩
    rw [hkept _ Destination.target_ne_prepared]
    exact h.other _ fun a ha => ⟨fun heq => hne a ha (Destination.target_inj heq).symm,
      Destination.target_ne_prepared⟩
  · rcases hattempted a ha with ha | rfl
    · exact Destination.no_file_temporary h'.plain hstem h'.hasDirectory (by simp [hprepared a ha])
    · exact h'.no_file
  · rcases hattempted a ha with ha | rfl
    · exact Or.inl (hprepared a ha)
    · rcases h'.lookup (d.prepared (directoryOf cwd d.dir) a.index) with heq | ⟨-, hnone⟩
      · rw [heq]
        exact Or.inr (h.other _ fun b hb => ⟨Destination.target_ne_prepared.symm,
          fun heq => hne b hb (Destination.prepared_inj heq).symm⟩)
      · exact Or.inl hnone
  · rw [hkept l (hl' s (by simp))]
    exact h.other l fun a ha => ⟨hl a ha, hl' a (List.mem_append_left _ ha)⟩

/-! ## The scan -/

/-- **What a scan that fails has written.**  If a segment was refused then the error names its file,
and else the error is that of the first row that cannot be tested, behind all finished runs. -/
theorem interrupted_of_handedOver {p : CompiledPredicate} {table : Table}
    {written : List WrittenSegment} {told : List ScanEvent} (hplain : Plain t)
    (hstem : Stem.validate d.stem = .ok ())
    (hdir : HasDirectory t cwd d.dir (directoryOf cwd d.dir))
    (h : HandedOver (takeSegment cwd d table.header) (t, []) (.start table.body.length)
      (scan p table) (.error e) (t', written) told) :
    ∃ (finished accepted : List Segment) (refused : Option Segment),
      FinishedRuns p table (firstFailure p table) finished ∧
      accepted ++ refused.toList <+: finished ∧
      Interrupted t t' cwd d table.header accepted refused ∧
      (∀ s ∈ refused, ∃ cause, e = .output (d.pathFor s.index) (.file cause)) ∧
      (refused = none → accepted = finished ∧ ∃ r cause,
        table.body[firstFailure p table]? = some r ∧ p.test r = .error cause ∧
          e = .row cause) := by
  obtain ⟨finished, accepted, ⟨t₁, written₁⟩, hend⟩ := h.endOfScan
  have hnodup := nodup_index hend.finishedRuns.index_eq
  have hplaced := Destination.placed_of_accepts hplain hstem hdir
    (hnodup.sublist <| List.Sublist.map _ <| hend.accepted_prefix.sublist) hend.accepts
  rcases Nat.lt_or_ge accepted.length finished.length with hlt | hge
  · -- a finished run is left, and it has been refused
    obtain ⟨s, e', hnext, hs, houtcome, -⟩ := hend.refused hlt
    obtain ⟨cause, hreplace, rfl, -⟩ := Destination.takeSegment_eq_error hs
    have hunplaced :=
      Destination.unplaced_of_replaceFile hplaced.plain hstem hplaced.hasDirectory hreplace
    have hfresh : ∀ a ∈ accepted, a.index ≠ s.index := by
      have hboth := hnodup.sublist (hnext.sublist.map _)
      rw [List.map_append, List.nodup_append] at hboth
      exact fun a ha => hboth.2.2 _ (List.mem_map_of_mem ha) _ (by simp)
    refine ⟨finished, accepted, some s, hend.finishedRuns, hnext,
      interrupted_of_unplaced hplaced hunplaced hstem hfresh, ?_, by simp⟩
    rintro _ ⟨⟩
    exact ⟨cause, Except.error.inj houtcome⟩
  · -- none is left, so the scan has come to a row that cannot be tested
    obtain rfl : accepted = finished := hend.accepted_prefix.eq_of_length_le hge
    obtain ⟨rfl, rfl⟩ := Prod.mk.inj (hend.notRefused rfl).1
    have hfails : firstFailure p table < table.body.length := by
      refine Nat.lt_of_le_of_ne List.findIdx_le_length fun hnone => ?_
      cases hend.completed rfl hnone
    obtain ⟨r, cause, hr, htest, -, houtcome⟩ := hend.failed rfl hfails
    exact ⟨accepted, accepted, none, hend.finishedRuns, by simp,
      interrupted_of_placed hplaced hstem, by simp,
      fun _ => ⟨rfl, r, cause, hr, htest, Except.error.inj houtcome⟩⟩

/-! ## The split -/

/-- **What a split leaves behind that fails in the middle**, in a tree of directories and regular
files.  The segments that have been accepted are the first of the finished runs.  If one more was
refused then the error names its file, and else the error is that of the first row that cannot be
tested, behind all finished runs. -/
theorem split_interrupted (hplain : Plain host.files)
    (hplan : (Plan.prepare settings predicate : OnHost _) host = (.ok plan, host₁))
    (hprepare : (prepareDirectory settings.outputDir settings.clean (some settings.input) :
      OnHost _) host₁ = (.ok removed, host₂))
    (h : (split settings predicate : OnHost _) host = (.error e, host')) :
    ∃ (finished accepted : List Segment) (refused : Option Segment),
      FinishedRuns plan.compiled plan.table (firstFailure plan.compiled plan.table) finished ∧
      accepted ++ refused.toList <+: finished ∧
      Interrupted host₂.files host'.files host.cwd ⟨settings.outputDir, settings.stem⟩
        plan.table.header accepted refused ∧
      (∀ s ∈ refused, ∃ cause, e
        = .output (settings.outputDir.join (Stem.fileName settings.stem s.index)) (.file cause)) ∧
      (refused = none → accepted = finished ∧ ∃ r cause,
        plan.table.body[firstFailure plan.compiled plan.table]? = some r ∧
          plan.compiled.test r = .error cause ∧ e = .row cause) ∧
      host'.cwd = host.cwd := by
  obtain ⟨outcome, files, journal, hends, hrun⟩ := split_onHost settings predicate host
  obtain ⟨rfl, rfl⟩ := Prod.mk.inj (h.symm.trans hrun)
  obtain ⟨hfound, hfiles, hcwd⟩ := ofFiles_of_prepare hplan
  obtain ⟨journal', hprepared⟩ := prepareDirectory_onHost settings.outputDir settings.clean
    (some settings.input) host₁
  rw [hprepare, hfiles, hcwd] at hprepared
  obtain ⟨hremoved, rfl⟩ := Prod.mk.inj hprepared
  cases hends with
  | unready hfound' => cases hfound.trans hfound'
  | unprepared hfound' hprepare' =>
    rw [hprepare'] at hremoved
    cases hremoved
  | interrupted hfound' hprepare' hended =>
    obtain rfl := Except.ok.inj (hfound.trans hfound')
    have hmade := Plan.ofFiles_eq_ok_iff.1 hfound'
    obtain ⟨_, _, _, -, -, -, hready⟩ := hmade.readied hplain hprepare'
    rw [hmade.destination_eq] at hended
    obtain ⟨finished, accepted, refused, hfinished, hnext, hinterrupted, herror, hrow⟩ :=
      interrupted_of_handedOver (d := ⟨settings.outputDir, settings.stem⟩) hready.plain hmade.stem
        hready.hasDirectory hended
    refine ⟨finished, accepted, refused, hfinished, hnext, ?_, herror, hrow, rfl⟩
    rw [hprepare']
    exact hinterrupted

/-- A host with a directory where the file of the second segment is to go. -/
def blockedHost : Host :=
  .start (((empty.insert ["out"] .directory).insert ["log.txt", "out"]
      (.file (Utf8.encode "t\tstate\n0\t1\n1\t0\n2\t1\n3\t0\n"))).insert ["flight-2.txt", "out"]
    .directory) []

/-- The settings for it. -/
def blockedSettings : Settings := ⟨⟨"out/log.txt"⟩, ⟨"out"⟩, "flight", true, true⟩

/-- The plan for it. -/
def blockedPlan : Plan where
  settings := blockedSettings
  conditions := ⟨[⟨"state", .ge, .ofBits 0x3FF0000000000000, "1"⟩], 0⟩
  table := .ofRows ⟨["t", "state"]⟩ [⟨["0", "1"]⟩, ⟨["1", "0"]⟩, ⟨["2", "1"]⟩, ⟨["3", "0"]⟩]
  compiled := ⟨[⟨⟨"state", .ge, .ofBits 0x3FF0000000000000, "1"⟩, 1⟩]⟩

set_option maxRecDepth 100000 in
theorem split_interrupted_blocked : ∃ host₁ host₂ host' : Host,
    Plain blockedHost.files ∧
    (Plan.prepare blockedSettings "state >= 1" : OnHost _) blockedHost = (.ok blockedPlan, host₁) ∧
    (prepareDirectory blockedSettings.outputDir blockedSettings.clean (some blockedSettings.input) :
      OnHost _) host₁ = (.ok 0, host₂) ∧
    (split blockedSettings "state >= 1" : OnHost _) blockedHost
      = (.error (.output "out/flight-2.txt" (.file .isDirectory)), host') ∧
    host'.files.lookup ["flight-1.txt", "out"]
      = some (.file (Utf8.encode "t\tstate\n0\t1\n")) ∧
    ∃ (finished accepted : List Segment) (refused : Option Segment),
      FinishedRuns blockedPlan.compiled blockedPlan.table
        (firstFailure blockedPlan.compiled blockedPlan.table) finished ∧
      accepted ++ refused.toList <+: finished ∧
      Interrupted host₂.files host'.files blockedHost.cwd
        ⟨blockedSettings.outputDir, blockedSettings.stem⟩ blockedPlan.table.header accepted
        refused ∧
      (∀ s ∈ refused, ∃ cause,
        SplitError.output "out/flight-2.txt" (.file .isDirectory)
          = .output (blockedSettings.outputDir.join
              (Stem.fileName blockedSettings.stem s.index)) (.file cause)) ∧
      (refused = none → accepted = finished ∧ ∃ r cause,
        blockedPlan.table.body[firstFailure blockedPlan.compiled blockedPlan.table]? = some r ∧
          blockedPlan.compiled.test r = .error cause ∧
          SplitError.output "out/flight-2.txt" (.file .isDirectory) = .row cause) ∧
      host'.cwd = blockedHost.cwd := by
  have hplain : Plain blockedHost.files := plain_of_entries (by decide +kernel)
  have hplan : (Plan.prepare blockedSettings "state >= 1" : OnHost _) blockedHost
      = (.ok blockedPlan, ((Plan.prepare blockedSettings "state >= 1" : OnHost _) blockedHost).2) :=
    Prod.ext (by decide +kernel) rfl
  generalize ((Plan.prepare blockedSettings "state >= 1" : OnHost _) blockedHost).2 = host₁ at hplan
  obtain ⟨-, hfiles, hcwd⟩ := ofFiles_of_prepare hplan
  obtain ⟨journal, hprepare⟩ := prepareDirectory_onHost blockedSettings.outputDir
    blockedSettings.clean (some blockedSettings.input) host₁
  have hremoved : (blockedHost.files.prepareDirectory blockedHost.cwd blockedSettings.outputDir
      blockedSettings.clean (some blockedSettings.input)).1 = .ok 0 := by decide +kernel
  rw [hfiles, hcwd, hremoved] at hprepare
  have hsplit : (split blockedSettings "state >= 1" : OnHost _) blockedHost
      = (.error (.output "out/flight-2.txt" (.file .isDirectory)),
          ((split blockedSettings "state >= 1" : OnHost _) blockedHost).2) :=
    Prod.ext (by decide +kernel) rfl
  have hfile : ((split blockedSettings "state >= 1" : OnHost _) blockedHost).2.files.lookup
      ["flight-1.txt", "out"] = some (.file (Utf8.encode "t\tstate\n0\t1\n")) := by decide +kernel
  exact ⟨_, _, _, hplain, hplan, hprepare, hsplit, hfile,
    split_interrupted hplain hplan hprepare hsplit⟩

end LogSplit
