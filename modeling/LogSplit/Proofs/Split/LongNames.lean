import LogSplit.Proofs.Output.RefusedSegments
import LogSplit.Proofs.Split.Phases

/-!
# Splits that fail over a name that is too long

A stem is accepted for the number of its characters.  Whether the names made of it are short enough
for the file system is found out at the first segment, when the output directory has been made and
cleared.  `split_nameTooLong_iff` says exactly when a split ends that way, in a tree of directories
and regular files: there is a finished run whose names are too long, and the files of all runs
before it can be put in place.
-/

set_option autoImplicit false

namespace LogSplit

open FileTree

variable {settings : Settings} {predicate : String} {plan : Plan} {host host₁ host₂ : Host}
  {removed : Nat} {t t' : FileTree} {cwd base : Location} {dir : Path} {d : Destination}

/-- There is one first element that fails. -/
theorem eq_of_first {α : Type} {P : α → Prop} {l front front' : List α} {a a' : α}
    (h : front ++ [a] <+: l) (h' : front' ++ [a'] <+: l) (hfront : ∀ x ∈ front, P x) (ha : ¬ P a)
    (hfront' : ∀ x ∈ front', P x) (ha' : ¬ P a') : front = front' ∧ a = a' := by
  rcases Nat.lt_trichotomy front.length front'.length with hlt | heq | hlt
  · have hmem := List.prefix_of_prefix_length_le h ((List.prefix_append _ _).trans h')
      (by rw [List.length_append]; exact hlt)
    exact absurd (hfront' a (hmem.subset (by simp))) ha
  · have hlength : (front ++ [a]).length = (front' ++ [a']).length := by simp [heq]
    have hsame := (List.prefix_of_prefix_length_le h h' hlength.le).eq_of_length hlength
    obtain ⟨hfront, hlast⟩ := List.append_inj hsame heq
    exact ⟨hfront, List.singleton_inj.1 hlast⟩
  · have hmem := List.prefix_of_prefix_length_le h' ((List.prefix_append _ _).trans h)
      (by rw [List.length_append]; exact hlt)
    exact absurd (hfront a' (hmem.subset (by simp))) ha'

/-- The path of a directory that has been prepared has no byte zero. -/
theorem FileTree.Accessible.zero_not_mem {clean : Bool} (h : Accessible t cwd dir clean) :
    0 ∉ dir.bytes := by
  intro hzero
  by_cases hnames : dir.names = []
  · exact absurd (Path.eq_slash_of_names_eq_nil hnames _ hzero) (by decide)
  · have husable := h.path (Or.inl hnames)
    rw [usable, if_pos (by simpa using hzero)] at husable
    cases husable

/-! ## The scan -/

/-- Of some segments `s` is the first whose file is refused, and it is refused for its names. -/
structure StopsAtLongName (d : Destination) (t : FileTree) (base : Location)
    (segments : List Segment) (s : Segment) : Prop where
  /-- Those before it can be put in place. -/
  first : ∃ accepted, accepted ++ [s] <+: segments ∧ ∀ a ∈ accepted, d.CanTake t base a.index
  /-- Its names are too long. -/
  long : d.TooLong s.index

/-- **When a scan ends at a name that is too long.** -/
theorem nameTooLong_iff_of_handedOver {p : CompiledPredicate} {table : Table}
    {outcome : Except SplitError ScanSummary} {written : List WrittenSegment}
    {told : List ScanEvent} (hplain : Plain t) (hstem : Stem.validate d.stem = .ok ())
    (hzero : 0 ∉ d.dir.bytes) (hdir : HasDirectory t cwd d.dir base)
    (h : HandedOver (takeSegment cwd d table.header) (t, []) (.start table.body.length)
      (scan p table) outcome (t', written) told) :
    ∃ finished, FinishedRuns p table (firstFailure p table) finished ∧
      ∀ path, outcome = .error (.output path (.file .nameTooLong)) ↔
        ∃ s, StopsAtLongName d t base finished s ∧ path = d.pathFor s.index := by
  obtain ⟨finished, accepted, ⟨t₁, written₁⟩, hend⟩ := h.endOfScan
  have hnodup := nodup_index hend.finishedRuns.index_eq
  have hplaced := Destination.placed_of_accepts hplain hstem hdir
    (hnodup.sublist <| List.Sublist.map _ <| hend.accepted_prefix.sublist) hend.accepts
  have hcan : ∀ a ∈ accepted, d.CanTake t base a.index :=
    (Destination.exists_accepts_iff hplain hstem hdir).1 ⟨_, hend.accepts⟩
  have hcannot : ∀ {n}, d.TooLong n → ¬ d.CanTake t base n :=
    fun hlong htake => ((Destination.canTake_iff hstem hzero).1 htake).1 hlong
  refine ⟨finished, hend.finishedRuns, fun path => ?_⟩
  rcases Nat.lt_or_ge accepted.length finished.length with hlt | hge
  · -- a finished run is left, and it has been refused
    obtain ⟨s, e, hnext, hs, rfl, -⟩ := hend.refused hlt
    obtain ⟨cause, hreplace, rfl, -⟩ := Destination.takeSegment_eq_error hs
    have hrefused : ¬ d.CanTake t base s.index := by
      intro htake
      obtain ⟨t₂, hok⟩ := (Destination.exists_replaceFile_iff hplaced.plain hstem
        hplaced.hasDirectory (Tsv.encode table.header s.bareRows)).2
          (htake.of_directories fun l => (hplaced.directory_iff hcan l).1)
      cases hok.symm.trans hreplace
    have hcause := Destination.outcome_of_replaceFile (n := s.index) hplaced.plain hstem hzero
      hplaced.hasDirectory (Tsv.encode table.header s.bareRows)
    rw [hreplace] at hcause
    constructor
    · intro herror
      cases herror
      refine ⟨s, ⟨⟨accepted, hnext, hcan⟩, ?_⟩, rfl⟩
      by_contra hshort
      rw [if_neg hshort] at hcause
      split at hcause <;> cases hcause
    · rintro ⟨s', ⟨⟨accepted', hnext', hcan'⟩, hlong⟩, rfl⟩
      obtain ⟨rfl, rfl⟩ := eq_of_first hnext hnext' hcan hrefused hcan' (hcannot hlong)
      rw [if_pos hlong] at hcause
      rw [Except.error.inj hcause]
  · -- none is left, and no name was too long
    obtain rfl : accepted = finished := hend.accepted_prefix.eq_of_length_le hge
    constructor
    · rintro rfl
      rcases Nat.lt_or_ge (firstFailure p table) table.body.length with hfails | hnone
      · obtain ⟨r, cause, -, -, -, houtcome⟩ := hend.failed rfl hfails
        cases houtcome
      · cases hend.completed rfl (Nat.le_antisymm List.findIdx_le_length hnone)
    · rintro ⟨s, ⟨⟨accepted', hnext, -⟩, hlong⟩, -⟩
      exact absurd (hcan s (hnext.subset (by simp))) (hcannot hlong)

/-! ## The split -/

/-- A split whose output directory has been prepared fails with the error of the scan, if there is
one. -/
theorem SplitEnds.exists_handedOver {prepared : FileTree} {outcome : Except SplitError Report}
    (h : SplitEnds settings predicate t cwd outcome t')
    (hfound : Plan.ofFiles settings predicate t cwd = .ok plan)
    (hprepare : t.prepareDirectory cwd settings.outputDir settings.clean (some settings.input)
      = (.ok removed, prepared)) :
    ∃ scanned written told,
      HandedOver (takeSegment cwd plan.destination plan.table.header) (prepared, [])
        (.start plan.table.body.length) (scan plan.compiled plan.table) scanned (t', written)
        told ∧
      ∀ e, outcome = .error e ↔ scanned = .error e := by
  cases h with
  | unready hfound' => cases hfound.symm.trans hfound'
  | unprepared _ hprepare' => cases hprepare.symm.trans hprepare'
  | interrupted hfound' hprepare' hended =>
    cases hfound.symm.trans hfound'
    cases hprepare.symm.trans hprepare'
    exact ⟨_, _, _, hended, fun e => by simp⟩
  | completed hfound' hprepare' hended =>
    cases hfound.symm.trans hfound'
    cases hprepare.symm.trans hprepare'
    exact ⟨_, _, _, hended, fun e => by simp⟩

/-- **When a split fails over a name that is too long**, once the output directory has been
prepared.  The stem does not keep it from that: its names are short enough for all numbers of up to
nine digits if and only if it has at most 237 bytes. -/
theorem split_nameTooLong_iff (hplain : Plain host.files)
    (hplan : (Plan.prepare settings predicate : OnHost _) host = (.ok plan, host₁))
    (hprepare : (prepareDirectory settings.outputDir settings.clean (some settings.input) :
      OnHost _) host₁ = (.ok removed, host₂)) :
    ((∀ n < 10 ^ 9, (Stem.fileName settings.stem n).length ≤ maxNameLength ∧
        (Stem.preparedName settings.stem n).length ≤ maxNameLength) ↔
      settings.stem.utf8ByteSize ≤ 237) ∧
    ∃ finished,
      FinishedRuns plan.compiled plan.table (firstFailure plan.compiled plan.table) finished ∧
      ∀ path, (∃ host', (split settings predicate : OnHost _) host
          = (.error (.output path (.file .nameTooLong)), host')) ↔
        ∃ s, StopsAtLongName ⟨settings.outputDir, settings.stem⟩ host₂.files
            (directoryOf host.cwd settings.outputDir) finished s ∧
          path = settings.outputDir.join (Stem.fileName settings.stem s.index) := by
  refine ⟨?_, ?_⟩
  · rw [Stem.names_fit_iff (by decide), maxNameLength]
    omega
  obtain ⟨outcome, files, journal, hends, hrun⟩ := split_onHost settings predicate host
  obtain ⟨hfound, hfiles, hcwd⟩ := ofFiles_of_prepare hplan
  obtain ⟨journal', hprepared⟩ := prepareDirectory_onHost settings.outputDir settings.clean
    (some settings.input) host₁
  rw [hprepare, hfiles, hcwd] at hprepared
  obtain ⟨hremoved, rfl⟩ := Prod.mk.inj hprepared
  have htree : host.files.prepareDirectory host.cwd settings.outputDir settings.clean
      (some settings.input) = (.ok removed, _) := Prod.ext hremoved.symm rfl
  have hmade := Plan.ofFiles_eq_ok_iff.1 hfound.symm
  obtain ⟨_, _, _, -, -, -, hready⟩ := hmade.readied hplain htree
  obtain ⟨scanned, written, told, hended, herror⟩ := hends.exists_handedOver hfound.symm htree
  rw [hmade.destination_eq] at hended
  obtain ⟨finished, hfinished, hlong⟩ := nameTooLong_iff_of_handedOver
    (d := ⟨settings.outputDir, settings.stem⟩) hready.plain hmade.stem
    (hplain.accessible_of_prepareDirectory htree).zero_not_mem hready.hasDirectory hended
  refine ⟨finished, hfinished, fun path => Iff.trans ?_ (hlong path)⟩
  rw [hrun, ← herror]
  exact ⟨fun ⟨_, heq⟩ => (Prod.mk.inj heq).1, fun heq => ⟨_, Prod.ext heq rfl⟩⟩

/-- A host with a segment file of an earlier run in the output directory. -/
def earlierHost : Host :=
  .start (((empty.insert ["log.txt"] (.file (Utf8.encode "t\tstate\n0\t1\n1\t0\n"))).insert ["out"]
    .directory).insert ["old-1.txt", "out"] (.file [])) []

/-- A stem of sixty-two characters and 248 bytes.  The name of a segment file has 254, the one under
which it is prepared 258. -/
def smilingStem : String := String.ofList (List.replicate 62 '😀')

/-- The settings with this stem. -/
def smilingSettings : Settings := ⟨⟨"log.txt"⟩, ⟨"out"⟩, smilingStem, true, true⟩

/-- The plan for it. -/
def smilingPlan : Plan where
  settings := smilingSettings
  conditions := ⟨[⟨"state", .ge, .ofBits 0x3FF0000000000000, "1"⟩], 0⟩
  table := .ofRows ⟨["t", "state"]⟩ [⟨["0", "1"]⟩, ⟨["1", "0"]⟩]
  compiled := ⟨[⟨⟨"state", .ge, .ofBits 0x3FF0000000000000, "1"⟩, 1⟩]⟩

set_option maxRecDepth 100000 in
theorem split_nameTooLong_iff_smiling : ∃ host₁ host₂ host' : Host,
    Plain earlierHost.files ∧
    (Plan.prepare smilingSettings "state >= 1" : OnHost _) earlierHost = (.ok smilingPlan, host₁) ∧
    (prepareDirectory smilingSettings.outputDir smilingSettings.clean (some smilingSettings.input) :
      OnHost _) host₁ = (.ok 1, host₂) ∧
    host₂.files.lookup ["old-1.txt", "out"] = none ∧
    (split smilingSettings "state >= 1" : OnHost _) earlierHost
      = (.error (.output
          (smilingSettings.outputDir.join (Stem.fileName smilingSettings.stem 1))
          (.file .nameTooLong)), host') ∧
    ¬ (∀ n < 10 ^ 9, (Stem.fileName smilingSettings.stem n).length ≤ maxNameLength ∧
      (Stem.preparedName smilingSettings.stem n).length ≤ maxNameLength) ∧
    ∃ finished s, FinishedRuns smilingPlan.compiled smilingPlan.table
        (firstFailure smilingPlan.compiled smilingPlan.table) finished ∧ s.index = 1 ∧
      StopsAtLongName ⟨smilingSettings.outputDir, smilingSettings.stem⟩ host₂.files
        (directoryOf earlierHost.cwd smilingSettings.outputDir) finished s := by
  have hplain : Plain earlierHost.files := plain_of_entries (by decide +kernel)
  have hready : ((Plan.prepare smilingSettings "state >= 1" : OnHost _) earlierHost).1
      = .ok smilingPlan := by decide +kernel
  rcases hplan : (Plan.prepare smilingSettings "state >= 1" : OnHost _) earlierHost with
    ⟨outcome, host₁⟩
  rw [hplan] at hready
  subst hready
  obtain ⟨-, hfiles, hcwd⟩ := ofFiles_of_prepare hplan
  obtain ⟨journal, hprepare⟩ := prepareDirectory_onHost smilingSettings.outputDir
    smilingSettings.clean (some smilingSettings.input) host₁
  have hremoved : (earlierHost.files.prepareDirectory earlierHost.cwd smilingSettings.outputDir
      smilingSettings.clean (some smilingSettings.input)).1 = .ok 1 := by decide +kernel
  rw [hfiles, hcwd, hremoved] at hprepare
  have hgone : (earlierHost.files.prepareDirectory earlierHost.cwd smilingSettings.outputDir
      smilingSettings.clean (some smilingSettings.input)).2.lookup ["old-1.txt", "out"] = none := by
    decide +kernel
  have hsize : smilingSettings.stem.utf8ByteSize = 248 := by decide +kernel
  obtain ⟨hfit, finished, hfinished, hlong⟩ := split_nameTooLong_iff hplain hplan hprepare
  -- the run at the first row is finished, so there is a first segment
  have hclosed := finishedRuns_scan smilingPlan.compiled smilingPlan.table
  obtain ⟨first, hfirst⟩ := List.exists_mem_of_ne_nil
    (closedSegments (scan smilingPlan.compiled smilingPlan.table)) (by decide +kernel)
  obtain ⟨_, hmem, -⟩ := hfinished.complete first (hclosed.isRun first hfirst)
    (hclosed.stop_lt first hfirst)
  obtain ⟨s, rest, rfl⟩ := List.exists_cons_of_ne_nil (List.ne_nil_of_mem hmem)
  have hindex : s.index = 1 := hfinished.index_eq 0 s rfl
  have hlength : maxNameLength < (Stem.preparedName smilingSettings.stem s.index).length := by
    rw [hindex, Stem.length_preparedName, Stem.length_fileName, hsize]
    decide
  have hstops : ∀ t, StopsAtLongName ⟨smilingSettings.outputDir, smilingSettings.stem⟩ t
      (directoryOf earlierHost.cwd smilingSettings.outputDir) (s :: rest) s :=
    fun t => ⟨⟨[], by simp, by simp⟩, Or.inl hlength⟩
  obtain ⟨host', hsplit⟩ := (hlong _).2 ⟨s, hstops _, rfl⟩
  rw [hindex] at hsplit
  refine ⟨host₁, _, host', hplain, rfl, hprepare, hgone, hsplit, fun hall => ?_, s :: rest, s,
    hfinished, hindex, hstops _⟩
  have hle : smilingSettings.stem.utf8ByteSize ≤ 237 := hfit.1 hall
  omega

end LogSplit
