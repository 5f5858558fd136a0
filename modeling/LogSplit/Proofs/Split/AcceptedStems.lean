import LogSplit.CommandLine
import LogSplit.Proofs.Output.PlacedFiles
import LogSplit.Proofs.Output.SegmentNames
import LogSplit.Proofs.Split.InputFaults

/-!
# Accepted stems

A stem is given on the command line, where it is looked at when the words are read, or in a
configuration file, where nothing looks at it before the split is made ready.  Both ways come to
the same stem or to the same error (`Stem.SameEitherWay`).

An accepted stem makes good paths in every directory (`SegmentPaths`): each number has a path of
its own, directly in the directory, which the next clean-up of the directory takes for a segment
file, and each file is prepared next to its place at a path that no segment file has.
-/

set_option autoImplicit false

namespace LogSplit

open LogSplit.Path FileTree

/-! ## Two ways to give a stem -/

/-- A stem that is not usable ends a split before anything is read. -/
theorem Plan.prepare_of_fault {settings : Settings} {fault : StemFault}
    (h : Stem.fault? settings.stem = some fault) (predicate : String) (host : Host) :
    (Plan.prepare settings predicate : OnHost _) host
      = (.error (.invalidStem settings.stem fault), host) := by
  rw [Plan.prepare, Stem.validate, h]
  rfl

/-- A usable stem is never refused. -/
theorem Plan.prepare_ne_invalidStem {settings : Settings}
    (h : Stem.validate settings.stem = .ok ()) (predicate : String) (host : Host) (stem : String)
    (fault : StemFault) : ((Plan.prepare settings predicate : OnHost _) host).1
      ≠ .error (.invalidStem stem fault) := by
  intro herror
  have hrun : (Plan.prepare settings predicate : OnHost _) host
      = (.error (.invalidStem stem fault), ((Plan.prepare settings predicate : OnHost _) host).2) :=
    Prod.ext herror rfl
  obtain ⟨hfound, -, -⟩ := ofFiles_of_prepare hrun
  obtain ⟨cause, hcause, hfirst⟩ := Plan.isFirst_of_ofFiles_eq_error hfound.symm
  cases hcause
  exact InputFault.not_applies_stem h hfirst.applies

namespace Stem

variable {stem : String} {m n : Nat}

/-- The settings of a run that is given a stem on the command line. -/
def settingsFromFlag (i : Invocation) (file : SettingsFile) (workingDir : Path) (stem : String) :
    Settings :=
  { i with stem := some stem }.settings file workingDir

/-- The settings of a run that is given a text for its stem in the configuration file only. -/
def settingsFromFile (i : Invocation) (file : SettingsFile) (workingDir : Path) (text : String) :
    Settings :=
  { i with stem := none }.settings { file with stem := some text } workingDir

/-- What becomes of a text that is given for the stem: on the command line, where it is checked
when it is read, and in the configuration file, where it is checked when the split is made
ready. -/
inductive SameEitherWay (text : String) (i : Invocation) (file : SettingsFile)
    (workingDir : Path) : Prop where
  /-- It is accepted, and the stem is the same. -/
  | accepted (stem : String) (valid : validate stem = .ok ())
    (flag : Given.accept .stem text = .ok stem)
    (stem_eq : (settingsFromFlag i file workingDir stem).stem = stem)
    (settings_eq : settingsFromFile i file workingDir text
      = settingsFromFlag i file workingDir stem)
    (ready : ∀ predicate host refused fault,
      ((Plan.prepare (settingsFromFile i file workingDir text) predicate : OnHost _) host).1
        ≠ .error (.invalidStem refused fault))
  /-- It is refused, and the error is the same. -/
  | refused (cause : SplitError) (reason : ∃ fault, cause = .invalidStem (Text.trim text) fault)
    (flag : Given.accept .stem text = .error (.invalidValue .stem text cause))
    (ready : ∀ predicate host,
      (Plan.prepare (settingsFromFile i file workingDir text) predicate : OnHost _) host
        = (.error cause, host))

theorem settingsFromFlag_stem (i : Invocation) (file : SettingsFile) (workingDir : Path)
    (stem : String) : (settingsFromFlag i file workingDir stem).stem = stem := by
  simp [settingsFromFlag, Invocation.settings]

/-- The text in a configuration file is trimmed, and nothing else is done to it. -/
theorem settingsFromFile_eq (i : Invocation) (file : SettingsFile) (workingDir : Path)
    (text : String) : settingsFromFile i file workingDir text
      = settingsFromFlag i file workingDir (Text.trim text) := by
  simp [settingsFromFile, settingsFromFlag, Invocation.settings]

/-- **Both ways to give a stem come to the same.** -/
theorem sameEitherWay (text : String) (i : Invocation) (file : SettingsFile) (workingDir : Path) :
    SameEitherWay text i file workingDir := by
  have hsettings := settingsFromFile_eq i file workingDir text
  have hstem : (settingsFromFile i file workingDir text).stem = Text.trim text :=
    (congrArg Settings.stem hsettings).trans (settingsFromFlag_stem i file workingDir _)
  cases hfault : fault? (Text.trim text) with
  | none =>
    have hvalid := validate_eq_ok_iff.2 hfault
    refine .accepted (Text.trim text) hvalid ?_ (settingsFromFlag_stem i file workingDir _)
      hsettings (Plan.prepare_ne_invalidStem (by rw [hstem, hvalid]))
    rw [Given.accept, ofArgument, hvalid]
    rfl
  | some fault =>
    refine .refused (.invalidStem (Text.trim text) fault) ⟨fault, rfl⟩ ?_ fun predicate host => ?_
    · rw [Given.accept, ofArgument, validate, hfault]
      rfl
    · rw [Plan.prepare_of_fault (by rw [hstem, hfault]) predicate host, hstem]

/-! ## The name of a segment file -/

/-- No character of the name separates directories, on any system. -/
theorem isSeparator_of_mem (h : validate stem = .ok ()) {c : Char}
    (hc : c ∈ (stem ++ "-" ++ toString n ++ ".txt").toList) : isSeparator c = false := by
  simp only [String.toList_append, List.mem_append] at hc
  rcases hc with ((hstem | hdash) | hdigits) | hextension
  · exact (plain_of_mem h hstem).1
  · obtain rfl := List.mem_singleton.1 hdash
    rfl
  · rw [Nat.toString_eq_ofList_toDigits, String.toList_ofList] at hdigits
    have hdigit := Nat.isDigit_of_mem_toDigits (by decide) (by decide) hdigits
    rw [← Bool.not_eq_true]
    intro hseparator
    rcases Bool.or_eq_true_iff.1 hseparator with hslash | hbackslash
    · rw [beq_iff_eq.1 hslash] at hdigit
      cases hdigit
    · rw [beq_iff_eq.1 hbackslash] at hdigit
      cases hdigit
  · have hnone : (".txt" : String).toList.all (fun c => isSeparator c == false) = true := by decide
    exact beq_iff_eq.1 (List.all_eq_true.1 hnone c hextension)

end Stem

/-! ## The paths of segment files -/

/-- What the paths of segment files are like in a directory. -/
structure SegmentPaths (d : Destination) : Prop where
  /-- A path is the directory and one name behind it, made of the stem and the number. -/
  path_eq : ∀ n, d.pathFor n = d.dir.join (Utf8.encode (d.stem ++ "-" ++ toString n ++ ".txt"))
  /-- The name is not empty and nothing in it separates directories. -/
  name_single : ∀ n, IsPiece (Stem.fileName d.stem n) ∧
    ∀ c ∈ (d.stem ++ "-" ++ toString n ++ ".txt").toList, Stem.isSeparator c = false
  /-- The name does not lead to the directory itself or to the one above. -/
  name_proper : ∀ n, Stem.fileName d.stem n ≠ "." ∧ Stem.fileName d.stem n ≠ ".."
  /-- The names on the path are those of the directory and this one. -/
  names_eq : ∀ n, (d.pathFor n).names = d.dir.names ++ [Stem.fileName d.stem n]
  /-- The path starts where that of the directory starts. -/
  isAbsolute_eq : ∀ n, (d.pathFor n).isAbsolute = d.dir.isAbsolute
  /-- The last name is this one, -/
  fileName?_eq : ∀ n, (d.pathFor n).fileName? = some (Stem.fileName d.stem n)
  /-- and it tells the number. -/
  inj : ∀ m n, (d.pathFor m).fileName? = (d.pathFor n).fileName? → m = n
  /-- The extension is the one of segment files, -/
  extension?_eq : ∀ n, (d.pathFor n).extension? = some (Utf8.encode "txt")
  /-- so the path counts as that of one, -/
  isSegment : ∀ n, (d.pathFor n).isSegment = true
  /-- and once the directory has been cleaned, no such file is there but the one to be kept. -/
  cleaned : ∀ {host host' : Host} {keep : Option Path} {removed : Nat}, WellNamed host.files →
    (prepareDirectory d.dir true keep : OnHost _) host = (.ok removed, host') →
    ∃ base, HasDirectory host'.files host'.cwd d.dir base ∧
      ∀ n content, host'.files.lookup (d.target base n) = some (.file content) →
        ∃ p ∈ keep, (FileTree.makeDirs host.cwd d.dir.ancestors host.files).2.canonical host.cwd p
          = .ok (d.target base n)
  /-- The file is prepared in the same directory, -/
  temporary_eq : ∀ n, (d.pathFor n).temporary = d.dir.join (Stem.fileName d.stem n ++ ".tmp")
  /-- right beside its place, -/
  temporary_beside : ∀ n, (d.pathFor n).temporary.Beside (d.pathFor n)
  /-- with another extension, -/
  temporary_extension : ∀ n, (d.pathFor n).temporary.extension? = some (Utf8.encode "tmp")
  /-- at a path that is none of a segment file. -/
  temporary_ne : ∀ m n, (d.pathFor n).temporary.fileName? ≠ (d.pathFor m).fileName?

theorem eq_ok_of_toOption {ε α : Type} {x : Except ε α} {a : α} (h : x.toOption = some a) :
    x = .ok a := by
  cases x with
  | error e => cases h
  | ok b => exact congrArg Except.ok (Option.some.inj h)

/-- The clean-up of a directory removes the files of segments. -/
theorem Destination.cleaned (d : Destination) (hstem : Stem.validate d.stem = .ok ())
    {host host' : Host} {keep : Option Path} {removed : Nat} (hnamed : WellNamed host.files)
    (h : (LogSplit.prepareDirectory d.dir true keep : OnHost _) host = (.ok removed, host')) :
    ∃ base, HasDirectory host'.files host'.cwd d.dir base ∧
      ∀ n content, host'.files.lookup (d.target base n) = some (.file content) →
        ∃ p ∈ keep, (FileTree.makeDirs host.cwd d.dir.ancestors host.files).2.canonical host.cwd p
          = .ok (d.target base n) := by
  obtain ⟨journal, hhost⟩ := prepareDirectory_onHost d.dir true keep host
  obtain ⟨houtcome, rfl⟩ := Prod.mk.inj (hhost.symm.trans h)
  have htree : host.files.prepareDirectory host.cwd d.dir true keep
      = (.ok removed, (host.files.prepareDirectory host.cwd d.dir true keep).2) :=
    Prod.ext houtcome rfl
  obtain ⟨base, stale, -, hprepared⟩ := prepared_of_prepareDirectory hnamed htree
  refine ⟨base, hprepared.hasDirectory, fun n content hfile => ?_⟩
  have hlookup := hprepared.lookup (d.target base n)
  rw [hfile] at hlookup
  split at hlookup
  · cases hlookup
  -- the file has been there all the time, so it has been kept
  rename_i hstays
  have hsegment : (d.dir.join (Stem.fileName d.stem n)).isSegment = true :=
    (Path.isSegment_join_iff (Stem.isPiece_fileName hstem n) (Stem.fileName_ne (by decide))
      (Stem.fileName_ne (by decide)) d.dir).2 (Stem.isSegmentName d.stem n)
  by_cases hkept : (keep.bind fun p => ((FileTree.makeDirs host.cwd d.dir.ancestors
      host.files).2.canonical host.cwd p).toOption) = some (d.target base n)
  · obtain ⟨p, hp, hcanonical⟩ := Option.bind_eq_some_iff.1 hkept
    exact ⟨p, hp, eq_ok_of_toOption hcanonical⟩
  · exact absurd ((hprepared.mem_stale_iff _).2
      ⟨rfl, hkept, _, content, rfl, hlookup.symm, hsegment⟩) hstays

/-- The last name on the path of a segment file. -/
theorem Destination.fileName?_pathFor {d : Destination} (hstem : Stem.validate d.stem = .ok ())
    (n : Nat) : (d.pathFor n).fileName? = some (Stem.fileName d.stem n) :=
  fileName?_join (Stem.isPiece_fileName hstem n) (Stem.fileName_ne (by decide))
    (Stem.fileName_ne (by decide)) d.dir

/-- **An accepted stem makes good paths in every directory.** -/
theorem segmentPaths {d : Destination} (hstem : Stem.validate d.stem = .ok ()) :
    SegmentPaths d where
  path_eq n := rfl
  name_single n := ⟨Stem.isPiece_fileName hstem n, fun c hc => Stem.isSeparator_of_mem hstem hc⟩
  name_proper n := ⟨Stem.fileName_ne (by decide), Stem.fileName_ne (by decide)⟩
  names_eq n := names_join (Stem.isPiece_fileName hstem n) d.dir
  isAbsolute_eq n := isAbsolute_join (Stem.isPiece_fileName hstem n) d.dir
  fileName?_eq n := Destination.fileName?_pathFor hstem n
  inj m n h := by
    rw [Destination.fileName?_pathFor hstem, Destination.fileName?_pathFor hstem] at h
    exact Stem.fileName_inj (Option.some.inj h)
  extension?_eq n := by
    rw [extension?, Destination.fileName?_pathFor hstem, Option.bind_some, Stem.fileName_eq,
      cutExtension_txt (Stem.isPiece hstem n).ne_nil]
  isSegment n := (Path.isSegment_join_iff (Stem.isPiece_fileName hstem n)
    (Stem.fileName_ne (by decide)) (Stem.fileName_ne (by decide)) d.dir).2
      (Stem.isSegmentName d.stem n)
  cleaned := d.cleaned hstem
  temporary_eq n := Destination.temporary_pathFor hstem n
  temporary_beside n := Path.temporary_beside (Stem.isPiece hstem n) d.dir
  temporary_extension n := by
    have hname : Stem.preparedName d.stem n
        = Stem.fileName d.stem n ++ [point] ++ Utf8.encode "tmp" := by
      rw [Stem.preparedName, List.append_assoc]
      rfl
    rw [Destination.temporary_pathFor hstem, extension?,
      fileName?_join (Stem.isPiece_preparedName hstem n) (Stem.preparedName_ne (by decide))
        (Stem.preparedName_ne (by decide)),
      Option.bind_some, hname,
      cutExtension_point (Stem.isPiece_fileName hstem n).ne_nil (by decide)]
  temporary_ne m n h := by
    rw [Destination.temporary_pathFor hstem,
      fileName?_join (Stem.isPiece_preparedName hstem n) (Stem.preparedName_ne (by decide))
        (Stem.preparedName_ne (by decide)),
      Destination.fileName?_pathFor hstem] at h
    exact Stem.fileName_ne_preparedName (Option.some.inj h).symm

/-- **Segment files stay in the output directory and the next clean-up knows them**, whichever way
their stem was given. -/
theorem Stem.accepted_either_way :
    (∀ text i file workingDir, SameEitherWay text i file workingDir) ∧
      ∀ stem, validate stem = .ok () → ∀ dir, SegmentPaths ⟨dir, stem⟩ :=
  ⟨sameEitherWay, fun _ hstem _ => segmentPaths hstem⟩

/-- A host with a segment file of an earlier run in the output directory. -/
def staleHost : Host :=
  .start (((empty.insert ["out"] .directory).insert ["sortie-1.txt", "out"] (.file [])).insert
    ["notes.md", "out"] (.file [])) []

set_option maxRecDepth 100000 in
theorem Stem.accepted_either_way_sortie : ∃ host' : Host,
    Given.accept .stem "  sortie\t" = .ok "sortie" ∧
    (settingsFromFile ⟨"log.txt", "x > 1", none, none, none, false, false, false, false⟩ .empty
      ⟨"/run"⟩ "  sortie\t").stem = "sortie" ∧
    validate "sortie" = .ok () ∧
    (prepareDirectory ⟨"out"⟩ true none : OnHost _) staleHost = (.ok 1, host') ∧
    (∃ base, HasDirectory host'.files host'.cwd ⟨"out"⟩ base ∧ ∀ n content,
      host'.files.lookup (fileName "sortie" n :: base) ≠ some (.file content)) ∧
    (Destination.mk ⟨"out"⟩ "sortie").pathFor 1 ≠ (Destination.mk ⟨"out"⟩ "sortie").pathFor 11 := by
  obtain ⟨hways, hpaths⟩ := Stem.accepted_either_way
  have hflag : Given.accept .stem "  sortie\t" = .ok "sortie" := by decide +kernel
  have hvalid : validate "sortie" = .ok () := by decide +kernel
  have hgood := hpaths "sortie" hvalid ⟨"out"⟩
  have hnamed : WellNamed staleHost.files := (plain_of_entries (by decide +kernel)).wellNamed
  obtain ⟨journal, hprepare⟩ := prepareDirectory_onHost ⟨"out"⟩ true none staleHost
  have hremoved : (staleHost.files.prepareDirectory staleHost.cwd ⟨"out"⟩ true none).1 = .ok 1 := by
    decide +kernel
  rw [hremoved] at hprepare
  obtain ⟨base, hdir, hgone⟩ := hgood.cleaned hnamed hprepare
  refine ⟨_, hflag, ?_, hvalid, hprepare, ⟨base, hdir, fun n content hfile => ?_⟩, fun heq => ?_⟩
  · cases hways "  sortie\t" ⟨"log.txt", "x > 1", none, none, none, false, false, false, false⟩
      .empty ⟨"/run"⟩ with
    | accepted stem _ flag stem_eq settings_eq _ =>
      rw [settings_eq, stem_eq]
      exact Except.ok.inj (flag.symm.trans hflag)
    | refused cause _ flag _ => cases flag.symm.trans hflag
  · obtain ⟨p, hp, -⟩ := hgone n content hfile
    cases hp
  · exact absurd (hgood.inj 1 11 (congrArg fileName? heq)) (by decide)

end LogSplit
