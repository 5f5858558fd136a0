import LogSplit.Proofs.Output.Preparation
import LogSplit.Proofs.Output.Replacement
import LogSplit.Proofs.Split.Phases
import LogSplit.Proofs.Tsv.RecordCount

/-!
# What a split does to its own input

A split is not to harm the file it reads.  Getting ready changes no file (`finds_prepare`), and
preparing the output directory spares the input wherever it lies and by whatever path it is given.
Writing the segments does not: nothing compares their paths with the input, so an input that lies
where a segment file goes, or where one is prepared, is overwritten.

`input_kept_iff` says when exactly that does not happen.  The input still has its bytes after a
split, however the split ends, if and only if the segment files that are put in place touch
neither the file nor a link on the way to it.
-/

set_option autoImplicit false

namespace LogSplit

open FileTree

variable {settings : Settings} {predicate : String} {host host' : Host} {bytes : Bytes}
  {plan : Plan}

/-! ## Carrying a plan out -/

theorem files_execute_of_ok {removed : Nat} (h : (prepareDirectory plan.settings.outputDir
    plan.settings.clean (some plan.settings.input) : OnHost _) host = (.ok removed, host')) :
    ((plan.execute : OnHost _) host).2.files = writeSegments host'.cwd plan.destination
        plan.table.header host'.files (closedSegments (scan plan.compiled plan.table)) ∧
      ((plan.execute : OnHost _) host).2.cwd = host'.cwd := by
  obtain ⟨⟨e | summary, written⟩, journal, hwritten⟩ :=
    plan.destination.files_writeSegments plan.compiled plan.table host'
  · rw [execute_of_write_error h hwritten]
    exact ⟨rfl, rfl⟩
  · rw [execute_of_write_ok h hwritten]
    exact ⟨rfl, rfl⟩

/-- A segment has fewer rows than the table, whose last row is in none. -/
theorem length_bareRows_lt {p : CompiledPredicate} {t : Table} {s : Segment}
    (h : s ∈ closedSegments (scan p t)) : s.bareRows.length < t.body.length := by
  obtain ⟨run, hprogress⟩ := progress_scan p t
  have hstop := hprogress.stop_lt s h
  have hle := hprogress.le_length
  rw [Segment.stop, Segment.length] at hstop
  rw [Segment.bareRows, List.length_map]
  omega

/-! ## The input of a split -/

/-- The segment files of a split touch nothing on a route. -/
def SparesRoute (settings : Settings) (predicate : String) (host : Host) (route : List Location) :
    Prop :=
  ∀ plan host₁ removed host₂,
    (Plan.prepare settings predicate : OnHost _) host = (.ok plan, host₁) →
    (prepareDirectory settings.outputDir settings.clean (some settings.input) : OnHost _) host₁
      = (.ok removed, host₂) →
    Spares host₂.cwd route plan.destination plan.table.header host₂.files
      (closedSegments (scan plan.compiled plan.table))

/-- **Where the path of the input leads after a split**: where it led before, if its route has been
spared, and else not to a file with these bytes. -/
theorem leads_split_iff (predicate : String) {loc : Location} {route : List Location}
    (hwell : WellFormed host.files) (husable : usable settings.input = .ok ())
    (hlead : Leads host.files maxLinks (origin host.cwd settings.input) (steps settings.input)
      (.entry loc (.file bytes)) route) :
    ((split settings predicate : OnHost _) host).2.cwd = host.cwd ∧
      ∀ {loc' : Location} {route' : List Location},
        Leads ((split settings predicate : OnHost _) host).2.files maxLinks
            (origin host.cwd settings.input) (steps settings.input)
            (.entry loc' (.file bytes)) route' ↔
          (loc' = loc ∧ route' = route) ∧ SparesRoute settings predicate host route := by
  have hread : host.files.read host.cwd settings.input = .ok bytes := by
    rw [FileTree.read, entryAt_eq_ok_iff.2 ⟨husable, route, hlead⟩]
  rcases hprepare : (Plan.prepare settings predicate : OnHost _) host with ⟨e | plan, host₁⟩ <;>
    obtain ⟨hfound, hfiles, hcwd⟩ := ofFiles_of_prepare hprepare
  · rw [split_of_unready hprepare]
    refine ⟨hcwd, fun {loc' route'} => ?_⟩
    have hspares : SparesRoute settings predicate host route := by
      intro plan host₁' removed host₂ h
      cases hprepare.symm.trans h
    rw [and_iff_left hspares, ← hlead.iff_of_keeps (.refl route host.files), ← hfiles]
  · obtain ⟨rfl, hstem, -, -, ⟨content, hcontent, hdecode⟩, -⟩ :=
      Plan.ofFiles_eq_ok_iff.1 hfound.symm
    obtain rfl : bytes = content := Except.ok.inj (hread.symm.trans hcontent)
    rw [split_of_ready hprepare]
    rw [← hcwd, ← hfiles] at hlead
    rw [← hfiles] at hwell
    obtain ⟨outcome, files, journal, hprepared, hkeeps⟩ :=
      keeps_prepareDirectory hwell husable hlead plan.settings.outputDir plan.settings.clean
    cases outcome with
    | error e =>
      have hspares : SparesRoute plan.settings predicate host route := by
        intro plan' host₁' removed host₂ h h'
        cases hprepare.symm.trans h
        cases hprepared.symm.trans h'
      rw [execute_of_unprepared hprepared, ← hcwd]
      exact ⟨rfl, (hlead.iff_of_keeps hkeeps).trans (and_iff_left hspares).symm⟩
    | ok removed =>
      obtain ⟨hwritten, hwcwd⟩ := files_execute_of_ok hprepared
      have hspares : SparesRoute plan.settings predicate host route ↔
          Spares host₁.cwd route plan.destination plan.table.header files
            (closedSegments (scan plan.compiled plan.table)) := by
        constructor
        · intro h
          exact h plan host₁ removed _ hprepare hprepared
        · intro h plan' host₁' removed' host₂ hp hd
          cases hprepare.symm.trans hp
          cases hprepared.symm.trans hd
          exact h
      have hbytes : ∀ s ∈ closedSegments (scan plan.compiled plan.table),
          Tsv.encode plan.table.header s.bareRows ≠ bytes := fun s hs =>
        Tsv.encode_ne_of_decode hdecode _ (length_bareRows_lt hs)
      have hname : Stem.validate plan.destination.stem = .ok () := hstem
      rw [hwcwd, ← hcwd, hwritten]
      refine ⟨rfl, fun {loc' route'} => ?_⟩
      rw [leads_writeSegments_iff hname hbytes, hlead.iff_of_keeps hkeeps]
      refine and_congr_right fun hsame => ?_
      rw [hsame.2, hspares]

/-- **When a split leaves its input alone.**  The regular file that the input names still exists
under this path with its bytes, after success and after every error, if and only if the segment
files touch nothing on the route to it: neither the file itself nor a link that leads to it. -/
theorem input_kept_iff (settings : Settings) (predicate : String) (host : Host) (loc : Location)
    (bytes : Bytes) (hwell : WellFormed host.files)
    (hinput : host.files.entryAt host.cwd settings.input = .ok (loc, .file bytes)) :
    ∃ route, Leads host.files maxLinks (origin host.cwd settings.input) (steps settings.input)
        (.entry loc (.file bytes)) route ∧
      (((split settings predicate : OnHost _) host).2.files.entryAt
          ((split settings predicate : OnHost _) host).2.cwd settings.input
            = .ok (loc, .file bytes) ↔ SparesRoute settings predicate host route) ∧
      (((split settings predicate : OnHost _) host).2.files.read
          ((split settings predicate : OnHost _) host).2.cwd settings.input = .ok bytes ↔
        SparesRoute settings predicate host route) := by
  obtain ⟨husable, route, hlead⟩ := entryAt_eq_ok_iff.1 hinput
  obtain ⟨hcwd, hafter⟩ := leads_split_iff predicate hwell husable hlead
  rw [hcwd]
  have hentry : ∀ loc', ((split settings predicate : OnHost _) host).2.files.entryAt host.cwd
      settings.input = .ok (loc', .file bytes) ↔
        loc' = loc ∧ SparesRoute settings predicate host route := by
    intro loc'
    rw [entryAt_eq_ok_iff]
    constructor
    · rintro ⟨-, route', h⟩
      exact ⟨(hafter.1 h).1.1, (hafter.1 h).2⟩
    · rintro ⟨rfl, hspares⟩
      exact ⟨husable, route, hafter.2 ⟨⟨rfl, rfl⟩, hspares⟩⟩
  refine ⟨route, hlead, (hentry loc).trans (and_iff_right rfl), ?_⟩
  rw [read_eq_ok_iff]
  exact ⟨fun ⟨loc', h⟩ => ((hentry loc').1 h).2, fun h => ⟨loc, (hentry loc).2 ⟨rfl, h⟩⟩⟩

/-- A host with a log where the file of its first segment goes. -/
def flightHost : Host :=
  .start ((empty.insert ["out"] .directory).insert ["flight-1.txt", "out"]
    (.file (Utf8.encode "t\tstate\n0\t1\n1\t0\n"))) []

/-- The settings for it. -/
def flightSettings : Settings := ⟨⟨"out/flight-1.txt"⟩, ⟨"out"⟩, "flight", false, true⟩

/-- The log on this host is kept unless its own location is touched.  It is touched, and the first
segment is all that is left of the log. -/
theorem input_kept_iff_flight :
    WellFormed flightHost.files ∧
      flightHost.files.entryAt flightHost.cwd flightSettings.input
        = .ok (["flight-1.txt", "out"], .file (Utf8.encode "t\tstate\n0\t1\n1\t0\n")) ∧
      (((split flightSettings "state >= 1" : OnHost _) flightHost).2.files.read
          ((split flightSettings "state >= 1" : OnHost _) flightHost).2.cwd flightSettings.input
            = .ok (Utf8.encode "t\tstate\n0\t1\n1\t0\n") ↔
        SparesRoute flightSettings "state >= 1" flightHost [["flight-1.txt", "out"]]) ∧
      ¬ SparesRoute flightSettings "state >= 1" flightHost [["flight-1.txt", "out"]] ∧
      ((split flightSettings "state >= 1" : OnHost _) flightHost).2.files.read
          ((split flightSettings "state >= 1" : OnHost _) flightHost).2.cwd flightSettings.input
        = .ok (Utf8.encode "t\tstate\n0\t1\n") := by
  have hwell : WellFormed flightHost.files :=
    (wellFormed_empty.insert ⟨by decide, by decide⟩ [] _).insert ⟨by decide, by decide⟩ ["out"] _
  have husable : usable flightSettings.input = .ok () := by
    rw [usable, if_neg (by decide), if_neg (by decide), if_neg (by decide)]
  have hlead : Leads flightHost.files maxLinks (origin flightHost.cwd flightSettings.input)
      (steps flightSettings.input)
      (.entry ["flight-1.txt", "out"] (.file (Utf8.encode "t\tstate\n0\t1\n1\t0\n")))
      [["flight-1.txt", "out"]] := by
    have horigin : origin flightHost.cwd flightSettings.input = [] := by decide
    have hsteps : steps flightSettings.input = ["out", "flight-1.txt"] := by decide
    have hout : IsEntryName "out" := ⟨by decide, by decide, by decide⟩
    have hname : IsEntryName "flight-1.txt" := ⟨by decide, by decide, by decide⟩
    rw [horigin, hsteps]
    exact .directory hout rfl (.file hname rfl)
  have hentry := entryAt_eq_ok_iff.2 ⟨husable, _, hlead⟩
  obtain ⟨route, hroute, -, hread⟩ :=
    input_kept_iff flightSettings "state >= 1" flightHost _ _ hwell hentry
  obtain ⟨-, rfl⟩ := hlead.unique hroute
  have hlost : ((split flightSettings "state >= 1" : OnHost _) flightHost).2.files.read
      ((split flightSettings "state >= 1" : OnHost _) flightHost).2.cwd flightSettings.input
        = .ok (Utf8.encode "t\tstate\n0\t1\n") := by decide +kernel
  have htouched : ¬ SparesRoute flightSettings "state >= 1" flightHost
      [["flight-1.txt", "out"]] := by
    rw [← hread, hlost]
    decide
  exact ⟨hwell, hentry, hread, htouched, hlost⟩

end LogSplit
