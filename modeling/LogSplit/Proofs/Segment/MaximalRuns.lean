import LogSplit.Proofs.Segment.Progress
import Mathlib.Data.List.TakeWhile
import Mathlib.Logic.ExistsUnique

/-!
# The segments of a table are its maximal runs

`MaximalRuns p t segments` is what a reader of a log means by its segments, stated by positions
in the table: numbered runs of members, one behind the other, that no member borders on and that
leave no member out.  The main statement is `segmentTable_maximalRuns`: when every row can be
tested and the sink refuses nothing, these are the segments the sink is given, in this order and
no others, and the summary counts them.

The sink is a program in any lawful monad, so it may keep a state of its own, and what is told
about the scan on the way is arbitrary too.
-/

set_option autoImplicit false

namespace LogSplit

/-- The segments of a table. -/
structure MaximalRuns (p : CompiledPredicate) (t : Table) (segments : List Segment) : Prop where
  /-- They are numbered from one. -/
  index_eq : ∀ k s, segments[k]? = some s → s.index = k + 1
  /-- Each is a run of members that no member borders on. -/
  isRun : ∀ s ∈ segments, IsRun p t s
  /-- They lie one behind the other. -/
  ordered : segments.Pairwise fun a b => a.stop < b.start
  /-- Each ends before the last row. -/
  stop_lt : ∀ s ∈ segments, s.stop < t.body.length
  /-- Every member lies in exactly one. -/
  existsUnique : ∀ i, IsMember p t i → ∃! s, s ∈ segments ∧ s.Covers i
  /-- Together they have as many rows as there are passing rows before the last one. -/
  sum_length : (segments.map Segment.length).sum = t.body.dropLast.countP p.passes

/-- Of segments that lie one behind the other only one covers a position. -/
theorem eq_of_covers {segments : List Segment}
    (hord : segments.Pairwise fun a b => a.stop < b.start) {a b : Segment} (ha : a ∈ segments)
    (hb : b ∈ segments) {i : Nat} (hai : a.Covers i) (hbi : b.Covers i) : a = b := by
  induction hord with
  | nil => exact absurd ha (by simp)
  | cons hlt _ ih =>
    obtain ⟨hale, hali⟩ := hai
    obtain ⟨hble, hbli⟩ := hbi
    rcases List.mem_cons.1 ha with rfl | ha' <;> rcases List.mem_cons.1 hb with rfl | hb'
    · rfl
    · have := hlt b hb'
      omega
    · have := hlt a ha'
      omega
    · exact ih ha' hb'

/-- An open run at the end of the table would have a last member that is the last row. -/
theorem Progress.run_eq_none {p : CompiledPredicate} {t : Table} {closed : List Segment}
    {run : Option OpenRun} (h : Progress p t t.body.length closed run) : run = none := by
  cases run with
  | none => rfl
  | some o =>
    have ho := h.open_lt o rfl
    exact absurd (h.open_isMember o rfl (t.body.length - 1) (by omega) (by omega))
      (not_isMember_last p t (by omega))

/-- At the end of the table the closed runs are the segments. -/
theorem Progress.maximalRuns {p : CompiledPredicate} {t : Table} {closed : List Segment}
    {run : Option OpenRun} (h : Progress p t t.body.length closed run) :
    MaximalRuns p t closed := by
  have hrun := h.run_eq_none
  subst hrun
  refine ⟨h.index_eq, h.isRun, h.ordered, h.stop_lt, ?_, ?_⟩
  · intro i hm
    have hlt : i < t.body.length := Nat.lt_of_succ_lt hm.1
    obtain ⟨s, hs, hc⟩ := (h.covered i hlt hm).resolve_right (by simp)
    exact ⟨s, ⟨hs, hc⟩, fun s' hs' => eq_of_covers h.ordered hs'.1 hs hs'.2 hc⟩
  · rw [← Nat.add_zero (List.sum _)]
    refine h.count_eq.trans ?_
    rw [memberCount, List.take_of_length_le (by simp)]

/-! ## Handing segments over -/

variable {m : Type → Type} [Monad m]

/-- A sink that answers to a segment by taking it, whatever else it does. -/
def NeverFails (answer : m (Except SplitError Unit)) : Prop :=
  (fun _ => .ok ()) <$> answer = answer

/-- The segment that an event closes. -/
def ScanEvent.closed? : ScanEvent → Option Segment
  | .closed segment => some segment
  | _ => none

/-- Tells about an event and, if it closes a segment, gives the segment to a sink whose answer
is of no interest. -/
def visit (observe : ScanEvent → m Unit) (sink : Segment → m (Except SplitError Unit))
    (event : ScanEvent) : m Unit := do
  observe event
  match event.closed? with
  | some segment => (fun _ => ()) <$> sink segment
  | none => pure ()

theorem foldl_add (segments : List Segment) (summary : ScanSummary) :
    segments.foldl ScanSummary.add summary
      = ⟨summary.rows, summary.matchedRows + (segments.map Segment.length).sum,
          summary.segments + segments.length⟩ := by
  induction segments generalizing summary with
  | nil => rfl
  | cons s rest ih =>
    rw [List.foldl_cons, ih]
    simp only [ScanSummary.add, List.map_cons, List.sum_cons, List.length_cons,
      ScanSummary.mk.injEq, true_and]
    omega

/-- A sink that never fails is given every closed segment. -/
theorem handOver_of_neverFails [LawfulMonad m] {observe : ScanEvent → m Unit}
    {sink : Segment → m (Except SplitError Unit)} (hsink : ∀ s, NeverFails (sink s))
    (events : List ScanEvent) (hok : ∀ e, ScanEvent.failed e ∉ events) (summary : ScanSummary) :
    handOver observe sink summary events = (do
      events.forM (visit observe sink)
      return .ok ((closedSegments events).foldl ScanSummary.add summary)) := by
  induction events generalizing summary with
  | nil => simp [handOver]
  | cons event rest ih =>
    have hrest : ∀ e, ScanEvent.failed e ∉ rest := fun e he => hok e (List.mem_cons_of_mem _ he)
    cases event with
    | tested position passes member => simp [handOver, visit, ScanEvent.closed?, ih hrest]
    | failed e => exact absurd List.mem_cons_self (hok e)
    | closed s =>
      have htake : ∀ next : Except SplitError Unit → m (Except SplitError ScanSummary),
          (sink s >>= next) = sink s >>= fun _ => next (.ok ()) := by
        intro next
        rw [← hsink s, bind_map_left, bind_map_left]
      simp only [handOver, htake, ih hrest]
      simp [visit, ScanEvent.closed?]

/-- A table whose rows can all be tested has a scan without failure. -/
theorem failed_not_mem_scanFrom {p : CompiledPredicate} (rows : List NumberedRow)
    (hrows : ∀ r ∈ rows, p.isTestable r = true) (e : RowError) :
    ∀ (position found : Nat) (run : Option OpenRun),
      ScanEvent.failed e ∉ scanFrom p position found run rows := by
  induction rows with
  | nil => simp [scanFrom]
  | cons r rest ih =>
    intro position found run
    obtain ⟨passes, htest⟩ := CompiledPredicate.isTestable_iff.1 (hrows r List.mem_cons_self)
    have ih' := ih fun r hr => hrows r (List.mem_cons_of_mem _ hr)
    rw [scanFrom, htest]
    dsimp only
    cases run <;> cases passes && !rest.isEmpty <;> simp [ih']

theorem forM_visit_of_quiet [LawfulMonad m] {observe : ScanEvent → m Unit}
    (hquiet : ∀ e, observe e = pure ()) (sink : Segment → m (Except SplitError Unit))
    (events : List ScanEvent) (hok : ∀ e, ScanEvent.failed e ∉ events) :
    events.forM (visit observe sink)
      = (closedSegments events).forM fun s => (fun _ => ()) <$> sink s := by
  rw [List.forM_eq_forM, List.forM_eq_forM]
  induction events with
  | nil => rfl
  | cons event rest ih =>
    have ih' := ih fun e he => hok e (List.mem_cons_of_mem _ he)
    cases event with
    | tested position passes member => simp [visit, hquiet, ScanEvent.closed?, ih']
    | failed e => exact absurd List.mem_cons_self (hok e)
    | closed s => simp [visit, hquiet, ScanEvent.closed?, ih']

/-- **The sink is given exactly the maximal runs.**  Every row can be tested and the sink never
fails: then the scan succeeds, each event is told about in turn, each closed segment goes to the
sink when its turn comes, and the closed segments are the maximal runs of members.  Where nothing
is told, nothing else happens at all. -/
theorem segmentTable_maximalRuns [LawfulMonad m] (observe : ScanEvent → m Unit)
    (sink : Segment → m (Except SplitError Unit)) (hsink : ∀ s, NeverFails (sink s))
    (p : CompiledPredicate) (t : Table) (hrows : ∀ r ∈ t.body, p.isTestable r = true) :
    ∃ segments summary,
      MaximalRuns p t segments ∧
      closedSegments (scan p t) = segments ∧
      summary = { rows := t.body.length
                  matchedRows := (segments.map Segment.length).sum
                  segments := segments.length } ∧
      segmentTable observe sink p t = (do
        (scan p t).forM (visit observe sink)
        return .ok summary) ∧
      ((∀ e, observe e = pure ()) →
        segmentTable observe sink p t = (do
          segments.forM fun s => (fun _ => ()) <$> sink s
          return .ok summary)) := by
  have hall : t.body.takeWhile p.isTestable = t.body := List.takeWhile_eq_self_iff.2 hrows
  obtain ⟨run, hprog⟩ := progress_scan p t
  rw [hall] at hprog
  have hok : ∀ e, ScanEvent.failed e ∉ scan p t := fun e =>
    failed_not_mem_scanFrom t.body hrows e 0 0 none
  have hrun : segmentTable observe sink p t = (do
      (scan p t).forM (visit observe sink)
      return .ok (⟨t.body.length, ((closedSegments (scan p t)).map Segment.length).sum,
        (closedSegments (scan p t)).length⟩ : ScanSummary)) := by
    rw [segmentTable, handOver_of_neverFails hsink _ hok, foldl_add]
    simp [ScanSummary.start]
  refine ⟨_, _, hprog.maximalRuns, rfl, rfl, hrun, fun hquiet => ?_⟩
  rw [hrun, forM_visit_of_quiet hquiet _ _ hok]

/-- A column `v` with two runs of ones, the second of which reaches the last row. -/
def pulses : Table := .ofRows ⟨["v"]⟩ [⟨["1"]⟩, ⟨["1"]⟩, ⟨["0"]⟩, ⟨["1"]⟩, ⟨["1"]⟩]

/-- The condition `v >= 1`, bound to the first column. -/
def isOne : CompiledPredicate :=
  ⟨[⟨⟨"v", .ge, .ofBits 0x3FF0000000000000, "1"⟩, 0⟩]⟩

/-- A sink that keeps what it is given. -/
def keep (s : Segment) : StateM (List Segment) (Except SplitError Unit) := do
  modify (· ++ [s])
  return .ok ()

theorem segmentTable_pulses :
    (∀ s, NeverFails (keep s)) ∧ (∀ r ∈ pulses.body, isOne.isTestable r = true) ∧
      ∃ segments summary,
        MaximalRuns isOne pulses segments ∧
        closedSegments (scan isOne pulses) = segments ∧
        summary = { rows := pulses.body.length
                    matchedRows := (segments.map Segment.length).sum
                    segments := segments.length } ∧
        segmentTable (fun _ => pure ()) keep isOne pulses = (do
          (scan isOne pulses).forM (visit (fun _ => pure ()) keep)
          return .ok summary) ∧
        ((∀ e : ScanEvent, (fun _ => pure () : ScanEvent → StateM (List Segment) Unit) e = pure ()) →
          segmentTable (fun _ => pure ()) keep isOne pulses = (do
            segments.forM fun s => (fun _ => ()) <$> keep s
            return .ok summary)) :=
  have hkeep : ∀ s, NeverFails (keep s) := fun _ => rfl
  have hrows : ∀ r ∈ pulses.body, isOne.isTestable r = true := by decide +kernel
  ⟨hkeep, hrows, segmentTable_maximalRuns (fun _ => pure ()) keep hkeep isOne pulses hrows⟩

end LogSplit
