import LogSplit.Proofs.Segment.FinishedRuns
import LogSplit.Proofs.Segment.MaximalRuns

/-!
# How a scan ends

Two things can end a scan before the end of the table: a row that cannot be tested, and a sink that
refuses a segment.  A sink is looked at here as a machine with a state of its own: `Accepts` says
which segments it has taken, and `HandedOver` how the walk over some events ends for it.

The programs that a scan is made of need not be such machines.  `Carries` relates the two, and
`Carries.handOver` is the one induction over the events of a scan: whatever carries a machine out
ends as the machine does.

`EndOfScan` says the same about a table instead of events.  The segments that are handed over are
the finished runs, in order, and the scan comes to the first row that cannot be tested only when
the sink has accepted all of them.
-/

set_option autoImplicit false

namespace LogSplit

variable {σ : Type} {p : CompiledPredicate} {t : Table}

/-! ## Sinks with a state -/

/-- A sink in some state accepts some segments one after the other, which leaves it in another
state. -/
inductive Accepts (sink : Segment → StateM σ (Except SplitError Unit)) :
    (st : σ) → List Segment → (st' : σ) → Prop where
  /-- Nothing has been handed over. -/
  | nil (st : σ) : Accepts sink st [] st
  /-- The first segment is accepted, and the others after it. -/
  | cons {st st' st'' : σ} {s : Segment} {rest : List Segment} (h : sink s st = (.ok (), st'))
    (hrest : Accepts sink st' rest st'') : Accepts sink st (s :: rest) st''

variable {sink : Segment → StateM σ (Except SplitError Unit)} {st st' : σ}

theorem Accepts.append_inv {front back : List Segment} (h : Accepts sink st (front ++ back) st') :
    ∃ st₁, Accepts sink st front st₁ ∧ Accepts sink st₁ back st' := by
  induction front generalizing st with
  | nil => exact ⟨st, .nil st, h⟩
  | cons s front ih =>
    cases h with
    | cons hs hrest =>
      obtain ⟨st₁, hfront, hback⟩ := ih hrest
      exact ⟨st₁, .cons hs hfront, hback⟩

theorem closedSegments_append {front : List ScanEvent} (h : ∀ e, ScanEvent.failed e ∉ front)
    (back : List ScanEvent) :
    closedSegments (front ++ back) = closedSegments front ++ closedSegments back := by
  induction front with
  | nil => rfl
  | cons event front ih =>
    have hfront := ih fun e he => h e (List.mem_cons_of_mem _ he)
    cases event with
    | tested => simpa using hfront
    | closed => simpa using hfront
    | failed e => exact absurd List.mem_cons_self (h e)

/-! ## Three ways to the end -/

/-- How the walk over some events ends for a sink in state `st`: the outcome, the state of the sink
and the events that were told about. -/
inductive HandedOver (sink : Segment → StateM σ (Except SplitError Unit)) (st : σ)
    (summary : ScanSummary) (events : List ScanEvent) :
    Except SplitError ScanSummary → σ → List ScanEvent → Prop where
  /-- The sink refuses a segment. -/
  | refused (front : List ScanEvent) {back : List ScanEvent} {s : Segment} {st' st'' : σ}
    {e : SplitError} (hevents : events = front ++ .closed s :: back)
    (hok : ∀ e, ScanEvent.failed e ∉ front)
    (hfront : Accepts sink st (closedSegments front) st') (hs : sink s st' = (.error e, st'')) :
    HandedOver sink st summary events (.error e) st'' (front ++ [.closed s])
  /-- A row cannot be tested. -/
  | failed (front : List ScanEvent) {back : List ScanEvent} {e : RowError} {st' : σ}
    (hevents : events = front ++ .failed e :: back) (hok : ∀ e, ScanEvent.failed e ∉ front)
    (hfront : Accepts sink st (closedSegments front) st') :
    HandedOver sink st summary events (.error (.row e)) st' (front ++ [.failed e])
  /-- Nothing fails. -/
  | completed {st' : σ} (hok : ∀ e, ScanEvent.failed e ∉ events)
    (hall : Accepts sink st (closedSegments events) st') :
    HandedOver sink st summary events (.ok ((closedSegments events).foldl ScanSummary.add summary))
      st' events

/-- One more event in front, which has no influence on the sink. -/
theorem HandedOver.tested {summary : ScanSummary} {events told : List ScanEvent}
    {outcome : Except SplitError ScanSummary} {position : Nat} {passes member : Bool}
    (h : HandedOver sink st summary events outcome st' told) :
    HandedOver sink st summary (.tested position passes member :: events) outcome st'
      (.tested position passes member :: told) := by
  cases h with
  | refused front hevents hok hfront hs =>
    exact .refused (.tested position passes member :: front) (by rw [hevents]; rfl)
      (by simpa using hok) hfront hs
  | failed front hevents hok hfront =>
    exact .failed (.tested position passes member :: front) (by rw [hevents]; rfl)
      (by simpa using hok) hfront
  | completed hok hall => exact .completed (by simpa using hok) hall

/-- One more segment in front, which the sink accepts. -/
theorem HandedOver.closed {summary : ScanSummary} {events told : List ScanEvent}
    {outcome : Except SplitError ScanSummary} {s : Segment} {st₁ : σ}
    (hs : sink s st = (.ok (), st₁))
    (h : HandedOver sink st₁ (summary.add s) events outcome st' told) :
    HandedOver sink st summary (.closed s :: events) outcome st' (.closed s :: told) := by
  cases h with
  | refused front hevents hok hfront hs' =>
    exact .refused (.closed s :: front) (by rw [hevents]; rfl) (by simpa using hok)
      (.cons hs hfront) hs'
  | failed front hevents hok hfront =>
    exact .failed (.closed s :: front) (by rw [hevents]; rfl) (by simpa using hok)
      (.cons hs hfront)
  | completed hok hall => exact .completed (by simpa using hok) (.cons hs hall)

/-! ## Only one end -/

/-- A step with a known outcome in front of others. -/
theorem bind_of_eq_state {α β : Type} {x : StateM σ α} {a : α} (h : x st = (a, st'))
    (f : α → StateM σ β) : (x >>= f) st = f a st' := by
  change f (x st).1 (x st).2 = f a st'
  rw [h]

/-- The walk of a sink over a segment that it accepts. -/
theorem handOver_closed {s : Segment} (hs : sink s st = (.ok (), st')) (summary : ScanSummary)
    (back : List ScanEvent) :
    handOver (fun _ => pure ()) sink summary (.closed s :: back) st
      = handOver (fun _ => pure ()) sink (summary.add s) back st' :=
  (bind_of_eq_state rfl _).trans (bind_of_eq_state hs _)

/-- The walk of a sink to a segment that it refuses. -/
theorem handOver_refused {s : Segment} {e : SplitError} (hs : sink s st = (.error e, st'))
    (summary : ScanSummary) (back : List ScanEvent) :
    handOver (fun _ => pure ()) sink summary (.closed s :: back) st = (.error e, st') :=
  (bind_of_eq_state rfl _).trans (bind_of_eq_state hs _)

/-- The walk of a sink over events in front that it accepts. -/
theorem handOver_append {front : List ScanEvent} (hok : ∀ e, ScanEvent.failed e ∉ front)
    (back : List ScanEvent) : ∀ {st : σ} (summary : ScanSummary),
      Accepts sink st (closedSegments front) st' →
        handOver (fun _ => pure ()) sink summary (front ++ back) st
          = handOver (fun _ => pure ()) sink
              ((closedSegments front).foldl ScanSummary.add summary) back st' := by
  induction front with
  | nil =>
    intro st summary h
    cases h
    rfl
  | cons event front ih =>
    have hrest := fun e he => hok e (List.mem_cons_of_mem event he)
    intro st summary h
    cases event with
    | tested => exact ih hrest summary h
    | failed e => exact absurd List.mem_cons_self (hok e)
    | closed s =>
      generalize hsegments : closedSegments (.closed s :: front) = segments at h ⊢
      cases h with
      | nil => cases hsegments
      | @cons _ st₁ _ s' rest hs haccepts =>
        obtain ⟨rfl, rfl⟩ := List.cons.inj hsegments
        rw [List.cons_append, handOver_closed hs, ih hrest _ haccepts]
        rfl

/-- The walk of a sink ends as it is told. -/
theorem HandedOver.handOver_eq {summary : ScanSummary} {events told : List ScanEvent}
    {outcome : Except SplitError ScanSummary}
    (h : HandedOver sink st summary events outcome st' told) :
    handOver (fun _ => pure ()) sink summary events st = (outcome, st') := by
  cases h with
  | refused front hevents hok hfront hs =>
    rw [hevents, handOver_append hok _ _ hfront, handOver_refused hs]
  | failed front hevents hok hfront =>
    rw [hevents, handOver_append hok _ _ hfront]
    rfl
  | completed hok hall =>
    have hend := handOver_append hok [] summary hall
    rw [List.append_nil] at hend
    exact hend

/-- **A walk has one end.** -/
theorem HandedOver.unique {summary : ScanSummary} {events told told' : List ScanEvent}
    {outcome outcome' : Except SplitError ScanSummary} {st'' : σ}
    (h : HandedOver sink st summary events outcome st' told)
    (h' : HandedOver sink st summary events outcome' st'' told') :
    outcome' = outcome ∧ st'' = st' :=
  Prod.mk.inj (h'.handOver_eq.symm.trans h.handOver_eq)

/-! ## Sinks that never fail -/

theorem NeverFails.exists_eq {s : Segment} (h : NeverFails (sink s)) (st : σ) :
    ∃ st', sink s st = (.ok (), st') :=
  ⟨_, (congrFun h st).symm⟩

/-- For a sink that never fails a walk has two ends: a row that cannot be tested, or the end of the
events. -/
theorem HandedOver.of_neverFails (hsink : ∀ s, NeverFails (sink s)) {summary : ScanSummary}
    {events told : List ScanEvent} {outcome : Except SplitError ScanSummary}
    (h : HandedOver sink st summary events outcome st' told) :
    (∃ e, ScanEvent.failed e ∈ events ∧ outcome = .error (.row e)) ∨
      (∀ e, ScanEvent.failed e ∉ events) ∧ told = events ∧
        outcome = .ok ((closedSegments events).foldl ScanSummary.add summary) := by
  cases h with
  | @refused front back s st₁ _ e hevents hok hfront hs =>
    obtain ⟨st₂, htaken⟩ := (hsink s).exists_eq st₁
    cases hs.symm.trans htaken
  | @failed front back e _ hevents hok hfront => exact .inl ⟨e, by simp [hevents], rfl⟩
  | completed hok hall => exact .inr ⟨hok, rfl, rfl⟩

/-! ## Programs that carry a sink out -/

/-- A way to run the programs of a monad on states. -/
structure Runner (m : Type → Type) [Monad m] (τ : Type) where
  /-- The result of a program and the state behind it. -/
  run : {α : Type} → m α → τ → α × τ
  /-- A program that does nothing leaves the state alone. -/
  run_pure : ∀ {α : Type} (a : α) (x : τ), run (pure a) x = (a, x)
  /-- One program after another. -/
  run_bind : ∀ {α β : Type} (c : m α) (f : α → m β) (x : τ),
    run (c >>= f) x = run (f (run c x).1) (run c x).2

variable {m : Type → Type} [Monad m] {τ : Type} {observe : ScanEvent → m Unit}
  {program : Segment → m (Except SplitError Unit)} {runner : Runner m τ}
  {related : τ → σ → List ScanEvent → Prop}

/-- A program for events and one for segments carry a sink out: states that are related to a state
of the sink and to the events so far stay so, and the answers are those of the sink. -/
structure Carries (runner : Runner m τ) (observe : ScanEvent → m Unit)
    (program : Segment → m (Except SplitError Unit))
    (sink : Segment → StateM σ (Except SplitError Unit)) (related : τ → σ → List ScanEvent → Prop) :
    Prop where
  /-- An event has no influence on the sink. -/
  observe : ∀ {x : τ} {st : σ} {told : List ScanEvent} (event : ScanEvent), related x st told →
    related (runner.run (observe event) x).2 st (told ++ [event])
  /-- A segment is answered as by the sink. -/
  program : ∀ {x : τ} {st : σ} {told : List ScanEvent} (s : Segment), related x st told →
    (runner.run (program s) x).1 = (sink s st).1 ∧
      related (runner.run (program s) x).2 (sink s st).2 told

/-- **What carries a sink out ends as the sink does.** -/
theorem Carries.handOver (h : Carries runner observe program sink related)
    (events : List ScanEvent) :
    ∀ (summary : ScanSummary) (x : τ) (st : σ) (before : List ScanEvent),
      related x st before →
        ∃ outcome x' st' told, HandedOver sink st summary events outcome st' told ∧
          runner.run (LogSplit.handOver observe program summary events) x = (outcome, x') ∧
          related x' st' (before ++ told) := by
  induction events with
  | nil =>
    intro summary x st before hx
    exact ⟨_, x, st, [], .completed (by simp) (.nil st), runner.run_pure _ x,
      by rwa [List.append_nil]⟩
  | cons event rest ih =>
    intro summary x st before hx
    have hobserved := h.observe event hx
    cases event with
    | tested position passes member =>
      rw [LogSplit.handOver, runner.run_bind]
      obtain ⟨outcome, x', st', told, hended, hrun, hx'⟩ := ih summary _ st _ hobserved
      exact ⟨outcome, x', st', _, hended.tested, hrun, by rwa [List.append_cons]⟩
    | failed e =>
      rw [LogSplit.handOver, runner.run_bind]
      exact ⟨_, _, st, _, .failed [] rfl (by simp) (.nil st), runner.run_pure _ _, hobserved⟩
    | closed s =>
      obtain ⟨hanswer, hstate⟩ := h.program s hobserved
      rw [LogSplit.handOver, runner.run_bind, runner.run_bind, hanswer]
      rcases hs : sink s st with ⟨e | ⟨⟩, st₁⟩
      · rw [hs] at hstate
        exact ⟨_, _, st₁, _, .refused [] rfl (by simp) (.nil st) hs, runner.run_pure _ _, hstate⟩
      · rw [hs] at hstate
        obtain ⟨outcome, x', st', told, hended, hrun, hx'⟩ := ih (summary.add s) _ st₁ _ hstate
        exact ⟨outcome, x', st', _, hended.closed hs, hrun, by rwa [List.append_cons]⟩

/-! ## Where a scan stands -/

/-- The position of the row that was tested. -/
def ScanEvent.testedRow? : ScanEvent → Option Nat
  | .tested position _ _ => some position
  | _ => none

/-- The positions of the rows that were tested, in order. -/
def testedRows (events : List ScanEvent) : List Nat := events.filterMap ScanEvent.testedRow?

/-- The position behind the rows of an open run. -/
def OpenRun.stop (o : OpenRun) : Nat := o.start + o.rows.length

theorem OpenRun.stop_close (o : OpenRun) (index : Nat) : (o.close index).stop = o.stop := by
  simp [Segment.stop, Segment.length, close, stop]

/-- A row that can be tested adds its test to the scan, and the run that it closes, if any. -/
theorem scanFrom_of_test_ok {r : NumberedRow} {passes : Bool} (htest : p.test r = .ok passes)
    (position found : Nat) (run : Option OpenRun) (rest : List NumberedRow) :
    ∃ (closed : Option Segment) (found' : Nat) (run' : Option OpenRun),
      scanFrom p position found run (r :: rest)
        = .tested position passes (passes && !rest.isEmpty) ::
            (closed.toList.map .closed ++ scanFrom p (position + 1) found' run' rest) ∧
      (∀ s ∈ closed, ∃ o ∈ run, s = o.close (found + 1)) ∧
      ∀ o' ∈ run', o' = .single position r ∨ ∃ o ∈ run, o' = o.push r := by
  rw [scanFrom, htest]
  dsimp only
  rcases run with _ | o <;> cases passes && !rest.isEmpty
  · exact ⟨none, _, none, rfl, by simp, by simp⟩
  · exact ⟨none, _, some _, rfl, by simp, by simp⟩
  · exact ⟨some _, _, none, rfl, by simp, by simp⟩
  · exact ⟨none, _, some _, rfl, by simp, by simp⟩

theorem scanFrom_of_test_error {r : NumberedRow} {e : RowError} (htest : p.test r = .error e)
    (position found : Nat) (run : Option OpenRun) (rest : List NumberedRow) :
    scanFrom p position found run (r :: rest) = [.failed e] := by
  rw [scanFrom, htest]

theorem testedRows_append (front back : List ScanEvent) :
    testedRows (front ++ back) = testedRows front ++ testedRows back :=
  List.filterMap_append

theorem testedRows_tested (position : Nat) (passes member : Bool) (events : List ScanEvent) :
    testedRows (.tested position passes member :: events) = position :: testedRows events := rfl

theorem testedRows_map_closed (segments : List Segment) :
    testedRows (segments.map .closed) = [] := by
  simp [testedRows, ScanEvent.testedRow?]

/-- The rows are tested one after the other, up to the first that cannot be. -/
theorem testedRows_scanFrom (rows : List NumberedRow) : ∀ (position found : Nat)
    (run : Option OpenRun), testedRows (scanFrom p position found run rows)
      = List.range' position (rows.takeWhile p.isTestable).length := by
  induction rows with
  | nil => exact fun _ _ _ => rfl
  | cons r rest ih =>
    intro position found run
    cases htest : p.test r with
    | error e =>
      have hun : p.isTestable r = false := by rw [CompiledPredicate.isTestable, htest]
      rw [scanFrom_of_test_error htest, List.takeWhile_cons_of_neg (by simp [hun])]
      rfl
    | ok passes =>
      have htestable : p.isTestable r = true := by rw [CompiledPredicate.isTestable, htest]
      obtain ⟨closed, found', run', hscan, -, -⟩ :=
        scanFrom_of_test_ok htest position found run rest
      rw [hscan, testedRows_tested, testedRows_append, testedRows_map_closed, List.nil_append, ih,
        List.takeWhile_cons_of_pos htestable, List.length_cons, List.range'_succ]

/-- A failure in a scan is that of the first row that cannot be tested. -/
theorem failed_mem_scanFrom_iff {e : RowError} {rows : List NumberedRow} :
    ∀ {position found : Nat} {run : Option OpenRun},
      ScanEvent.failed e ∈ scanFrom p position found run rows ↔
        ∃ r, rows[(rows.takeWhile p.isTestable).length]? = some r ∧ p.test r = .error e := by
  induction rows with
  | nil => simp [scanFrom]
  | cons r rest ih =>
    intro position found run
    cases htest : p.test r with
    | error e' =>
      have hun : p.isTestable r = false := by rw [CompiledPredicate.isTestable, htest]
      rw [scanFrom_of_test_error htest, List.takeWhile_cons_of_neg (by simp [hun])]
      simp [htest, eq_comm]
    | ok passes =>
      have htestable : p.isTestable r = true := by rw [CompiledPredicate.isTestable, htest]
      obtain ⟨closed, found', run', hscan, -, -⟩ :=
        scanFrom_of_test_ok htest position found run rest
      rw [hscan, List.takeWhile_cons_of_pos htestable]
      simp [ih]

/-- Nothing follows a failure. -/
theorem eq_nil_of_failed {e : RowError} {rows : List NumberedRow} :
    ∀ {position found : Nat} {run : Option OpenRun} {front back : List ScanEvent},
      scanFrom p position found run rows = front ++ .failed e :: back → back = [] := by
  induction rows with
  | nil =>
    intro position found run front back h
    rw [scanFrom] at h
    simp at h
  | cons r rest ih =>
    intro position found run front back h
    cases htest : p.test r with
    | error e' =>
      rw [scanFrom_of_test_error htest] at h
      cases front with
      | nil => exact (List.cons.inj h).2.symm
      | cons event front => simp at h
    | ok passes =>
      obtain ⟨closed, found', run', hscan, -, -⟩ :=
        scanFrom_of_test_ok htest position found run rest
      rw [hscan] at h
      cases front with
      | nil => simp at h
      | cons event front =>
        have h := (List.cons.inj h).2
        cases closed with
        | none => exact ih h
        | some s =>
          cases front with
          | nil => simp at h
          | cons event' front => exact ih (List.cons.inj h).2

/-- When a run is closed the row behind it has just been tested. -/
theorem testedRows_of_closed {s : Segment} {rows : List NumberedRow} :
    ∀ {position found : Nat} {run : Option OpenRun} {front back : List ScanEvent},
      (∀ o ∈ run, o.stop = position) →
      scanFrom p position found run rows = front ++ .closed s :: back →
        position ≤ s.stop ∧ testedRows front = List.range' position (s.stop + 1 - position) := by
  induction rows with
  | nil =>
    intro position found run front back _ h
    rw [scanFrom] at h
    simp at h
  | cons r rest ih =>
    intro position found run front back hrun h
    cases htest : p.test r with
    | error e =>
      rw [scanFrom_of_test_error htest] at h
      cases front <;> simp at h
    | ok passes =>
      obtain ⟨closed, found', run', hscan, hclosed, hopen⟩ :=
        scanFrom_of_test_ok htest position found run rest
      rw [hscan] at h
      have hrun' : ∀ o ∈ run', o.stop = position + 1 := by
        intro o ho
        rcases hopen o ho with rfl | ⟨o', ho', rfl⟩
        · rfl
        · rw [← hrun o' ho']
          rfl
      -- the run is closed by a later row
      have hlater : ∀ front' : List ScanEvent,
          scanFrom p (position + 1) found' run' rest = front' ++ .closed s :: back →
            position ≤ s.stop ∧
              position :: testedRows front' = List.range' position (s.stop + 1 - position) := by
        intro front' h'
        obtain ⟨hle, hrows⟩ := ih hrun' h'
        refine ⟨Nat.le_of_succ_le hle, ?_⟩
        rw [hrows, show s.stop + 1 - position = s.stop + 1 - (position + 1) + 1 by omega,
          List.range'_succ]
      cases front with
      | nil => simp at h
      | cons event front =>
        obtain ⟨hevent, htail⟩ := List.cons.inj h
        rw [← hevent, testedRows_tested]
        cases closed with
        | none => exact hlater front htail
        | some s' =>
          cases front with
          | nil =>
            obtain rfl : s' = s := ScanEvent.closed.inj (List.cons.inj htail).1
            obtain ⟨o, ho, rfl⟩ := hclosed s' rfl
            rw [OpenRun.stop_close, hrun o ho, Nat.add_sub_cancel_left]
            exact ⟨Nat.le_refl _, rfl⟩
          | cons event' front =>
            obtain ⟨hevent', htail'⟩ := List.cons.inj htail
            rw [← hevent']
            exact hlater front htail'

/-! ## Errors name their row -/

/-- The line that an error names. -/
def RowError.line : RowError → Nat
  | .missingCell line _ => line
  | .notNumeric line _ _ => line

theorem BoundCondition.line_of_holds_eq_error {b : BoundCondition} {r : NumberedRow} {e : RowError}
    (h : b.holds r = .error e) : e.line = r.line := by
  rw [holds, value] at h
  split at h
  · cases h
    rfl
  · split at h <;> cases h
    rfl

theorem CompiledPredicate.line_of_testFrom_eq_error {r : NumberedRow} {e : RowError}
    {conditions : List BoundCondition} : ∀ {sofar : Bool},
      testFrom r sofar conditions = .error e → e.line = r.line := by
  induction conditions with
  | nil =>
    intro sofar h
    cases h
  | cons b rest ih =>
    intro sofar h
    rw [testFrom] at h
    cases hholds : b.holds r with
    | error e' =>
      rw [hholds] at h
      cases h
      exact b.line_of_holds_eq_error hholds
    | ok holds =>
      rw [hholds] at h
      exact ih h

/-- **The error of a row names the line of the row.** -/
theorem CompiledPredicate.line_of_test_eq_error {r : NumberedRow} {e : RowError}
    (h : p.test r = .error e) : e.line = r.line :=
  line_of_testFrom_eq_error h

/-! ## The first row that cannot be tested -/

theorem failed_mem_scan_iff {e : RowError} :
    ScanEvent.failed e ∈ scan p t ↔
      ∃ r, t.body[firstFailure p t]? = some r ∧ p.test r = .error e := by
  rw [scan, failed_mem_scanFrom_iff, length_takeWhile_isTestable]

theorem testedRows_scan (p : CompiledPredicate) (t : Table) :
    testedRows (scan p t) = List.range (firstFailure p t) := by
  rw [scan, testedRows_scanFrom, length_takeWhile_isTestable, List.range_eq_range']

/-- If there is such a row the scan fails. -/
theorem exists_failed_mem_scan (h : firstFailure p t < t.body.length) :
    ∃ e, ScanEvent.failed e ∈ scan p t := by
  have hun : (!p.isTestable t.body[firstFailure p t]) = true := List.findIdx_getElem (w := h)
  cases htest : p.test t.body[firstFailure p t] with
  | ok passes =>
    rw [CompiledPredicate.isTestable, htest] at hun
    cases hun
  | error e => exact ⟨e, failed_mem_scan_iff.2 ⟨_, List.getElem?_eq_getElem h, htest⟩⟩

theorem failed_not_mem_scan_iff :
    (∀ e, ScanEvent.failed e ∉ scan p t) ↔ ∀ r ∈ t.body, p.isTestable r = true := by
  refine ⟨fun hok r hr => ?_, fun hrows e => failed_not_mem_scanFrom t.body hrows e 0 0 none⟩
  by_contra hun
  obtain ⟨e, he⟩ := exists_failed_mem_scan (List.findIdx_lt_length.2 ⟨r, hr, by simpa using hun⟩)
  exact hok e he

/-- If there is none, the scan closes the maximal runs. -/
theorem maximalRuns_scan (h : ∀ e, ScanEvent.failed e ∉ scan p t) :
    MaximalRuns p t (closedSegments (scan p t)) := by
  have hend : firstFailure p t = t.body.length := by
    refine Nat.le_antisymm List.findIdx_le_length (Nat.le_of_not_lt fun hlt => ?_)
    obtain ⟨e, he⟩ := exists_failed_mem_scan hlt
    exact h e he
  obtain ⟨run, hprogress⟩ := progress_scan p t
  rw [length_takeWhile_isTestable, hend] at hprogress
  exact hprogress.maximalRuns

/-! ## The lines of a run -/

/-- A run has a first and a last row, and their lines are those that the table has for the ends of
the run. -/
theorem IsRun.lines {s : Segment} (h : IsRun p t s) :
    ∃ first last, s.rows.head? = some first ∧ s.rows.getLast? = some last ∧
      t.lineNumber s.start = first.line ∧
      t.lineNumber (s.start + s.length - 1) = last.line := by
  have hpos : 0 < s.rows.length := h.length_pos
  have hfirst : s.rows[0]? = some s.rows[0] := List.getElem?_eq_getElem hpos
  have hlast : s.rows[s.rows.length - 1]? = some (s.rows[s.rows.length - 1]) :=
    List.getElem?_eq_getElem (by omega)
  refine ⟨s.rows[0], s.rows[s.rows.length - 1], ?_, ?_, ?_, ?_⟩
  · rw [List.head?_eq_getElem?, hfirst]
  · rw [List.getLast?_eq_getElem?, hlast]
  · rw [h.getElem?_rows hpos] at hfirst
    exact t.lineNumber_of_getElem? hfirst
  · rw [h.getElem?_rows (by rw [Segment.length]; omega)] at hlast
    rw [Segment.length, Nat.add_sub_assoc hpos]
    exact t.lineNumber_of_getElem? hlast

/-! ## The end of a scan -/

/-- What a scan has handed over when it ends, and why it ends.  It began with a sink in state `st`;
when the sink had accepted the last segment it accepts it was in state `st₁`, and at the end it is
in state `st₂`. -/
structure EndOfScan (sink : Segment → StateM σ (Except SplitError Unit)) (st : σ)
    (p : CompiledPredicate) (t : Table) (finished accepted : List Segment) (st₁ : σ)
    (outcome : Except SplitError ScanSummary) (st₂ : σ) (told : List ScanEvent) : Prop where
  /-- The runs are those that are over before the first row that cannot be tested. -/
  finishedRuns : FinishedRuns p t (firstFailure p t) finished
  /-- The accepted segments are the first of them. -/
  accepted_prefix : accepted <+: finished
  /-- The sink has accepted them one after the other. -/
  accepts : Accepts sink st accepted st₁
  /-- If there is one more, it has been refused, and no row behind its own has been tested. -/
  refused : accepted.length < finished.length →
    ∃ s e, accepted ++ [s] <+: finished ∧ sink s st₁ = (.error e, st₂) ∧
      outcome = .error e ∧ testedRows told = List.range (s.stop + 1)
  /-- If there is none, nothing else has been handed over, and every row has been tested that comes
  before the first that cannot be. -/
  notRefused : accepted.length = finished.length →
    st₂ = st₁ ∧ testedRows told = List.range (firstFailure p t)
  /-- In this case the row that cannot be tested is the reason for the end, if there is such a
  row. -/
  failed : accepted.length = finished.length → firstFailure p t < t.body.length →
    ∃ r e, t.body[firstFailure p t]? = some r ∧ p.test r = .error e ∧
      e.line = t.lineNumber (firstFailure p t) ∧ outcome = .error (.row e)
  /-- If there is no such row either, the scan succeeds. -/
  completed : accepted.length = finished.length → firstFailure p t = t.body.length →
    outcome = .ok { rows := t.body.length
                    matchedRows := (finished.map Segment.length).sum
                    segments := finished.length }

/-- **A scan hands over the finished runs**, as many as the sink accepts and then one more.  If the
sink refuses one, its refusal is the outcome, and else it is the error of the first row that cannot
be tested. -/
theorem HandedOver.endOfScan {outcome : Except SplitError ScanSummary} {st₂ : σ}
    {told : List ScanEvent}
    (h : HandedOver sink st (.start t.body.length) (scan p t) outcome st₂ told) :
    ∃ finished accepted st₁, EndOfScan sink st p t finished accepted st₁ outcome st₂ told := by
  have hfinished := finishedRuns_scan p t
  cases h with
  | @refused front back s st₁ _ e hevents hok hfront hs =>
    have hclosed : closedSegments (scan p t)
        = closedSegments front ++ s :: closedSegments back := by
      rw [hevents, closedSegments_append hok, closedSegments_closed]
    have hmore : (closedSegments front).length < (closedSegments (scan p t)).length := by
      rw [hclosed, List.length_append, List.length_cons]
      omega
    have htested : testedRows (front ++ [.closed s]) = List.range (s.stop + 1) := by
      obtain ⟨-, hfrom⟩ := testedRows_of_closed (p := p) (by simp) hevents
      rw [testedRows_append, hfrom, List.range_eq_range']
      exact List.append_nil _
    exact ⟨_, closedSegments front, st₁,
      { finishedRuns := hfinished
        accepted_prefix := ⟨s :: closedSegments back, hclosed.symm⟩
        accepts := hfront
        refused := fun _ => ⟨s, e, ⟨closedSegments back, by rw [hclosed, List.append_assoc]; rfl⟩,
          hs, rfl, htested⟩
        notRefused := fun heq => absurd heq hmore.ne
        failed := fun heq => absurd heq hmore.ne
        completed := fun heq => absurd heq hmore.ne }⟩
  | @failed front back e _ hevents hok hfront =>
    have hback : back = [] := eq_nil_of_failed hevents
    subst hback
    have hclosed : closedSegments (scan p t) = closedSegments front := by
      rw [hevents, closedSegments_append hok, closedSegments_failed, List.append_nil]
    obtain ⟨r, hr, htest⟩ := failed_mem_scan_iff.1
      (show ScanEvent.failed e ∈ scan p t by rw [hevents]; simp)
    rw [← hevents]
    refine ⟨_, _, st₂,
      { finishedRuns := hfinished
        accepted_prefix := List.prefix_refl _
        accepts := by rw [hclosed]; exact hfront
        refused := fun hlt => absurd hlt (Nat.lt_irrefl _)
        notRefused := fun _ => ⟨rfl, testedRows_scan p t⟩
        failed := fun _ _ => ⟨r, e, hr, htest, ?_, rfl⟩
        completed := fun _ hend => ?_ }⟩
    · rw [t.lineNumber_of_getElem? hr, CompiledPredicate.line_of_test_eq_error htest]
    · rw [hend, List.getElem?_eq_none (Nat.le_refl _)] at hr
      cases hr
  | completed hok hall =>
    refine ⟨_, _, st₂,
      { finishedRuns := hfinished
        accepted_prefix := List.prefix_refl _
        accepts := hall
        refused := fun hlt => absurd hlt (Nat.lt_irrefl _)
        notRefused := fun _ => ⟨rfl, testedRows_scan p t⟩
        failed := fun _ hlt => ?_
        completed := fun _ _ => ?_ }⟩
    · obtain ⟨e, he⟩ := exists_failed_mem_scan hlt
      exact absurd he (hok e)
    · rw [foldl_add]
      simp [ScanSummary.start]

end LogSplit
