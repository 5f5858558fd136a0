import LogSplit.Proofs.Segment.HandedOver
import Mathlib.Data.ENat.Lattice

/-!
# Scans that fail

`segmentTable_of_acceptsUpTo` is about a sink that accepts a certain number of segments, or any
number, before it refuses one.  It says which segments such a sink has been handed when the scan
ends, and which of two failures is the outcome: the refusal comes first if there is a finished run
that the sink does not take, since the row that cannot be tested lies behind all of them.

The events of the scan are noted beside the state of the sink, so that the rows that were tested
can be read off.
-/

set_option autoImplicit false

namespace LogSplit

variable {σ : Type} {p : CompiledPredicate} {t : Table}

/-! ## Sinks that take a number of segments -/

/-- Of some segments that it is offered one after the other a sink accepts as many as `limit` says,
and refuses the next. -/
structure AcceptsUpTo (sink : Segment → StateM σ (Except SplitError Unit)) (st : σ)
    (offered : List Segment) (limit : ℕ∞) : Prop where
  /-- Below the limit it accepts another one. -/
  accepts : ∀ {front : List Segment} {s : Segment} {st' : σ}, front ++ [s] <+: offered →
    Accepts sink st front st' → (front.length : ℕ∞) < limit → ∃ st'', sink s st' = (.ok (), st'')
  /-- At the limit it fails. -/
  refuses : ∀ {front : List Segment} {s : Segment} {st' : σ}, front ++ [s] <+: offered →
    Accepts sink st front st' → (front.length : ℕ∞) = limit →
      ∃ e st'', sink s st' = (.error e, st'')

variable {sink : Segment → StateM σ (Except SplitError Unit)} {st st' : σ} {limit : ℕ∞}
  {offered : List Segment}

/-- A sink has not accepted more segments than its limit. -/
theorem AcceptsUpTo.length_le (h : AcceptsUpTo sink st offered limit) {segments : List Segment}
    (hoffered : segments <+: offered) (hsegments : Accepts sink st segments st') :
    (segments.length : ℕ∞) ≤ limit := by
  refine not_lt.1 fun hlt => ?_
  obtain ⟨m, rfl⟩ := ENat.ne_top_iff_exists.1 (ne_top_of_lt hlt)
  have hm : m < segments.length := by exact_mod_cast hlt
  -- the segment behind the first `m` would have been refused
  obtain ⟨s, rest, hsplit⟩ := List.exists_cons_of_ne_nil
    (show segments.drop m ≠ [] by rw [Ne, List.drop_eq_nil_iff]; omega)
  have hsegment : segments = segments.take m ++ s :: rest := by
    rw [← hsplit, List.take_append_drop]
  have hfirst : segments.take m ++ [s] <+: segments := ⟨rest, by
    rw [List.append_assoc, List.singleton_append, ← hsegment]⟩
  rw [hsegment] at hsegments
  obtain ⟨st₁, hfront, hback⟩ := hsegments.append_inv
  obtain ⟨e, st₂, hrefused⟩ := h.refuses (hfirst.trans hoffered) hfront
    (by rw [List.length_take, Nat.min_eq_left (Nat.le_of_lt hm)])
  cases hback with
  | cons hs _ =>
    rw [hrefused] at hs
    cases hs

/-- If a sink refuses a segment it has accepted as many as its limit. -/
theorem AcceptsUpTo.length_eq (h : AcceptsUpTo sink st offered limit) {segments : List Segment}
    {s : Segment} (hoffered : segments ++ [s] <+: offered)
    (hsegments : Accepts sink st segments st') {e : SplitError} {st'' : σ}
    (hs : sink s st' = (.error e, st'')) : (segments.length : ℕ∞) = limit := by
  have hle := h.length_le ((List.prefix_append _ _).trans hoffered) hsegments
  refine hle.eq_or_lt.resolve_right fun hlt => ?_
  obtain ⟨st₁, hok⟩ := h.accepts hoffered hsegments hlt
  rw [hs] at hok
  cases hok

/-- Of the segments it is offered a sink has accepted as many as its limit, unless there are
fewer. -/
theorem EndOfScan.length_accepted {finished accepted : List Segment} {st₁ st₂ : σ}
    {outcome : Except SplitError ScanSummary} {told : List ScanEvent}
    (h : EndOfScan sink st p t finished accepted st₁ outcome st₂ told)
    (hsink : AcceptsUpTo sink st finished limit) :
    (accepted.length : ℕ∞) = min limit finished.length := by
  rcases Nat.lt_or_eq_of_le h.accepted_prefix.length_le with hlt | heq
  · obtain ⟨s, e, hoffered, hs, -, -⟩ := h.refused hlt
    have hlimit := hsink.length_eq hoffered h.accepts hs
    rw [hlimit, min_eq_left]
    rw [← hlimit]
    exact_mod_cast hlt.le
  · have hle := hsink.length_le h.accepted_prefix h.accepts
    rw [heq] at hle ⊢
    rw [min_eq_right hle]

/-! ## Notes on a scan -/

/-- Takes note of an event beside the state of a sink. -/
def noteEvent (event : ScanEvent) : StateM (σ × List ScanEvent) Unit :=
  fun (st, notes) => ((), (st, notes ++ [event]))

/-- A sink beside notes that it does not look at. -/
def besideNotes (sink : Segment → StateM σ (Except SplitError Unit)) (s : Segment) :
    StateM (σ × List ScanEvent) (Except SplitError Unit) :=
  fun (st, notes) => ((sink s st).1, ((sink s st).2, notes))

/-- Programs on a state are run by applying them to it. -/
def Runner.state (τ : Type) : Runner (StateM τ) τ where
  run c x := c x
  run_pure _ _ := rfl
  run_bind _ _ _ := rfl

theorem carries_besideNotes (sink : Segment → StateM σ (Except SplitError Unit)) :
    Carries (Runner.state (σ × List ScanEvent)) noteEvent (besideNotes sink) sink
      fun x st told => x = (st, told) where
  observe {_ _ _} event h := by
    rw [h]
    rfl
  program {_ _ _} s h := by
    rw [h]
    exact ⟨rfl, rfl⟩

/-- What a scan of a table leaves in the notes is what has been told about. -/
theorem segmentTable_notes (sink : Segment → StateM σ (Except SplitError Unit)) (st : σ)
    (p : CompiledPredicate) (t : Table) :
    ∃ outcome st₂ told,
      segmentTable noteEvent (besideNotes sink) p t (st, []) = (outcome, (st₂, told)) ∧
        HandedOver sink st (.start t.body.length) (scan p t) outcome st₂ told := by
  obtain ⟨outcome, x, st₂, told, hended, hrun, rfl⟩ := (carries_besideNotes sink).handOver
    (scan p t) (.start t.body.length) (st, []) st [] rfl
  exact ⟨outcome, st₂, told, hrun, hended⟩

/-- **The notes tell what the sink has taken.**  It has accepted the segments in them one after the
other, or all but the last one, and its refusal of that one is the outcome. -/
theorem accepts_of_notes {outcome : Except SplitError ScanSummary} {st₂ : σ}
    {told : List ScanEvent}
    (hrun : segmentTable noteEvent (besideNotes sink) p t (st, []) = (outcome, (st₂, told))) :
    Accepts sink st (closedSegments told) st₂ ∨
      ∃ accepted s st₁ e, closedSegments told = accepted ++ [s] ∧ Accepts sink st accepted st₁ ∧
        sink s st₁ = (.error e, st₂) ∧ outcome = .error e := by
  obtain ⟨outcome₁, st₁, told₁, hrun₁, hended⟩ := segmentTable_notes sink st p t
  obtain ⟨rfl, hstates⟩ := Prod.mk.inj (hrun.symm.trans hrun₁)
  obtain ⟨rfl, rfl⟩ := Prod.mk.inj hstates
  cases hended with
  | @refused front back s st₁ _ e hevents hok hfront hs =>
    refine .inr ⟨closedSegments front, s, st₁, e, ?_, hfront, hs, rfl⟩
    rw [closedSegments_append hok, closedSegments_closed]
    rfl
  | failed front hevents hok hfront =>
    refine .inl ?_
    rwa [closedSegments_append hok, closedSegments_failed, List.append_nil]
  | completed hok hall => exact .inl hall

/-- A sink that never fails has accepted them all. -/
theorem accepts_of_notes_of_neverFails (hsink : ∀ s, NeverFails (sink s))
    {outcome : Except SplitError ScanSummary} {st₂ : σ} {told : List ScanEvent}
    (hrun : segmentTable noteEvent (besideNotes sink) p t (st, []) = (outcome, (st₂, told))) :
    Accepts sink st (closedSegments told) st₂ := by
  refine (accepts_of_notes hrun).resolve_right ?_
  rintro ⟨_, s, st₁, _, -, -, hs, -⟩
  obtain ⟨_, htaken⟩ := (hsink s).exists_eq st₁
  cases hs.symm.trans htaken

/-- What a scan without failure gives a sink that never fails. -/
theorem segmentTable_of_neverFails (hsink : ∀ s, NeverFails (sink s)) (st : σ)
    (hok : ∀ e, ScanEvent.failed e ∉ scan p t) :
    ∃ st₂, segmentTable noteEvent (besideNotes sink) p t (st, [])
      = (.ok ⟨t.body.length, ((closedSegments (scan p t)).map Segment.length).sum,
          (closedSegments (scan p t)).length⟩, (st₂, scan p t)) := by
  obtain ⟨outcome, st₂, told, hrun, hended⟩ := segmentTable_notes sink st p t
  obtain ⟨e, he, -⟩ | ⟨-, rfl, rfl⟩ := hended.of_neverFails hsink
  · exact absurd he (hok e)
  · refine ⟨st₂, hrun.trans ?_⟩
    rw [foldl_add]
    simp [ScanSummary.start]

/-- It does not succeed otherwise. -/
theorem failed_not_mem_scan_of_ok (hsink : ∀ s, NeverFails (sink s)) {st₂ : σ}
    {summary : ScanSummary} {told : List ScanEvent}
    (hrun : segmentTable noteEvent (besideNotes sink) p t (st, []) = (.ok summary, (st₂, told))) :
    ∀ e, ScanEvent.failed e ∉ scan p t := by
  obtain ⟨outcome, st₁, told₁, hrun₁, hended⟩ := segmentTable_notes sink st p t
  obtain ⟨e, -, rfl⟩ | ⟨hok, -, -⟩ := hended.of_neverFails hsink
  · cases hrun.symm.trans hrun₁
  · exact hok

/-! ## The scan -/

/-- **A scan hands over the finished runs up to the limit of its sink.**  If there are more of them
than the sink accepts, the next one is handed over too, and its refusal is the outcome.  If there
are not, the outcome is the error of the first row that cannot be tested, if there is one. -/
theorem segmentTable_of_acceptsUpTo (sink : Segment → StateM σ (Except SplitError Unit)) (st : σ)
    (limit : ℕ∞) (p : CompiledPredicate) (t : Table)
    (hsink : ∀ finished, FinishedRuns p t (firstFailure p t) finished →
      AcceptsUpTo sink st finished limit) :
    ∃ finished accepted st₁ outcome st₂ told,
      segmentTable noteEvent (besideNotes sink) p t (st, []) = (outcome, (st₂, told)) ∧
        (accepted.length : ℕ∞) = min limit finished.length ∧
        EndOfScan sink st p t finished accepted st₁ outcome st₂ told := by
  obtain ⟨outcome, x, st₂, told, hended, hrun, rfl⟩ := (carries_besideNotes sink).handOver
    (scan p t) (.start t.body.length) (st, []) st [] rfl
  obtain ⟨finished, accepted, st₁, hend⟩ := hended.endOfScan
  exact ⟨finished, accepted, st₁, outcome, st₂, told, hrun,
    hend.length_accepted (hsink finished hend.finishedRuns), hend⟩

/-- A sink that keeps a number of segments and then has no room for more. -/
def keepUpTo (room : Nat) (s : Segment) : StateM (List Segment) (Except SplitError Unit) :=
  fun kept =>
    if kept.length < room then (.ok (), kept ++ [s]) else (.error (.config "no room"), kept)

theorem length_of_accepts_keepUpTo {room : Nat} {kept kept' segments : List Segment}
    (h : Accepts (keepUpTo room) kept segments kept') :
    kept'.length = kept.length + segments.length := by
  induction h with
  | nil => rfl
  | cons hs _ ih =>
    rw [keepUpTo] at hs
    split at hs
    · obtain rfl := (Prod.mk.inj hs).2
      rw [ih, List.length_append, List.length_cons, List.length_nil, List.length_cons]
      omega
    · cases hs

theorem acceptsUpTo_keepUpTo (room : Nat) (offered : List Segment) :
    AcceptsUpTo (keepUpTo room) [] offered room where
  accepts {_ s kept} _ h hlt := by
    have hroom : kept.length < room := by
      rw [length_of_accepts_keepUpTo h, List.length_nil, Nat.zero_add]
      exact_mod_cast hlt
    exact ⟨kept ++ [s], by rw [keepUpTo, if_pos hroom]⟩
  refuses {_ _ kept} _ h heq := by
    have hroom : ¬ kept.length < room := by
      rw [length_of_accepts_keepUpTo h, List.length_nil, Nat.zero_add]
      exact Nat.not_lt.2 (Nat.le_of_eq (by exact_mod_cast heq.symm))
    exact ⟨_, kept, by rw [keepUpTo, if_neg hroom]⟩

/-- A column `v` with two finished runs of ones, and one that is still open at a row that is no
number. -/
def interrupted : Table :=
  .ofRows ⟨["v"]⟩ [⟨["1"]⟩, ⟨["0"]⟩, ⟨["1"]⟩, ⟨["1"]⟩, ⟨["0"]⟩, ⟨["1"]⟩, ⟨["x"]⟩, ⟨["0"]⟩]

/-- A sink with room for one segment refuses the second one. -/
theorem segmentTable_interrupted :
    (∀ finished, FinishedRuns isOne interrupted (firstFailure isOne interrupted) finished →
        AcceptsUpTo (keepUpTo 1) [] finished (1 : Nat)) ∧
      firstFailure isOne interrupted = 6 ∧
      ∃ finished accepted st₁ outcome st₂ told,
        segmentTable noteEvent (besideNotes (keepUpTo 1)) isOne interrupted ([], [])
            = (outcome, (st₂, told)) ∧
          (accepted.length : ℕ∞) = min (1 : Nat) finished.length ∧
          EndOfScan (keepUpTo 1) [] isOne interrupted finished accepted st₁ outcome st₂ told ∧
          outcome = .error (.config "no room") ∧ testedRows told = [0, 1, 2, 3, 4] := by
  have hsink : ∀ finished, FinishedRuns isOne interrupted (firstFailure isOne interrupted) finished →
      AcceptsUpTo (keepUpTo 1) [] finished (1 : Nat) :=
    fun finished _ => acceptsUpTo_keepUpTo 1 finished
  obtain ⟨finished, accepted, st₁, outcome, st₂, told, hrun, hlength, hend⟩ :=
    segmentTable_of_acceptsUpTo (keepUpTo 1) [] (1 : Nat) isOne interrupted hsink
  have hevaluated : (segmentTable noteEvent (besideNotes (keepUpTo 1)) isOne interrupted
      ([], [])).1 = .error (.config "no room") ∧
    testedRows (segmentTable noteEvent (besideNotes (keepUpTo 1)) isOne interrupted
      ([], [])).2.2 = [0, 1, 2, 3, 4] := by
    decide +kernel
  rw [hrun] at hevaluated
  exact ⟨hsink, by decide +kernel, finished, accepted, st₁, outcome, st₂, told, hrun, hlength, hend,
    hevaluated⟩

end LogSplit
