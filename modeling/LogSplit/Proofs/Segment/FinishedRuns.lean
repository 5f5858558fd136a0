import LogSplit.Proofs.Segment.Progress
import Mathlib.Data.List.TakeWhile

/-!
# The runs a scan finishes

A scan comes to an end at the first row that cannot be tested.  The runs it has closed by then are
the *finished* ones: the maximal runs of members whose row behind is tested too
(`finishedRuns_scan`).  A run that is still open at the row that cannot be tested is not among
them, since the row behind it is not known.
-/

set_option autoImplicit false

namespace LogSplit

variable {p : CompiledPredicate} {t : Table}

/-- The position of the first row that cannot be tested, or the number of rows. -/
def firstFailure (p : CompiledPredicate) (t : Table) : Nat :=
  t.body.findIdx fun r => !p.isTestable r

/-- The runs of members that are over before row `k`, numbered from one. -/
structure FinishedRuns (p : CompiledPredicate) (t : Table) (k : Nat) (runs : List Segment) :
    Prop where
  /-- They are numbered from one. -/
  index_eq : ∀ i s, runs[i]? = some s → s.index = i + 1
  /-- Each is a run of members that no member borders on. -/
  isRun : ∀ s ∈ runs, IsRun p t s
  /-- The row behind each, which is no member, comes before row `k`. -/
  stop_lt : ∀ s ∈ runs, s.stop < k
  /-- They lie one behind the other. -/
  ordered : runs.Pairwise fun a b => a.stop < b.start
  /-- No such run is left out. -/
  complete : ∀ s, IsRun p t s → s.stop < k → ∃ s' ∈ runs, s'.start = s.start ∧ s'.rows = s.rows

/-- Segments that are numbered from one have different numbers. -/
theorem nodup_index {segments : List Segment}
    (h : ∀ i s, segments[i]? = some s → s.index = i + 1) : (segments.map Segment.index).Nodup := by
  have hrange : segments.map Segment.index = List.range' 1 segments.length := by
    refine List.ext_getElem? fun i => ?_
    rw [List.getElem?_map]
    cases hs : segments[i]? with
    | none => rw [List.getElem?_eq_none (by simpa using hs)]; rfl
    | some s =>
      have hlt : i < segments.length := (List.getElem?_eq_some_iff.1 hs).1
      rw [List.getElem?_range' hlt, Option.map_some, h i s hs, Nat.add_comm, Nat.one_mul]
  rw [hrange]
  exact List.nodup_range'

/-- The row of a run at a position is a row of the table. -/
theorem IsRun.getElem?_rows {s : Segment} (h : IsRun p t s) {i : Nat} (hi : i < s.length) :
    s.rows[i]? = t.body[s.start + i]? := by
  have hlt : i < s.stop - s.start := by rw [Segment.stop]; omega
  rw [h.rows_eq, Table.slice, List.getElem?_take_of_lt hlt, List.getElem?_drop]

theorem length_takeWhile_isTestable (p : CompiledPredicate) (t : Table) :
    (t.body.takeWhile p.isTestable).length = firstFailure p t := by
  rw [List.takeWhile_eq_take_findIdx_not, List.length_take, firstFailure]
  exact Nat.min_eq_left List.findIdx_le_length

/-- Of two runs that share a position neither begins before the other. -/
theorem IsRun.start_le {s s' : Segment} (h : IsRun p t s) (h' : IsRun p t s') {i : Nat}
    (hi : s.Covers i) (hi' : s'.Covers i) : s'.start ≤ s.start := by
  by_contra hlt
  obtain ⟨hle, hstop⟩ := hi
  obtain ⟨hle', -⟩ := hi'
  exact h'.before (s'.start - 1) (by omega) (h.isMember (s'.start - 1) (by omega) (by omega))

/-- Nor does it end behind it. -/
theorem IsRun.stop_le {s s' : Segment} (h : IsRun p t s) (h' : IsRun p t s') {i : Nat}
    (hi : s.Covers i) (hi' : s'.Covers i) : s.stop ≤ s'.stop := by
  by_contra hlt
  obtain ⟨hle, -⟩ := hi
  obtain ⟨-, hstop'⟩ := hi'
  exact h'.behind (h.isMember s'.stop (by omega) (by omega))

/-- **Maximal runs that share a position are the same**, whatever their numbers. -/
theorem IsRun.eq_of_covers {s s' : Segment} (h : IsRun p t s) (h' : IsRun p t s') {i : Nat}
    (hi : s.Covers i) (hi' : s'.Covers i) : s'.start = s.start ∧ s'.rows = s.rows := by
  have hstart : s'.start = s.start :=
    Nat.le_antisymm (h.start_le h' hi hi') (h'.start_le h hi' hi)
  have hstop : s'.stop = s.stop := Nat.le_antisymm (h'.stop_le h hi' hi) (h.stop_le h' hi hi')
  exact ⟨hstart, by rw [h'.rows_eq, h.rows_eq, hstart, hstop]⟩

/-- What a scan has closed when it comes to row `k` are the runs that are over by then. -/
theorem Progress.finishedRuns {k : Nat} {closed : List Segment} {run : Option OpenRun}
    (h : Progress p t k closed run) : FinishedRuns p t k closed where
  index_eq := h.index_eq
  isRun := h.isRun
  stop_lt := h.stop_lt
  ordered := h.ordered
  complete s hs hstop := by
    have hmember : IsMember p t s.start := hs.isMember s.start (Nat.le_refl _) hs.start_lt
    have hlt : s.start < k := Nat.lt_trans hs.start_lt hstop
    rcases h.covered s.start hlt hmember with ⟨s', hs', hcovers⟩ | ⟨o, ho, hle⟩
    · exact ⟨s', hs', hs.eq_of_covers (h.isRun s' hs') ⟨Nat.le_refl _, hs.start_lt⟩ hcovers⟩
    · -- the row behind the run would belong to the open one
      have hopen : o.start ≤ s.stop := Nat.le_trans hle (Nat.le_of_lt hs.start_lt)
      exact absurd (h.open_isMember o ho s.stop hopen hstop) hs.behind

/-- **The segments that a scan closes are the finished runs.** -/
theorem finishedRuns_scan (p : CompiledPredicate) (t : Table) :
    FinishedRuns p t (firstFailure p t) (closedSegments (scan p t)) := by
  obtain ⟨run, h⟩ := progress_scan p t
  rw [length_takeWhile_isTestable] at h
  exact h.finishedRuns

end LogSplit
