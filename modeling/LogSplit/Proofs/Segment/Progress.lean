import LogSplit.Segment
import Mathlib.Algebra.GroupWithZero.Nat

/-!
# How far a scan has come

A scan walks over the rows of a table once and keeps two things: the runs it has closed and the
run that is still open.  `Progress p t n closed run` says what these two are after the first `n`
rows, without a word about how they were found:

* every closed run is a run of members that no member borders on (`IsRun`), and it ends before
  row `n`;
* the closed runs are numbered from one and lie one behind the other;
* the open run consists of all rows from its start up to row `n`, and there is one exactly when
  row `n - 1` is a member;
* no member among the first `n` rows is left out, and none is counted twice.

`Progress.step` carries this over one row, and `Progress.scanFrom` over all rows up to the first
that cannot be tested.
-/

set_option autoImplicit false

namespace LogSplit

/-! ## Members and runs -/

/-- A row passes.  A row that cannot be tested does not. -/
def CompiledPredicate.passes (p : CompiledPredicate) (r : NumberedRow) : Bool :=
  match p.test r with
  | .ok passes => passes
  | .error _ => false

/-- A row can be tested. -/
def CompiledPredicate.isTestable (p : CompiledPredicate) (r : NumberedRow) : Bool :=
  match p.test r with
  | .ok _ => true
  | .error _ => false

theorem CompiledPredicate.isTestable_iff {p : CompiledPredicate} {r : NumberedRow} :
    p.isTestable r = true ↔ ∃ passes, p.test r = .ok passes := by
  unfold isTestable
  cases p.test r <;> simp

/-- The row at a position passes and is not the last one of the table. -/
def IsMember (p : CompiledPredicate) (t : Table) (i : Nat) : Prop :=
  i + 1 < t.body.length ∧ ∃ r, t.body[i]? = some r ∧ p.passes r = true

/-- The rows of a table from one position up to another. -/
def Table.slice (t : Table) (start stop : Nat) : List NumberedRow :=
  (t.body.drop start).take (stop - start)

/-- A segment is a run of members, as long as can be. -/
structure IsRun (p : CompiledPredicate) (t : Table) (s : Segment) : Prop where
  /-- It has a row. -/
  start_lt : s.start < s.stop
  /-- Its rows are those of the table between its ends. -/
  rows_eq : s.rows = t.slice s.start s.stop
  /-- Each of them is a member. -/
  isMember : ∀ i, s.start ≤ i → i < s.stop → IsMember p t i
  /-- The row before it, if there is one, is none. -/
  before : ∀ i, i + 1 = s.start → ¬ IsMember p t i
  /-- The row behind it is none. -/
  behind : ¬ IsMember p t s.stop

theorem IsRun.length_pos {p : CompiledPredicate} {t : Table} {s : Segment} (h : IsRun p t s) :
    0 < s.length := by
  have hlt := h.start_lt
  rw [Segment.stop] at hlt
  omega

/-- A position lies in a segment. -/
def Segment.Covers (s : Segment) (i : Nat) : Prop := s.start ≤ i ∧ i < s.stop

theorem not_isMember_last (p : CompiledPredicate) (t : Table) {i : Nat}
    (h : t.body.length ≤ i + 1) : ¬ IsMember p t i :=
  fun hm => absurd hm.1 (Nat.not_lt.2 h)

theorem Table.slice_succ (t : Table) {start n : Nat} {r : NumberedRow} (h : start ≤ n)
    (hr : t.body[n]? = some r) : t.slice start (n + 1) = t.slice start n ++ [r] := by
  have hget : (t.body.drop start)[n - start]? = some r := by
    rw [List.getElem?_drop, Nat.add_sub_cancel' h, hr]
  rw [slice, slice, Nat.sub_add_comm h, List.take_add_one, hget]
  rfl

theorem Table.length_slice (t : Table) {start stop : Nat} (h : stop ≤ t.body.length) :
    (t.slice start stop).length = stop - start := by
  rw [slice, List.length_take, List.length_drop]
  omega

/-- The number of members among the first `n` rows. -/
def memberCount (p : CompiledPredicate) (t : Table) (n : Nat) : Nat :=
  (t.body.dropLast.take n).countP p.passes

theorem memberCount_succ_of_isMember {p : CompiledPredicate} {t : Table} {n : Nat}
    (h : IsMember p t n) : memberCount p t (n + 1) = memberCount p t n + 1 := by
  obtain ⟨hlt, r, hr, hpass⟩ := h
  have hget : t.body.dropLast[n]? = some r := by
    rw [List.getElem?_dropLast, if_pos (by omega), hr]
  rw [memberCount, List.take_add_one, hget, List.countP_append, Option.toList_some,
    List.countP_singleton, if_pos hpass, memberCount]

theorem memberCount_succ_of_not_isMember {p : CompiledPredicate} {t : Table} {n : Nat}
    (h : ¬ IsMember p t n) : memberCount p t (n + 1) = memberCount p t n := by
  rw [memberCount, List.take_add_one, List.countP_append, memberCount, Nat.add_eq_left,
    List.countP_eq_zero]
  intro r hr hpass
  rw [Option.mem_toList, List.getElem?_dropLast] at hr
  split at hr
  · exact h ⟨by omega, r, hr, hpass⟩
  · exact absurd hr (by simp)

/-! ## The invariant -/

/-- The number of rows in a run that may be open. -/
def openLength : Option OpenRun → Nat
  | none => 0
  | some o => o.rows.length

/-- What a scan that has come to the row at position `n` has closed, and what is open. -/
structure Progress (p : CompiledPredicate) (t : Table) (n : Nat) (closed : List Segment)
    (run : Option OpenRun) : Prop where
  /-- It has not left the table. -/
  le_length : n ≤ t.body.length
  /-- The closed runs are numbered from one. -/
  index_eq : ∀ k s, closed[k]? = some s → s.index = k + 1
  /-- They are runs. -/
  isRun : ∀ s ∈ closed, IsRun p t s
  /-- They are over, and so is the row behind each. -/
  stop_lt : ∀ s ∈ closed, s.stop < n
  /-- They lie one behind the other. -/
  ordered : closed.Pairwise fun a b => a.stop < b.start
  /-- The open run is behind all of them. -/
  stop_lt_open : ∀ r ∈ run, ∀ s ∈ closed, s.stop < r.start
  /-- The open run has a row. -/
  open_lt : ∀ r ∈ run, r.start < n
  /-- Its rows are those of the table from its start on. -/
  open_rows : ∀ r ∈ run, r.rows.reverse = t.slice r.start n
  /-- Each of them is a member. -/
  open_isMember : ∀ r ∈ run, ∀ i, r.start ≤ i → i < n → IsMember p t i
  /-- The row before it, if there is one, is none. -/
  open_before : ∀ r ∈ run, ∀ i, i + 1 = r.start → ¬ IsMember p t i
  /-- Without an open run the row before is no member. -/
  idle : run = none → ∀ i, i + 1 = n → ¬ IsMember p t i
  /-- No member was left out. -/
  covered : ∀ i, i < n → IsMember p t i →
    (∃ s ∈ closed, s.Covers i) ∨ ∃ r ∈ run, r.start ≤ i
  /-- No member was counted twice. -/
  count_eq : (closed.map Segment.length).sum + openLength run = memberCount p t n

theorem Progress.start (p : CompiledPredicate) (t : Table) : Progress p t 0 [] none where
  le_length := Nat.zero_le _
  index_eq := by simp
  isRun := by simp
  stop_lt := by simp
  ordered := List.Pairwise.nil
  stop_lt_open := by simp
  open_lt := by simp
  open_rows := by simp
  open_isMember := by simp
  open_before := by simp
  idle := by intro _ i hi; omega
  covered := by intro i hi; omega
  count_eq := rfl

namespace Progress

variable {p : CompiledPredicate} {t : Table} {n : Nat} {closed : List Segment}
  {run : Option OpenRun} {r : NumberedRow}

/-- Nothing is open and the row is no member: nothing happens. -/
theorem step_idle (h : Progress p t n closed none) (hlt : n < t.body.length)
    (hm : ¬ IsMember p t n) : Progress p t (n + 1) closed none where
  index_eq := h.index_eq
  isRun := h.isRun
  ordered := h.ordered
  stop_lt_open := by simp
  open_before := by simp
  le_length := hlt
  stop_lt s hs := Nat.lt_succ_of_lt (h.stop_lt s hs)
  open_lt := by simp
  open_rows := by simp
  open_isMember := by simp
  idle _ i hi := by
    rw [Nat.succ.inj hi]
    exact hm
  covered i hi hmi := by
    rcases Nat.lt_succ_iff_lt_or_eq.1 hi with hlt | rfl
    · exact h.covered i hlt hmi
    · exact absurd hmi hm
  count_eq := by
    rw [memberCount_succ_of_not_isMember hm]
    exact h.count_eq

/-- Nothing is open and the row is a member: a run opens. -/
theorem step_open (h : Progress p t n closed none) (hr : t.body[n]? = some r)
    (hm : IsMember p t n) : Progress p t (n + 1) closed (some (.single n r)) where
  index_eq := h.index_eq
  isRun := h.isRun
  ordered := h.ordered
  le_length := Nat.lt_of_succ_lt hm.1
  stop_lt s hs := Nat.lt_succ_of_lt (h.stop_lt s hs)
  stop_lt_open := by
    rintro _ ⟨⟩ s hs
    exact h.stop_lt s hs
  open_lt := by
    rintro _ ⟨⟩
    exact Nat.lt_succ_self n
  open_rows := by
    rintro _ ⟨⟩
    have h := t.slice_succ (Nat.le_refl n) hr
    rw [Table.slice, Table.slice, Nat.sub_self] at h
    exact h.symm
  open_isMember := by
    rintro _ ⟨⟩ i hle hi
    have : i = n := Nat.le_antisymm (Nat.le_of_lt_succ hi) hle
    rw [this]
    exact hm
  open_before := by
    rintro _ ⟨⟩ i hi
    exact h.idle rfl i hi
  idle := by simp
  covered i hi hmi := by
    rcases Nat.lt_succ_iff_lt_or_eq.1 hi with hlt | rfl
    · exact Or.inl ((h.covered i hlt hmi).resolve_right (by simp))
    · exact Or.inr ⟨_, rfl, Nat.le_refl _⟩
  count_eq := by
    rw [memberCount_succ_of_isMember hm, ← h.count_eq]
    rfl

/-- A run is open and the row is a member: the run grows. -/
theorem step_push {o : OpenRun} (h : Progress p t n closed (some o)) (hr : t.body[n]? = some r)
    (hm : IsMember p t n) : Progress p t (n + 1) closed (some (o.push r)) where
  index_eq := h.index_eq
  isRun := h.isRun
  ordered := h.ordered
  le_length := Nat.lt_of_succ_lt hm.1
  stop_lt s hs := Nat.lt_succ_of_lt (h.stop_lt s hs)
  stop_lt_open := by
    rintro _ ⟨⟩ s hs
    exact h.stop_lt_open o rfl s hs
  open_lt := by
    rintro _ ⟨⟩
    exact Nat.lt_succ_of_lt (h.open_lt o rfl)
  open_rows := by
    rintro _ ⟨⟩
    rw [OpenRun.push, List.reverse_cons, h.open_rows o rfl]
    exact (t.slice_succ (Nat.le_of_lt (h.open_lt o rfl)) hr).symm
  open_isMember := by
    rintro _ ⟨⟩ i hle hi
    rcases Nat.lt_succ_iff_lt_or_eq.1 hi with hlt | rfl
    · exact h.open_isMember o rfl i hle hlt
    · exact hm
  open_before := by
    rintro _ ⟨⟩ i hi
    exact h.open_before o rfl i hi
  idle := by simp
  covered i hi hmi := by
    rcases Nat.lt_succ_iff_lt_or_eq.1 hi with hlt | rfl
    · rcases h.covered i hlt hmi with hc | ⟨_, ⟨⟩, hle⟩
      · exact Or.inl hc
      · exact Or.inr ⟨_, rfl, hle⟩
    · exact Or.inr ⟨_, rfl, Nat.le_of_lt (h.open_lt o rfl)⟩
  count_eq := by
    rw [memberCount_succ_of_isMember hm, ← h.count_eq]
    rfl

/-- The segment that the open run becomes ends where the scan stands. -/
theorem stop_close {o : OpenRun} (h : Progress p t n closed (some o)) (index : Nat) :
    (o.close index).stop = n := by
  have ho : o.start < n := h.open_lt o rfl
  rw [Segment.stop, Segment.length, OpenRun.close, h.open_rows o rfl,
    t.length_slice h.le_length]
  exact Nat.add_sub_cancel' (Nat.le_of_lt ho)

/-- The open run is a run once the row behind it is no member. -/
theorem isRun_close {o : OpenRun} (h : Progress p t n closed (some o)) (hm : ¬ IsMember p t n)
    (index : Nat) : IsRun p t (o.close index) := by
  have hstop : (o.close index).stop = n := h.stop_close index
  have hstart : (o.close index).start = o.start := rfl
  refine ⟨?_, ?_, ?_, ?_, ?_⟩
  · rw [hstop]
    exact h.open_lt o rfl
  · rw [hstop]
    exact h.open_rows o rfl
  · rw [hstop]
    exact h.open_isMember o rfl
  · exact h.open_before o rfl
  · rw [hstop]
    exact hm

/-- A run is open and the row is no member: the run is closed. -/
theorem step_close {o : OpenRun} (h : Progress p t n closed (some o)) (hlt : n < t.body.length)
    (hm : ¬ IsMember p t n) :
    Progress p t (n + 1) (closed ++ [o.close (closed.length + 1)]) none where
  le_length := hlt
  index_eq k s hk := by
    rcases Nat.lt_trichotomy k closed.length with hlt | rfl | hgt
    · rw [List.getElem?_append_left hlt] at hk
      exact h.index_eq k s hk
    · rw [List.getElem?_concat_length] at hk
      cases hk
      rfl
    · rw [List.getElem?_eq_none (by rw [List.length_append]; exact hgt)] at hk
      exact absurd hk (by simp)
  isRun s hs := by
    rcases List.mem_append.1 hs with hs | hs
    · exact h.isRun s hs
    · rw [List.mem_singleton.1 hs]
      exact h.isRun_close hm _
  stop_lt s hs := by
    rcases List.mem_append.1 hs with hs | hs
    · exact Nat.lt_succ_of_lt (h.stop_lt s hs)
    · rw [List.mem_singleton.1 hs, h.stop_close]
      exact Nat.lt_succ_self n
  ordered := by
    refine List.pairwise_append.2 ⟨h.ordered, List.pairwise_singleton _ _, ?_⟩
    intro a ha b hb
    rw [List.mem_singleton.1 hb]
    exact h.stop_lt_open o rfl a ha
  stop_lt_open := by simp
  open_lt := by simp
  open_rows := by simp
  open_isMember := by simp
  open_before := by simp
  idle _ i hi := by
    rw [Nat.succ.inj hi]
    exact hm
  covered i hi hmi := by
    rcases Nat.lt_succ_iff_lt_or_eq.1 hi with hlt | rfl
    · rcases h.covered i hlt hmi with ⟨s, hs, hc⟩ | ⟨_, ⟨⟩, hle⟩
      · exact Or.inl ⟨s, List.mem_append_left _ hs, hc⟩
      · refine Or.inl ⟨_, List.mem_append_right _ (List.mem_singleton_self _), hle, ?_⟩
        rwa [h.stop_close]
    · exact absurd hmi hm
  count_eq := by
    rw [memberCount_succ_of_not_isMember hm, ← h.count_eq, List.map_append, List.sum_append]
    simp [openLength, Segment.length, OpenRun.close]

end Progress

/-! ## The scan -/

/-- The segments that are closed in the course of some events, in order and up to a failure. -/
def closedSegments : List ScanEvent → List Segment
  | [] => []
  | .tested .. :: rest => closedSegments rest
  | .closed segment :: rest => segment :: closedSegments rest
  | .failed _ :: _ => []

@[simp] theorem closedSegments_nil : closedSegments [] = [] := rfl

@[simp] theorem closedSegments_tested (position : Nat) (passes member : Bool)
    (events : List ScanEvent) :
    closedSegments (.tested position passes member :: events) = closedSegments events := rfl

@[simp] theorem closedSegments_closed (s : Segment) (events : List ScanEvent) :
    closedSegments (.closed s :: events) = s :: closedSegments events := rfl

@[simp] theorem closedSegments_failed (e : RowError) (events : List ScanEvent) :
    closedSegments (.failed e :: events) = [] := rfl

/-- What the scan takes for membership is membership. -/
theorem isMember_iff_of_drop {p : CompiledPredicate} {t : Table} {n : Nat} {r : NumberedRow}
    {rest : List NumberedRow} (hdrop : t.body.drop n = r :: rest) {passes : Bool}
    (htest : p.test r = .ok passes) : IsMember p t n ↔ (passes && !rest.isEmpty) = true := by
  have hget : t.body[n]? = some r := by
    rw [← Nat.add_zero n, ← List.getElem?_drop, hdrop]
    rfl
  have hlen : t.body.length = n + 1 + rest.length := by
    have h := congrArg List.length hdrop
    rw [List.length_drop, List.length_cons] at h
    omega
  have hpass : p.passes r = passes := by rw [CompiledPredicate.passes, htest]
  have hrest : (!rest.isEmpty) = true ↔ 0 < rest.length := by
    cases rest <;> simp
  rw [IsMember, hget, hlen, Bool.and_eq_true, hrest]
  constructor
  · rintro ⟨hlt, _, ⟨⟩, hr⟩
    exact ⟨hpass ▸ hr, by omega⟩
  · rintro ⟨hr, hlt⟩
    exact ⟨by omega, r, rfl, hpass.trans hr⟩

/-- **A scan keeps its invariant** as long as rows can be tested: it comes to the first row that
cannot be, or to the end. -/
theorem Progress.scanFrom {p : CompiledPredicate} {t : Table} (rest : List NumberedRow) :
    ∀ {n : Nat} {closed : List Segment} {run : Option OpenRun}, Progress p t n closed run →
      t.body.drop n = rest →
      ∃ run', Progress p t (n + (rest.takeWhile p.isTestable).length)
        (closed ++ closedSegments (LogSplit.scanFrom p n closed.length run rest)) run' := by
  induction rest with
  | nil =>
    intro n closed run h _
    exact ⟨run, by simpa [LogSplit.scanFrom] using h⟩
  | cons r rest ih =>
    intro n closed run h hdrop
    cases htest : p.test r with
    | error e =>
      have hun : p.isTestable r = false := by rw [CompiledPredicate.isTestable, htest]
      exact ⟨run, by simpa [LogSplit.scanFrom, htest, hun] using h⟩
    | ok passes =>
      have htestable : p.isTestable r = true := by rw [CompiledPredicate.isTestable, htest]
      have hnext : t.body.drop (n + 1) = rest := by
        rw [← List.drop_drop, hdrop]
        rfl
      have hlt : n < t.body.length := by
        refine Nat.lt_of_not_le fun hle => ?_
        rw [List.drop_eq_nil_of_le hle] at hdrop
        exact absurd hdrop (by simp)
      have hget : t.body[n]? = some r := by
        rw [← Nat.add_zero n, ← List.getElem?_drop, hdrop]
        rfl
      have hiff := isMember_iff_of_drop hdrop htest
      have hlen : n + ((r :: rest).takeWhile p.isTestable).length
          = n + 1 + (rest.takeWhile p.isTestable).length := by
        rw [List.takeWhile_cons_of_pos htestable, List.length_cons]
        omega
      rw [hlen, LogSplit.scanFrom, htest]
      dsimp only
      cases hmem : passes && !rest.isEmpty with
      | false =>
        have hno : ¬ IsMember p t n := fun hm => by rw [hiff.1 hm] at hmem; cases hmem
        cases run with
        | none => exact ih (h.step_idle hlt hno) hnext
        | some o => simpa using ih (h.step_close hlt hno) hnext
      | true =>
        cases run with
        | none => exact ih (h.step_open hget (hiff.2 hmem)) hnext
        | some o => exact ih (h.step_push hget (hiff.2 hmem)) hnext

/-- The scan of a table comes to the first row that cannot be tested, or to the end. -/
theorem progress_scan (p : CompiledPredicate) (t : Table) :
    ∃ run, Progress p t (t.body.takeWhile p.isTestable).length (closedSegments (scan p t)) run := by
  simpa [scan] using (Progress.start p t).scanFrom t.body (List.drop_zero ..)

end LogSplit
