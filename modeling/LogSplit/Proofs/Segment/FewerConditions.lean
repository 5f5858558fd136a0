import LogSplit.Proofs.Predicate.Compiled
import LogSplit.Proofs.Segment.FailingScan

/-!
# Fewer conditions

With fewer conditions there is less that can be wrong with a row, and more rows pass.  So a table
that can be scanned with many conditions can be scanned with some of them, and the runs that are
found then are at least as long.  They need not be as many: a run may take in several of the runs
that more conditions leave (`MaximalRuns.existsUnique_within`).

`segmentTable_of_subset` says this of two scans of one table.
-/

set_option autoImplicit false

namespace LogSplit

variable {h : Header} {s s' : ConditionSet} {p p' : CompiledPredicate} {t : Table}

/-! ## Rows -/

namespace CompiledPredicate

variable {r : NumberedRow}

theorem isTestable_iff_forall :
    p.isTestable r = true ↔ ∀ b ∈ p.conditions, ∃ holds, b.holds r = .ok holds := by
  rw [isTestable_iff]
  constructor
  · rintro ⟨passes, htest⟩
    exact (test_eq_ok_iff.1 htest).1
  · intro hnumbers
    cases htest : p.test r with
    | ok passes => exact ⟨passes, rfl⟩
    | error e =>
      obtain ⟨front, b, back, hsplit, -, hb⟩ := test_eq_error_iff.1 htest
      obtain ⟨holds, hok⟩ := hnumbers b (by simp [hsplit])
      cases hb.symm.trans hok

theorem passes_iff_forall : p.passes r = true ↔ ∀ b ∈ p.conditions, b.holds r = .ok true := by
  rw [passes]
  constructor
  · intro hpasses
    cases htest : p.test r with
    | ok passes =>
      rw [htest] at hpasses
      exact (test_eq_ok_iff.1 htest).2.1 hpasses
    | error e =>
      rw [htest] at hpasses
      cases hpasses
  · intro hhold
    rw [test_eq_ok_iff.2 ⟨fun b hb => ⟨true, hhold b hb⟩, iff_of_true rfl hhold⟩]

/-- A row that passes many conditions passes some of them. -/
theorem passes_of_subset (hsub : p.conditions ⊆ p'.conditions) (hpasses : p'.passes r = true) :
    p.passes r = true :=
  passes_iff_forall.2 fun b hb => passes_iff_forall.1 hpasses b (hsub hb)

/-- A condition that two sets have in common is bound to the same column. -/
theorem conditions_subset (hp : compile h s = .ok p) (hp' : compile h s' = .ok p')
    (hsub : s.conditions ⊆ s'.conditions) : p.conditions ⊆ p'.conditions := by
  intro b hb
  obtain ⟨hmem, hcolumn⟩ := (mem_conditions_iff hp).1 hb
  exact (mem_conditions_iff hp').2 ⟨hsub hmem, hcolumn⟩

end CompiledPredicate

theorem IsMember.of_conditions_subset (hsub : p.conditions ⊆ p'.conditions) {i : Nat}
    (hmember : IsMember p' t i) : IsMember p t i := by
  obtain ⟨hlt, r, hr, hpasses⟩ := hmember
  exact ⟨hlt, r, hr, CompiledPredicate.passes_of_subset hsub hpasses⟩

/-! ## Runs -/

/-- The rows of a segment are among those of another one. -/
def Segment.Within (s s' : Segment) : Prop := s'.start ≤ s.start ∧ s.stop ≤ s'.stop

/-- A run of some members ends before a run does that shares its first row and takes in members of
more kinds. -/
theorem IsRun.stop_le_of_isMember {a b : Segment} (ha : IsRun p' t a) (hb : IsRun p t b)
    (hmember : ∀ i, IsMember p' t i → IsMember p t i) (hcovers : b.Covers a.start) :
    a.stop ≤ b.stop := by
  by_contra hlt
  obtain ⟨-, hstop⟩ := hcovers
  exact hb.behind (hmember b.stop (ha.isMember b.stop (by omega) (by omega)))

/-- **Where more rows are members, each run lies in exactly one of the longer runs.** -/
theorem MaximalRuns.existsUnique_within {segments segments' : List Segment}
    (hruns' : MaximalRuns p' t segments') (hruns : MaximalRuns p t segments)
    (hmember : ∀ i, IsMember p' t i → IsMember p t i) {a : Segment} (ha : a ∈ segments') :
    ∃! b, b ∈ segments ∧ a.Within b := by
  have hrun := hruns'.isRun a ha
  obtain ⟨b, ⟨hb, hcovers⟩, honly⟩ := hruns.existsUnique a.start
    (hmember a.start (hrun.isMember a.start (Nat.le_refl _) hrun.start_lt))
  refine ⟨b, ⟨hb, hcovers.1, hrun.stop_le_of_isMember (hruns.isRun b hb) hmember hcovers⟩, ?_⟩
  rintro b' ⟨hb', hle, hstop⟩
  exact honly b' ⟨hb', hle, Nat.lt_of_lt_of_le hrun.start_lt hstop⟩

theorem MaximalRuns.sum_length_le {segments segments' : List Segment}
    (hruns' : MaximalRuns p' t segments') (hruns : MaximalRuns p t segments)
    (hpasses : ∀ r, p'.passes r = true → p.passes r = true) :
    (segments'.map Segment.length).sum ≤ (segments.map Segment.length).sum := by
  rw [hruns'.sum_length, hruns.sum_length]
  exact List.countP_mono_left fun r _ => hpasses r

/-! ## Scans -/

/-- With fewer conditions a scan does not fail more often. -/
theorem failed_not_mem_scan_of_subset (hsub : p.conditions ⊆ p'.conditions)
    (hok : ∀ e, ScanEvent.failed e ∉ scan p' t) : ∀ e, ScanEvent.failed e ∉ scan p t := by
  rw [failed_not_mem_scan_iff] at hok ⊢
  intro r hr
  have hnumbers := CompiledPredicate.isTestable_iff_forall.1 (hok r hr)
  exact CompiledPredicate.isTestable_iff_forall.2 fun b hb => hnumbers b (hsub hb)

variable {σ τ : Type} {sink : Segment → StateM σ (Except SplitError Unit)}
  {sink' : Segment → StateM τ (Except SplitError Unit)}

/-- **With fewer conditions segments only grow.**  Two sinks accept whatever they are given.  If a
table can be scanned with some conditions, it can be scanned with a part of them, each segment of
the first scan lies in exactly one of the second, and no fewer rows are in segments.  The segments
are read off the notes; they are those that the sinks have accepted
(`accepts_of_notes_of_neverFails`). -/
theorem segmentTable_of_subset (hsub : s.conditions ⊆ s'.conditions)
    (hp : CompiledPredicate.compile t.header s = .ok p)
    (hp' : CompiledPredicate.compile t.header s' = .ok p') (hsink : ∀ x, NeverFails (sink x))
    (hsink' : ∀ x, NeverFails (sink' x)) (st : σ) {st' st₂' : τ} {summary' : ScanSummary}
    {told' : List ScanEvent}
    (hrun' : segmentTable noteEvent (besideNotes sink') p' t (st', [])
      = (.ok summary', (st₂', told'))) :
    ∃ summary st₂ told,
      segmentTable noteEvent (besideNotes sink) p t (st, []) = (.ok summary, (st₂, told)) ∧
        (∀ a ∈ closedSegments told', ∃! b, b ∈ closedSegments told ∧ a.Within b) ∧
        summary'.matchedRows ≤ summary.matchedRows := by
  have hconditions := CompiledPredicate.conditions_subset hp hp' hsub
  have hok' := failed_not_mem_scan_of_ok hsink' hrun'
  have hok := failed_not_mem_scan_of_subset hconditions hok'
  obtain ⟨st₂, hrun⟩ := segmentTable_of_neverFails hsink st hok
  obtain ⟨st₁', hrun₁'⟩ := segmentTable_of_neverFails hsink' st' hok'
  cases hrun'.symm.trans hrun₁'
  have hruns := maximalRuns_scan hok
  have hruns' := maximalRuns_scan hok'
  refine ⟨_, st₂, _, hrun, fun a ha => ?_, ?_⟩
  · exact hruns'.existsUnique_within hruns (fun i => .of_conditions_subset hconditions) ha
  · exact hruns'.sum_length_le hruns fun r => CompiledPredicate.passes_of_subset hconditions

/-- A column `v` with one run of ones, and a column `w` with a gap in it. -/
def gapped : Table :=
  .ofRows ⟨["v", "w"]⟩
    [⟨["1", "1"]⟩, ⟨["1", "0"]⟩, ⟨["1", "1"]⟩, ⟨["0", "1"]⟩, ⟨["1", "1"]⟩]

/-- The condition that a field is one or more. -/
def atLeastOne (field : String) : Condition := ⟨field, .ge, .ofBits 0x3FF0000000000000, "1"⟩

/-- The two runs in which `v` and `w` are ones lie in the one in which `v` is. -/
theorem segmentTable_of_subset_gapped :
    [atLeastOne "v"] ⊆ [atLeastOne "w", atLeastOne "v"] ∧
      CompiledPredicate.compile gapped.header (.ofConditions [atLeastOne "v"])
        = .ok ⟨[⟨atLeastOne "v", 0⟩]⟩ ∧
      CompiledPredicate.compile gapped.header (.ofConditions [atLeastOne "w", atLeastOne "v"])
        = .ok ⟨[⟨atLeastOne "w", 1⟩, ⟨atLeastOne "v", 0⟩]⟩ ∧
      (∀ x, NeverFails (keep x)) ∧
      ∃ st₂' told' summary st₂ told,
        segmentTable noteEvent (besideNotes keep) ⟨[⟨atLeastOne "w", 1⟩, ⟨atLeastOne "v", 0⟩]⟩
            gapped ([], []) = (.ok ⟨5, 2, 2⟩, (st₂', told')) ∧
          segmentTable noteEvent (besideNotes keep) ⟨[⟨atLeastOne "v", 0⟩]⟩ gapped ([], [])
            = (.ok summary, (st₂, told)) ∧
          (∀ a ∈ closedSegments told', ∃! b, b ∈ closedSegments told ∧ a.Within b) ∧
          2 ≤ summary.matchedRows := by
  have hsub : (ConditionSet.ofConditions [atLeastOne "v"]).conditions
      ⊆ (ConditionSet.ofConditions [atLeastOne "w", atLeastOne "v"]).conditions :=
    List.subset_cons_self _ _
  have hkeep : ∀ x, NeverFails (keep x) := fun _ => rfl
  have hp : CompiledPredicate.compile gapped.header (.ofConditions [atLeastOne "v"])
      = .ok ⟨[⟨atLeastOne "v", 0⟩]⟩ := by decide +kernel
  have hp' : CompiledPredicate.compile gapped.header
      (.ofConditions [atLeastOne "w", atLeastOne "v"])
      = .ok ⟨[⟨atLeastOne "w", 1⟩, ⟨atLeastOne "v", 0⟩]⟩ := by decide +kernel
  have hsucceeds : (segmentTable noteEvent (besideNotes keep)
      ⟨[⟨atLeastOne "w", 1⟩, ⟨atLeastOne "v", 0⟩]⟩ gapped ([], [])).1 = .ok ⟨5, 2, 2⟩ := by
    decide +kernel
  obtain ⟨outcome, st₂', told', hrun', -⟩ := segmentTable_notes keep []
    ⟨[⟨atLeastOne "w", 1⟩, ⟨atLeastOne "v", 0⟩]⟩ gapped
  rw [hrun'] at hsucceeds
  obtain rfl : outcome = .ok ⟨5, 2, 2⟩ := hsucceeds
  obtain ⟨summary, st₂, told, hrun, hwithin, hle⟩ :=
    segmentTable_of_subset hsub hp hp' hkeep hkeep [] hrun'
  exact ⟨hsub, hp, hp', hkeep, st₂', told', summary, st₂, told, hrun', hrun, hwithin, hle⟩

end LogSplit
