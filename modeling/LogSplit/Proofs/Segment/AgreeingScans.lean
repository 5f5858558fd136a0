import LogSplit.Proofs.Segment.FailingScan
import Mathlib.Data.List.Forall2
import Mathlib.Data.Option.Basic

/-!
# Scans that agree

Two scans are compared here step by step.  Their predicates may differ and their tables may, but
the rows are related one by one, and the tests of related rows have the same answer or fail in ways
that are alike.  Then the events of the two scans agree (`scanFrom_agree`): the same rows are
members, the same runs are closed, of related rows, and if one scan fails the other does at the same
row.

Sinks may differ as well, as long as they give the same answers to segments that agree
(`AnswersAlike`).  `segmentTable_agree` is that the two scans then end in the same way.

Nothing is said about where the relations come from.  They are the two parameters of this file:
`rel` for rows, and `alike` for the errors of rows.
-/

set_option autoImplicit false

namespace LogSplit

variable {rel : NumberedRow → NumberedRow → Prop} {alike : RowError → RowError → Prop}

/-! ## What agrees -/

/-- Two outcomes are the same, or errors that are alike. -/
inductive SameUpTo {ε α : Type} (alike : ε → ε → Prop) : Except ε α → Except ε α → Prop where
  /-- The same result. -/
  | ok (a : α) : SameUpTo alike (.ok a) (.ok a)
  /-- Errors that are alike. -/
  | error {e e' : ε} (h : alike e e') : SameUpTo alike (.error e) (.error e')

theorem SameUpTo.eq_ok_iff {ε α : Type} {alike : ε → ε → Prop} {x x' : Except ε α} {a : α}
    (h : SameUpTo alike x x') : x = .ok a ↔ x' = .ok a := by
  cases h <;> simp

theorem SameUpTo.exists_error {ε α : Type} {alike : ε → ε → Prop} {x' : Except ε α} {e : ε}
    (h : SameUpTo alike (.error e) x') : ∃ e', x' = .error e' ∧ alike e e' := by
  cases h with
  | error he => exact ⟨_, rfl, he⟩

/-- Two segments have the same number and the same place, and their rows are related one by one. -/
structure Segment.Agree (rel : NumberedRow → NumberedRow → Prop) (s s' : Segment) : Prop where
  /-- The same number. -/
  index_eq : s.index = s'.index
  /-- The same first position. -/
  start_eq : s.start = s'.start
  /-- Related rows. -/
  rows : List.Forall₂ rel s.rows s'.rows

theorem Segment.Agree.length_eq {s s' : Segment} (h : s.Agree rel s') : s.length = s'.length :=
  h.rows.length_eq

theorem Segment.Agree.eq {s s' : Segment} (h : s.Agree (· = ·) s') : s = s' := by
  obtain ⟨index, start, rows⟩ := s
  obtain ⟨rfl, rfl, hrows⟩ := h
  rw [List.forall₂_eq_eq_eq] at hrows
  obtain rfl := hrows
  rfl

/-- Two events are of the same kind, at the same place, and about the same. -/
inductive ScanEvent.Agree (rel : NumberedRow → NumberedRow → Prop)
    (alike : RowError → RowError → Prop) : ScanEvent → ScanEvent → Prop where
  /-- Tests of one position with one answer. -/
  | tested (position : Nat) (passes member : Bool) :
    Agree rel alike (.tested position passes member) (.tested position passes member)
  /-- Segments that agree. -/
  | closed {s s' : Segment} (h : s.Agree rel s') : Agree rel alike (.closed s) (.closed s')
  /-- Errors that are alike. -/
  | failed {e e' : RowError} (h : alike e e') : Agree rel alike (.failed e) (.failed e')

theorem testedRows_agree {events events' : List ScanEvent}
    (h : List.Forall₂ (ScanEvent.Agree rel alike) events events') :
    testedRows events = testedRows events' := by
  induction h with
  | nil => rfl
  | cons hevent _ ih =>
    cases hevent with
    | tested position => exact congrArg (position :: ·) ih
    | closed => exact ih
    | failed => exact ih

theorem closedSegments_agree {events events' : List ScanEvent}
    (h : List.Forall₂ (ScanEvent.Agree rel alike) events events') :
    List.Forall₂ (Segment.Agree rel) (closedSegments events) (closedSegments events') := by
  induction h with
  | nil => exact .nil
  | cons hevent _ ih =>
    cases hevent with
    | tested => exact ih
    | closed hs => exact .cons hs ih
    | failed => exact .nil

/-! ## Events -/

/-- Two open runs have the same place, and their rows are related one by one. -/
structure OpenRun.Agree (rel : NumberedRow → NumberedRow → Prop) (o o' : OpenRun) : Prop where
  /-- The same first position. -/
  start_eq : o.start = o'.start
  /-- Related rows. -/
  rows : List.Forall₂ rel o.rows o'.rows

theorem OpenRun.Agree.close {o o' : OpenRun} (h : o.Agree rel o') (index : Nat) :
    (o.close index).Agree rel (o'.close index) :=
  ⟨rfl, h.start_eq, List.rel_reverse h.rows⟩

variable {p p' : CompiledPredicate}

/-- **Scans of related rows agree event by event.** -/
theorem scanFrom_agree
    (htest : ∀ r r', rel r r' → SameUpTo alike (p.test r) (p'.test r'))
    {rows rows' : List NumberedRow} (hrows : List.Forall₂ rel rows rows') :
    ∀ (position found : Nat) {run run' : Option OpenRun}, Option.Rel (OpenRun.Agree rel) run run' →
      List.Forall₂ (ScanEvent.Agree rel alike) (scanFrom p position found run rows)
        (scanFrom p' position found run' rows') := by
  induction hrows with
  | nil => exact fun _ _ _ _ _ => .nil
  | @cons r r' rest rest' hr hrest ih =>
    intro position found run run' hrun
    have hlast : rest'.isEmpty = rest.isEmpty := by cases hrest <;> rfl
    have hagree := htest r r' hr
    rw [scanFrom, scanFrom, hlast]
    generalize p.test r = answer, p'.test r' = answer' at hagree
    cases hagree with
    | error he => exact .cons (.failed he) .nil
    | ok passes =>
      refine .cons (.tested ..) ?_
      cases hrun with
      | none =>
        cases passes && !rest.isEmpty with
        | false => exact ih _ _ .none
        | true => exact ih _ _ (.some ⟨rfl, .cons hr .nil⟩)
      | some ho =>
        cases passes && !rest.isEmpty with
        | false => exact .cons (.closed (ho.close _)) (ih _ _ .none)
        | true => exact ih _ _ (.some ⟨ho.start_eq, .cons hr ho.rows⟩)

/-! ## Ends -/

variable {σ τ : Type} {sink : Segment → StateM σ (Except SplitError Unit)}
  {sink' : Segment → StateM τ (Except SplitError Unit)} {st st₁ : σ} {st' : τ}

/-- Two sinks give the same answers to segments that agree, one after the other. -/
def AnswersAlike (rel : NumberedRow → NumberedRow → Prop)
    (sink : Segment → StateM σ (Except SplitError Unit)) (st : σ)
    (sink' : Segment → StateM τ (Except SplitError Unit)) (st' : τ) : Prop :=
  ∀ ⦃front front' : List Segment⦄ ⦃s s' : Segment⦄ ⦃st₁ : σ⦄ ⦃st₁' : τ⦄,
    List.Forall₂ (Segment.Agree rel) front front' → s.Agree rel s' →
      Accepts sink st front st₁ → Accepts sink' st' front' st₁' → (sink s st₁).1 = (sink' s' st₁').1

/-- Two sinks go on like that after a segment that both accept. -/
theorem AnswersAlike.tail (h : AnswersAlike rel sink st sink' st') {s s' : Segment} {st₁' : τ}
    (hs : s.Agree rel s') (hsink : sink s st = (.ok (), st₁))
    (hsink' : sink' s' st' = (.ok (), st₁')) : AnswersAlike rel sink st₁ sink' st₁' :=
  fun _ _ _ _ _ _ hfront hnext haccepts haccepts' =>
    h (.cons hs hfront) hnext (.cons hsink haccepts) (.cons hsink' haccepts')

theorem answersAlike_of_neverFails (hsink : ∀ s, NeverFails (sink s))
    (hsink' : ∀ s, NeverFails (sink' s)) : AnswersAlike rel sink st sink' st' := by
  intro front front' s s' st₁ st₁' _ _ _ _
  obtain ⟨st₂, hok⟩ := (hsink s).exists_eq st₁
  obtain ⟨st₂', hok'⟩ := (hsink' s').exists_eq st₁'
  rw [hok, hok']

/-- Two scans end with the same refusal of a sink, or with errors of rows that are alike. -/
inductive SplitError.Alike (alike : RowError → RowError → Prop) :
    SplitError → SplitError → Prop where
  /-- The same error of a sink. -/
  | refusal (e : SplitError) : Alike alike e e
  /-- Errors of rows. -/
  | row {e e' : RowError} (h : alike e e') : Alike alike (.row e) (.row e')

/-- The walk with notes to a segment that is accepted. -/
theorem noted_closed {s : Segment} (hs : sink s st = (.ok (), st₁)) (summary : ScanSummary)
    (rest notes : List ScanEvent) :
    handOver noteEvent (besideNotes sink) summary (.closed s :: rest) (st, notes)
      = handOver noteEvent (besideNotes sink) (summary.add s) rest (st₁, notes ++ [.closed s]) := by
  have hbeside : besideNotes sink s (st, notes ++ [.closed s])
      = (.ok (), (st₁, notes ++ [.closed s])) := by
    rw [besideNotes, hs]
  exact (bind_of_eq_state rfl _).trans (bind_of_eq_state hbeside _)

/-- The walk with notes to a segment that is refused. -/
theorem noted_refused {s : Segment} {e : SplitError} (hs : sink s st = (.error e, st₁))
    (summary : ScanSummary) (rest notes : List ScanEvent) :
    handOver noteEvent (besideNotes sink) summary (.closed s :: rest) (st, notes)
      = (.error e, (st₁, notes ++ [.closed s])) := by
  have hbeside : besideNotes sink s (st, notes ++ [.closed s])
      = (.error e, (st₁, notes ++ [.closed s])) := by
    rw [besideNotes, hs]
  exact (bind_of_eq_state rfl _).trans (bind_of_eq_state hbeside _)

/-- **Walks over events that agree end in the same way**, for sinks that give the same answers. -/
theorem handOver_agree {events events' : List ScanEvent}
    (hevents : List.Forall₂ (ScanEvent.Agree rel alike) events events') :
    ∀ (summary : ScanSummary) {st : σ} {st' : τ} {notes notes' : List ScanEvent},
      AnswersAlike rel sink st sink' st' →
      List.Forall₂ (ScanEvent.Agree rel alike) notes notes' →
      ∃ outcome outcome' st₂ st₂' told told',
        handOver noteEvent (besideNotes sink) summary events (st, notes)
            = (outcome, (st₂, told)) ∧
          handOver noteEvent (besideNotes sink') summary events' (st', notes')
            = (outcome', (st₂', told')) ∧
          List.Forall₂ (ScanEvent.Agree rel alike) told told' ∧
          SameUpTo (SplitError.Alike alike) outcome outcome' := by
  induction hevents with
  | nil => exact fun summary st st' _ _ _ hnotes => ⟨_, _, st, st', _, _, rfl, rfl, hnotes, .ok _⟩
  | @cons event event' rest rest' hevent hrest ih =>
    intro summary st st' notes notes' hsinks hnotes
    have hnoted : List.Forall₂ (ScanEvent.Agree rel alike)
        (notes ++ [event]) (notes' ++ [event']) :=
      List.rel_append hnotes (.cons hevent .nil)
    cases hevent with
    | tested position passes member => exact ih summary hsinks hnoted
    | failed he => exact ⟨_, _, st, st', _, _, rfl, rfl, hnoted, .error (.row he)⟩
    | @closed s s' hs =>
      have hanswer := hsinks .nil hs (.nil st) (.nil st')
      rcases hsink : sink s st with ⟨e | ⟨⟩, st₁⟩ <;>
        rcases hsink' : sink' s' st' with ⟨e' | ⟨⟩, st₁'⟩ <;> rw [hsink, hsink'] at hanswer
      · obtain rfl : e = e' := Except.error.inj hanswer
        exact ⟨_, _, st₁, st₁', _, _, noted_refused hsink .., noted_refused hsink' .., hnoted,
          .error (.refusal e)⟩
      · cases hanswer
      · cases hanswer
      · rw [noted_closed hsink, noted_closed hsink']
        have hsummary : summary.add s = summary.add s' := by
          rw [ScanSummary.add, ScanSummary.add, hs.length_eq]
        rw [hsummary]
        exact ih _ (hsinks.tail hs hsink hsink') hnoted

variable {t t' : Table}

/-- **Scans of related tables end in the same way**, for sinks that give the same answers. -/
theorem segmentTable_agree
    (htest : ∀ r r', rel r r' → SameUpTo alike (p.test r) (p'.test r'))
    (hrows : List.Forall₂ rel t.body t'.body) (hsinks : AnswersAlike rel sink st sink' st') :
    ∃ outcome outcome' st₂ st₂' told told',
      segmentTable noteEvent (besideNotes sink) p t (st, []) = (outcome, (st₂, told)) ∧
        segmentTable noteEvent (besideNotes sink') p' t' (st', []) = (outcome', (st₂', told')) ∧
        List.Forall₂ (ScanEvent.Agree rel alike) told told' ∧
        SameUpTo (SplitError.Alike alike) outcome outcome' := by
  rw [segmentTable, segmentTable, ← hrows.length_eq]
  exact handOver_agree (scanFrom_agree htest hrows 0 0 .none) _ hsinks .nil

end LogSplit
