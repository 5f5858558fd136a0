import LogSplit.Proofs.Predicate.ClauseParts
import LogSplit.Proofs.Predicate.FindAll

/-!
# Fields are whole words

Where no clause starts the search goes on one byte further, so it also tries every place inside
a word that begins no clause.  It cannot find anything there.  What a clause needs behind its
field does not depend on where in a word the field begins, so a word that misses it as a whole
misses it from any of its bytes on (`matchAt_drop_of_none`).

Two things follow.  A search that passes such a word whole, `Search.runByWord`, is the same
search; and a field begins where a word begins, unless it is glued to the clause before it, as in
`a>1b>2`.
-/

set_option autoImplicit false

namespace LogSplit

namespace Clause

/-! ## Inside a word -/

/-- No clause starts at a place exactly if one of its parts is missing. -/
theorem matchAt_eq_none_iff {offset : Nat} {bs : Bytes} :
    matchAt offset bs = .none ↔ bs.takeWhile isWordByte = [] ∨ (operatorCut bs).1 = [] ∨
      number? (atNumber bs) = none := by
  refine ⟨fun h => ?_, matchAt_of_missing offset⟩
  rcases missing_or_complete bs with
    hmissing | ⟨literal, threshold, hfield, hop, hliteral, hthreshold⟩
  · exact hmissing
  · rw [matchAt_of_parts offset hfield hop hliteral hthreshold] at h
    cases hspelling : Operator.ofText? (asciiText (operatorCut bs).1) <;>
      rw [hspelling] at h <;> cases h

theorem stops_dropWhile (p : UInt8 → Bool) (bs : Bytes) : Stops p (bs.dropWhile p) := by
  intro b hb
  have hhead := List.head?_dropWhile_not p bs
  rw [Option.mem_def.1 hb] at hhead
  exact hhead

/-- What stands behind a field is the same from each byte of the field on. -/
theorem operatorCut_cons {b : UInt8} (hb : isWordByte b = true) (bs : Bytes) :
    operatorCut (b :: bs) = operatorCut bs := by
  rw [operatorCut, atOperator_eq, List.dropWhile_cons_of_pos hb, ← atOperator_eq, operatorCut]

theorem matchAt_tail_of_none {offset : Nat} {b : UInt8} {tail : Bytes}
    (hb : isWordByte b = true) (h : matchAt offset (b :: tail) = .none) (offset' : Nat) :
    matchAt offset' tail = .none := by
  have hparts := matchAt_eq_none_iff.1 h
  rw [atNumber, operatorCut_cons hb, ← atNumber, List.takeWhile_cons_of_pos hb] at hparts
  refine matchAt_of_missing offset' ?_
  rcases hparts with hfield | hrest
  · cases hfield
  · exact Or.inr hrest

/-- **A word that begins no clause has none inside**, nor a misspelt operator behind it. -/
theorem matchAt_drop_of_none {bs : Bytes} {offset : Nat} (h : matchAt offset bs = .none)
    {k : Nat} (hk : k ≤ (bs.takeWhile isWordByte).length) (offset' : Nat) :
    matchAt offset' (bs.drop k) = .none := by
  induction k generalizing bs offset with
  | zero => exact matchAt_of_missing offset' (matchAt_eq_none_iff.1 h)
  | succ k ih =>
    cases bs with
    | nil => rfl
    | cons b tail =>
      by_cases hb : isWordByte b = true
      · rw [List.takeWhile_cons_of_pos hb, List.length_cons] at hk
        exact ih (matchAt_tail_of_none hb h 0) (Nat.le_of_succ_le_succ hk)
      · rw [List.takeWhile_cons_of_neg hb] at hk
        exact absurd hk (Nat.not_succ_le_zero k)

/-! ## Where a clause stands -/

theorem skipSpace_suffix (bs : Bytes) : skipSpace bs <:+ bs := List.dropWhile_suffix isSpaceByte

theorem spanUpTo_suffix (p : UInt8 → Bool) (limit : Nat) (bs : Bytes) :
    (spanUpTo p limit bs).2 <:+ bs := ⟨_, spanUpTo_append p limit bs⟩

theorem atOperator_suffix (bs : Bytes) : atOperator bs <:+ bs :=
  (skipSpace_suffix _).trans (List.drop_suffix _ _)

theorem atNumber_suffix (bs : Bytes) : atNumber bs <:+ bs :=
  (skipSpace_suffix _).trans ((spanUpTo_suffix _ _ _).trans (atOperator_suffix bs))

theorem connectiveCut_suffix (bs literal : Bytes) : (connectiveCut bs literal).2 <:+ bs :=
  (spanUpTo_suffix _ _ _).trans
    ((skipSpace_suffix _).trans ((List.drop_suffix _ _).trans (atNumber_suffix bs)))

/-- What a clause found at the front of `bs` has to do with `bs`. -/
structure FoundAt (offset : Nat) (bs : Bytes) (found : Clause) (rest : Bytes) : Prop where
  /-- It knows its place. -/
  offset_eq : found.offset = offset
  /-- It begins with a word. -/
  word_ne_nil : bs.takeWhile isWordByte ≠ []
  /-- Its field is that word up to its end. -/
  field_eq : found.condition.field = asciiText (bs.takeWhile isWordByte)
  /-- Behind it stands the end of the text. -/
  suffix : rest <:+ bs

theorem foundAt_of_matchAt {offset : Nat} {bs rest : Bytes} {found : Clause}
    (h : matchAt offset bs = .clause found rest) : FoundAt offset bs found rest := by
  rcases missing_or_complete bs with
    hmissing | ⟨literal, threshold, hfield, hop, hliteral, hthreshold⟩
  · rw [matchAt_of_missing offset hmissing] at h
    cases h
  · rw [matchAt_of_parts offset hfield hop hliteral hthreshold] at h
    cases hspelling : Operator.ofText? (asciiText (operatorCut bs).1) with
    | none =>
      rw [hspelling] at h
      cases h
    | some op =>
      rw [hspelling] at h
      cases h
      exact ⟨rfl, hfield, rfl, (skipSpace_suffix _).trans (connectiveCut_suffix bs literal)⟩

/-- The clause stands in the text from its offset on and ends, with its connective and the blanks
behind it, at `stop`. -/
structure Spans (bytes : Bytes) (c : Clause) (stop : Nat) : Prop where
  /-- It is what is found at its offset, and behind it the text goes on at `stop`. -/
  matched : matchAt c.offset (bytes.drop c.offset) = .clause c (bytes.drop stop)
  /-- It ends within the text. -/
  le_length : stop ≤ bytes.length

theorem spans_of_matchAt {bytes rest : Bytes} {offset : Nat} {found : Clause}
    (h : matchAt offset (bytes.drop offset) = .clause found rest) :
    found.Spans bytes (offset + ((bytes.drop offset).length - rest.length)) ∧
      bytes.drop (offset + ((bytes.drop offset).length - rest.length)) = rest := by
  have hat := foundAt_of_matchAt h
  have hrest : bytes.drop (offset + ((bytes.drop offset).length - rest.length)) = rest := by
    rw [← List.drop_drop]
    exact (List.suffix_iff_eq_drop.1 hat.suffix).symm
  have hshorter := length_rest_lt h
  rw [List.length_drop] at hshorter
  refine ⟨⟨?_, ?_⟩, hrest⟩
  · rw [hrest, hat.offset_eq, h]
  · rw [List.length_drop]
    omega

/-- A field may begin at the offset: at the front of the text, behind a byte of no word, or where
the clause before it ends. -/
def AtWordStart (bytes : Bytes) (last : Option Clause) (offset : Nat) : Prop :=
  offset = 0 ∨ (∃ b, bytes[offset - 1]? = some b ∧ isWordByte b = false) ∨
    ∃ previous ∈ last, previous.Spans bytes offset

/-- Clauses of a text, one behind the other and behind `last`, each with a whole word as its
field. -/
inductive WholeWords (bytes : Bytes) : Option Clause → List Clause → Prop where
  | nil (last : Option Clause) : WholeWords bytes last []
  | cons {last : Option Clause} {c : Clause} {clauses : List Clause}
    (hspans : ∃ stop, c.Spans bytes stop) (hstart : AtWordStart bytes last c.offset)
    (hfield : c.condition.field = asciiText ((bytes.drop c.offset).takeWhile isWordByte))
    (hclauses : WholeWords bytes (some c) clauses) : WholeWords bytes last (c :: clauses)

/-- Any clause of the list, with the one before it. -/
theorem WholeWords.at {bytes : Bytes} {last : Option Clause} {c : Clause}
    {before after : List Clause} (h : WholeWords bytes last (before ++ c :: after)) :
    (∃ stop, c.Spans bytes stop) ∧ AtWordStart bytes (before.getLast?.or last) c.offset ∧
      c.condition.field = asciiText ((bytes.drop c.offset).takeWhile isWordByte) := by
  induction before generalizing last with
  | nil =>
    cases h with
    | cons hspans hstart hfield _ => exact ⟨hspans, hstart, hfield⟩
  | cons first before ih =>
    cases h with
    | cons _ _ _ hclauses =>
      have hlast : before.getLast?.or (some first) = (first :: before).getLast?.or last := by
        cases hb : before.getLast? <;> simp [List.getLast?_cons, hb]
      rw [← hlast]
      exact ih hclauses

end Clause

/-! ## Passing words whole -/

namespace Search

open Clause

/-- How many bytes hold no clause if none starts at the front: the word there, or one byte of no
word. -/
def skipped (bs : Bytes) : Nat := max 1 (bs.takeWhile isWordByte).length

/-- The search that goes on behind the whole word where no clause starts. -/
def runByWord (offset : Nat) (bs : Bytes) : Search :=
  match bs with
  | [] => ⟨[], none⟩
  | b :: tail =>
    match _ : matchAt offset (b :: tail) with
    | .none => runByWord (offset + skipped (b :: tail)) ((b :: tail).drop (skipped (b :: tail)))
    | .stray error => ⟨[], some error⟩
    | .clause found rest =>
      (runByWord (offset + ((b :: tail).length - rest.length)) rest).cons found
termination_by bs.length
decreasing_by
  · rw [List.length_drop, List.length_cons]
    exact Nat.sub_lt (Nat.succ_pos _) (Nat.lt_of_lt_of_le Nat.zero_lt_one (le_max_left _ _))
  · exact length_rest_lt (by assumption)

theorem runByWord_nil (offset : Nat) : runByWord offset [] = ⟨[], none⟩ := by
  rw [runByWord]

theorem runByWord_of_none {offset : Nat} {b : UInt8} {tail : Bytes}
    (h : matchAt offset (b :: tail) = .none) : runByWord offset (b :: tail)
      = runByWord (offset + skipped (b :: tail)) ((b :: tail).drop (skipped (b :: tail))) := by
  rw [runByWord]
  split <;> rename_i heq <;> rw [h] at heq <;> cases heq

theorem runByWord_of_stray {offset : Nat} {b : UInt8} {tail : Bytes} {error : PredicateError}
    (h : matchAt offset (b :: tail) = .stray error) :
    runByWord offset (b :: tail) = ⟨[], some error⟩ := by
  rw [runByWord]
  split <;> rename_i heq <;> rw [h] at heq <;> cases heq
  rfl

theorem runByWord_of_clause {offset : Nat} {b : UInt8} {tail rest : Bytes} {found : Clause}
    (h : matchAt offset (b :: tail) = .clause found rest) : runByWord offset (b :: tail)
      = (runByWord (offset + ((b :: tail).length - rest.length)) rest).cons found := by
  rw [runByWord]
  split <;> rename_i heq <;> rw [h] at heq <;> cases heq
  rfl

/-- Behind what is skipped no word goes on. -/
theorem skipped_cases (b : UInt8) (tail : Bytes) :
    (isWordByte b = true ∧ skipped (b :: tail) = ((b :: tail).takeWhile isWordByte).length) ∨
      (isWordByte b = false ∧ skipped (b :: tail) = 1) := by
  by_cases hb : isWordByte b = true
  · refine Or.inl ⟨hb, max_eq_right ?_⟩
    rw [List.takeWhile_cons_of_pos hb]
    exact Nat.succ_pos _
  · refine Or.inr ⟨Bool.not_eq_true _ ▸ hb, max_eq_left ?_⟩
    rw [List.takeWhile_cons_of_neg hb]
    exact Nat.zero_le 1

/-- In the word where no clause starts the search takes one step for each byte. -/
theorem run_drop_of_none {offset : Nat} {bs : Bytes} (h : matchAt offset bs = .none) {k : Nat}
    (hk : k ≤ (bs.takeWhile isWordByte).length) :
    run offset bs = run (offset + k) (bs.drop k) := by
  induction k with
  | zero => rfl
  | succ k ih =>
    have hlt : k < bs.length :=
      Nat.lt_of_lt_of_le hk (List.takeWhile_prefix isWordByte).length_le
    have hnone := matchAt_drop_of_none h (Nat.le_of_succ_le hk) (offset + k)
    rw [List.drop_eq_getElem_cons hlt] at hnone
    rw [ih (Nat.le_of_succ_le hk), List.drop_eq_getElem_cons hlt, run_of_none hnone,
      Nat.add_assoc]

/-- **Passing a word whole makes no difference.** -/
theorem runByWord_eq_run (offset : Nat) (bs : Bytes) : runByWord offset bs = run offset bs := by
  induction offset, bs using runByWord.induct with
  | case1 offset => rw [runByWord_nil, run_nil]
  | case2 offset b tail hnone ih =>
    rw [runByWord_of_none hnone, ih]
    rcases skipped_cases b tail with ⟨-, hskipped⟩ | ⟨-, hskipped⟩
    · rw [hskipped]
      exact (run_drop_of_none hnone (Nat.le_refl _)).symm
    · rw [hskipped, run_of_none hnone]
      rfl
  | case3 offset b tail error hstray => rw [runByWord_of_stray hstray, run_of_stray hstray]
  | case4 offset b tail found rest hclause ih =>
    rw [runByWord_of_clause hclause, run_of_clause hclause, ih]

/-! ## Where fields begin -/

/-- Each clause of a search begins a word or where the one before it ends.  The search by words
is at such a place or at a byte of no word, where no clause starts. -/
theorem wholeWords_runByWord {bytes : Bytes} (offset : Nat) (bs : Bytes)
    (hbs : bytes.drop offset = bs) (last : Option Clause)
    (hplace : AtWordStart bytes last offset ∨ Stops isWordByte bs) :
    WholeWords bytes last (runByWord offset bs).clauses := by
  induction offset, bs using runByWord.induct generalizing last with
  | case1 offset =>
    rw [runByWord_nil]
    exact .nil last
  | case2 offset b tail hnone ih =>
    rw [runByWord_of_none hnone]
    refine ih (by rw [← hbs, List.drop_drop]) last ?_
    rcases skipped_cases b tail with ⟨hb, hskipped⟩ | ⟨hb, hskipped⟩
    · refine Or.inr ?_
      rw [hskipped, drop_length_takeWhile]
      exact stops_dropWhile isWordByte (b :: tail)
    · refine Or.inl (Or.inr (Or.inl ⟨b, ?_, hb⟩))
      rw [hskipped, Nat.add_sub_cancel, ← List.head?_drop, hbs]
      rfl
  | case3 offset b tail error hstray =>
    rw [runByWord_of_stray hstray]
    exact .nil last
  | case4 offset b tail found rest hclause ih =>
    rw [runByWord_of_clause hclause]
    have hat := foundAt_of_matchAt hclause
    obtain ⟨hspans, hrest⟩ := spans_of_matchAt (hbs.symm ▸ hclause)
    rw [hbs] at hspans hrest
    have hstart : AtWordStart bytes last found.offset := by
      rw [hat.offset_eq]
      exact hplace.resolve_right fun hstops => hat.word_ne_nil hstops.takeWhile_eq
    refine .cons ⟨_, hspans⟩ hstart ?_ (ih hrest (some found) (Or.inl ?_))
    · rw [hat.offset_eq, hbs, hat.field_eq]
    · exact Or.inr (Or.inr ⟨found, rfl, hspans⟩)

end Search

/-- The conditions of a predicate text, read by the search that passes words whole. -/
def ConditionSet.parseByWord (text : String) : Except PredicateError ConditionSet :=
  match (Search.runByWord 0 (Utf8.encode text)).stopped with
  | some error => .error error
  | none => .ok (Search.runByWord 0 (Utf8.encode text)).conditionSet

open Clause

/-- **A condition never reads a truncated identifier.**  Each clause found in a text stands at its
offset with the whole rest of a word as its field, and its offset is the front of the text, lies
behind a byte of no word, or is where the clause before it ended.  Where no clause starts none
starts later in the same word, and no error does; so passing such words whole gives the same
conditions, the same number of connectives with a bar and the same error. -/
theorem ConditionSet.parse_whole_words (text : String) :
    (∀ before c after, (Search.ofText text).clauses = before ++ c :: after →
      (∃ stop, c.Spans (Utf8.encode text) stop) ∧
      c.condition.field
        = asciiText (((Utf8.encode text).drop c.offset).takeWhile isWordByte) ∧
      (c.offset = 0 ∨
        (∃ b, (Utf8.encode text)[c.offset - 1]? = some b ∧ isWordByte b = false) ∨
        ∃ previous ∈ before.getLast?, previous.Spans (Utf8.encode text) c.offset)) ∧
    (∀ p k, matchAt p ((Utf8.encode text).drop p) = .none →
      k < (((Utf8.encode text).drop p).takeWhile isWordByte).length →
      matchAt (p + k) ((Utf8.encode text).drop (p + k)) = .none) ∧
    Search.runByWord 0 (Utf8.encode text) = Search.ofText text ∧
    ConditionSet.parseByWord text = ConditionSet.parse text := by
  have hrun : Search.runByWord 0 (Utf8.encode text) = Search.ofText text :=
    Search.runByWord_eq_run 0 _
  refine ⟨fun before c after hclauses => ?_, fun p k hnone hk => ?_, hrun, ?_⟩
  · have hwords : WholeWords (Utf8.encode text) none
        (Search.runByWord 0 (Utf8.encode text)).clauses :=
      Search.wholeWords_runByWord 0 _ rfl none (Or.inl (Or.inl rfl))
    rw [hrun, hclauses] at hwords
    obtain ⟨hspans, hstart, hfield⟩ := hwords.at
    rw [Option.or_none] at hstart
    exact ⟨hspans, hfield, hstart⟩
  · rw [← List.drop_drop]
    exact matchAt_drop_of_none hnone hk.le (p + k)
  · rw [ConditionSet.parseByWord, hrun]
    rfl

set_option maxRecDepth 100000 in
/-- In `state a>1b>2` there is nothing inside the first word, and the field `b` stands behind a
digit because the clause before it ends there. -/
theorem ConditionSet.parse_whole_words_glued :
    let text := "state a>1b>2"
    let a : Clause := ⟨6, ⟨"a", .gt, .ofBits 0x3FF0000000000000, "1"⟩, false⟩
    let b : Clause := ⟨9, ⟨"b", .gt, .ofBits 0x4000000000000000, "2"⟩, false⟩
    (Search.ofText text).clauses = [a, b] ∧ a.Spans (Utf8.encode text) 9 ∧
      matchAt 2 ((Utf8.encode text).drop 2) = .none ∧
      ConditionSet.parseByWord text = .ok ⟨[a.condition, b.condition], 0⟩ := by
  intro text a b
  have hclauses : (Search.ofText text).clauses = [a, b] := by decide +kernel
  obtain ⟨hwords, hinside, -, hparse⟩ := ConditionSet.parse_whole_words text
  refine ⟨hclauses, ?_, hinside 0 2 ?_ ?_, ?_⟩
  · obtain ⟨-, -, hfront | hbehind | hglued⟩ := hwords [a] b [] hclauses
    · exact absurd hfront (by decide)
    · exact absurd hbehind (by decide +kernel)
    · obtain ⟨previous, hprevious, hspans⟩ := hglued
      obtain rfl : a = previous := Option.some_inj.1 hprevious
      exact hspans
  · exact matchAt_eq_none_iff.2 (by decide +kernel)
  · decide +kernel
  · rw [hparse]
    decide +kernel

end LogSplit
