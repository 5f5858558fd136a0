import LogSplit.Proofs.Predicate.ClauseParts

/-!
# Foreign text separates clauses

A character that no part of a clause is written with ends whatever part of a clause stands before
it, and nothing that the search looks at reaches over it.  So a predicate text with such a character
in it is read as the text before it and, after that, as the text behind it
(`ConditionSet.parse_append_foreign`).  A clause that is left unfinished in front of the character
is no clause, as it is none at the end of a text.

The search carries the offset of the bytes it reads and uses it for nothing but offsets: moving a
text by some bytes moves the clauses and the error found in it (`Search.run_add`).
-/

set_option autoImplicit false

namespace LogSplit

open Utf8 (encodeChars)

/-! ## Foreign characters -/

/-- A character of one of the parts of a clause. -/
def ClauseClasses.written {α : Type} (k : ClauseClasses α) (a : α) : Bool :=
  k.word a || k.space a || k.operator a || k.minus a || k.digit a || k.point a || k.connective a

namespace Regex.ClassEncodes

variable {p q : Char → Bool} {pByte qByte : UInt8 → Bool}

/-- What is in one of two classes. -/
theorem or (hp : ClassEncodes p pByte) (hq : ClassEncodes q qByte) :
    ClassEncodes (fun c => p c || q c) (fun b => pByte b || qByte b) where
  ascii c hc := by rw [hp.ascii c hc, hq.ascii c hc]
  char c hc := by rw [hp.char c hc, hq.char c hc, Bool.or_false]
  byte b hb := by rw [hp.byte b hb, hq.byte b hb, Bool.or_false]

/-- Every byte of a character outside a class is outside it. -/
theorem forall_byte_eq_false (h : ClassEncodes p pByte) {c : Char} (hc : p c = false) :
    ∀ b ∈ String.utf8EncodeChar c, pByte b = false := by
  intro b hb
  rcases Nat.lt_or_ge c.toNat 128 with hascii | hhigh
  · rw [Utf8.utf8EncodeChar_of_lt hascii, List.mem_singleton] at hb
    rw [hb, h.ascii c hascii, hc]
  · exact h.byte b (Utf8.le_of_mem_utf8EncodeChar hhigh hb)

end Regex.ClassEncodes

namespace Clause

theorem classEncodes_written : Regex.ClassEncodes charClasses.written byteClasses.written :=
  (((((classEncodes_word.or classEncodes_space).or classEncodes_operator).or
    classEncodes_minus).or classEncodes_digit).or classEncodes_point).or classEncodes_connective

/-! ## One place of a text -/

/-- The same with more bytes behind it. -/
def Match.append (m : Match) (ys : Bytes) : Match :=
  match m with
  | .none => .none
  | .clause found rest => .clause found (rest ++ ys)
  | .stray error => .stray error

/-- No part of a clause goes on at the front of the bytes. -/
structure StopsClause (bs : Bytes) : Prop extends StopsNumber bs where
  /-- Not a field. -/
  word : Stops isWordByte bs
  /-- Not the blanks between two parts. -/
  space : Stops isSpaceByte bs
  /-- Not an operator. -/
  operator : Stops isOperatorByte bs
  /-- Nor does a number begin with a sign there. -/
  minus : Stops byteClasses.minus bs
  /-- Not a connective. -/
  connective : Stops isConnectiveByte bs

theorem stopsClause_cons {b : UInt8} (h : byteClasses.written b = false) (bs : Bytes) :
    StopsClause (b :: bs) := by
  simp only [ClauseClasses.written, Bool.or_eq_false_iff] at h
  obtain ⟨⟨⟨⟨⟨⟨hword, hspace⟩, hoperator⟩, hminus⟩, hdigit⟩, hpoint⟩, hconnective⟩ := h
  exact {
    digit := stops_cons hdigit bs
    point := stops_cons hpoint bs
    word := stops_cons hword bs
    space := stops_cons hspace bs
    operator := stops_cons hoperator bs
    minus := stops_cons hminus bs
    connective := stops_cons hconnective bs }

section

variable {ys : Bytes} (h : StopsClause ys) (xs : Bytes)

include h

theorem atOperator_append : atOperator (xs ++ ys) = atOperator xs ++ ys := by
  rw [atOperator_eq, atOperator_eq, dropWhile_append_of_stops h.word, skipSpace_append h.space]

theorem operatorCut_append :
    operatorCut (xs ++ ys) = ((operatorCut xs).1, (operatorCut xs).2 ++ ys) := by
  rw [operatorCut, atOperator_append h, spanUpTo_append_of_stops h.operator, operatorCut]

theorem atNumber_append : atNumber (xs ++ ys) = atNumber xs ++ ys := by
  rw [atNumber, operatorCut_append h, skipSpace_append h.space, atNumber]

theorem number?_atNumber_append : number? (atNumber (xs ++ ys)) = number? (atNumber xs) := by
  rw [atNumber_append h]
  by_cases hnil : atNumber xs = []
  · rw [hnil, List.nil_append, number?_of_stops h.minus h.toStopsNumber, number?]
  · exact number?_append hnil h.toStopsNumber

theorem connectiveCut_append {literal : Bytes} (hliteral : number? (atNumber xs) = some literal) :
    connectiveCut (xs ++ ys) literal
      = ((connectiveCut xs literal).1, (connectiveCut xs literal).2 ++ ys) := by
  rw [connectiveCut, atNumber_append h,
    List.drop_append_of_le_length (prefix_of_number? hliteral).length_le, skipSpace_append h.space,
    spanUpTo_append_of_stops h.connective, connectiveCut]

/-- **What stands at a place does not reach over foreign bytes.** -/
theorem matchAt_append (offset : Nat) :
    matchAt offset (xs ++ ys) = (matchAt offset xs).append ys := by
  rcases missing_or_complete xs with
    hmissing | ⟨literal, threshold, hfield, hop, hliteral, hthreshold⟩
  · rw [matchAt_of_missing offset hmissing]
    refine matchAt_of_missing offset ?_
    rwa [takeWhile_append_of_stops h.word, operatorCut_append h, number?_atNumber_append h]
  · have hcut := operatorCut_append h xs
    rw [matchAt_of_parts offset hfield hop hliteral hthreshold,
      matchAt_of_parts offset (by rwa [takeWhile_append_of_stops h.word]) (by rwa [hcut])
        ((number?_atNumber_append h xs).trans hliteral) hthreshold,
      hcut, takeWhile_append_of_stops h.word, atOperator_append h,
      connectiveCut_append h xs hliteral, skipSpace_append h.space, List.length_append,
      List.length_append, Nat.add_sub_add_right]
    cases Operator.ofText? (asciiText (operatorCut xs).1) <;> rfl

end

end Clause

/-! ## Moving a text -/

/-- The same `k` bytes further behind. -/
def PredicateError.shift (k : Nat) : PredicateError → PredicateError
  | unknownOperator spelling position => unknownOperator spelling (position + k)

namespace Clause

/-- The same `k` bytes further behind. -/
def shift (k : Nat) (c : Clause) : Clause := { c with offset := c.offset + k }

/-- Whatever stands at a place stands there wherever the place is. -/
theorem matchAt_add (offset k : Nat) (bs : Bytes) :
    matchAt (offset + k) bs = match matchAt offset bs with
      | .none => .none
      | .clause found rest => .clause (found.shift k) rest
      | .stray error => .stray (error.shift k) := by
  rcases missing_or_complete bs with
    hmissing | ⟨literal, threshold, hfield, hop, hliteral, hthreshold⟩
  · rw [matchAt_of_missing _ hmissing, matchAt_of_missing _ hmissing]
  · rw [matchAt_of_parts _ hfield hop hliteral hthreshold,
      matchAt_of_parts _ hfield hop hliteral hthreshold, Nat.add_right_comm offset k]
    cases Operator.ofText? (asciiText (operatorCut bs).1) <;> rfl

end Clause

namespace Search

open Clause

/-- The same `k` bytes further behind. -/
def shift (k : Nat) (s : Search) : Search :=
  ⟨s.clauses.map (·.shift k), s.stopped.map (·.shift k)⟩

/-- A text further behind is read as it is read here. -/
theorem run_add (k offset : Nat) (bs : Bytes) : run (offset + k) bs = (run offset bs).shift k := by
  induction offset, bs using run.induct with
  | case1 offset => rw [run_nil, run_nil]; rfl
  | case2 offset b tail hnone ih =>
    have hmoved := matchAt_add offset k (b :: tail)
    rw [hnone] at hmoved
    rw [run_of_none hmoved, run_of_none hnone, ← ih, Nat.add_right_comm]
  | case3 offset b tail error hstray =>
    have hmoved := matchAt_add offset k (b :: tail)
    rw [hstray] at hmoved
    rw [run_of_stray hmoved, run_of_stray hstray]
    rfl
  | case4 offset b tail found rest hclause ih =>
    have hmoved := matchAt_add offset k (b :: tail)
    rw [hclause] at hmoved
    rw [run_of_clause hmoved, run_of_clause hclause, Nat.add_right_comm, ih]
    rfl

/-! ## One text behind another -/

/-- First one search, and then another unless the first has been stopped. -/
def append (s t : Search) : Search :=
  match s.stopped with
  | some error => ⟨s.clauses, some error⟩
  | none => ⟨s.clauses ++ t.clauses, t.stopped⟩

theorem cons_append (c : Clause) (s t : Search) : (s.cons c).append t = (s.append t).cons c := by
  obtain ⟨clauses, _ | error⟩ := s <;> rfl

/-- **A text with foreign bytes behind it is read as it is read alone**, and then what stands
behind it. -/
theorem run_append {ys : Bytes} (h : StopsClause ys) (offset : Nat) (xs : Bytes) :
    run offset (xs ++ ys) = (run offset xs).append (run (offset + xs.length) ys) := by
  -- by the search in the front text alone: the one in the whole text takes the same steps
  induction offset, xs using run.induct with
  | case1 offset => rw [run_nil]; rfl
  | case2 offset b tail hnone ih =>
    have hwhole : matchAt offset (b :: (tail ++ ys)) = _ := matchAt_append h (b :: tail) offset
    rw [hnone] at hwhole
    rw [run_of_none hnone, List.cons_append, run_of_none hwhole, ih, List.length_cons,
      Nat.add_assoc, Nat.add_comm 1]
  | case3 offset b tail error hstray =>
    have hwhole := matchAt_append h (b :: tail) offset
    rw [hstray] at hwhole
    rw [run_of_stray hstray, run_of_stray hwhole]
    rfl
  | case4 offset b tail found rest hclause ih =>
    have hwhole := matchAt_append h (b :: tail) offset
    have hshorter := length_rest_lt hclause
    rw [hclause] at hwhole
    rw [run_of_clause hclause, run_of_clause hwhole, List.length_append, List.length_append,
      Nat.add_sub_add_right, ih, cons_append, Nat.add_assoc offset, Nat.sub_add_cancel hshorter.le]

theorem conditionSet_append {s t : Search} (h : s.stopped = none) :
    (s.append t).conditionSet = ⟨s.conditionSet.conditions ++ t.conditionSet.conditions,
      s.conditionSet.orConnectives + t.conditionSet.orConnectives⟩ := by
  obtain ⟨clauses, stopped⟩ := s
  obtain rfl : stopped = none := h
  simp [append, conditionSet]

theorem conditionSet_shift (k : Nat) (s : Search) : (s.shift k).conditionSet = s.conditionSet := by
  simp only [conditionSet, shift, List.map_map, List.countP_map]
  rfl

end Search

/-! ## Whole texts -/

open Clause

/-- The search in a text with a foreign character in it. -/
theorem Search.ofText_append_foreign (s t : String) {c : Char}
    (hc : charClasses.written c = false) :
    Search.ofText (s ++ String.singleton c ++ t) = (Search.ofText s).append
      ((Search.ofText t).shift (s ++ String.singleton c).utf8ByteSize) := by
  have hforeign := classEncodes_written.forall_byte_eq_false hc
  rw [← Utf8.length_encode]
  simp only [Search.ofText, Utf8.encode_append, Utf8.encode_singleton, List.append_assoc,
    List.length_append]
  have hstops : StopsClause (String.utf8EncodeChar c ++ Utf8.encode t) := by
    cases hbytes : String.utf8EncodeChar c with
    | nil => exact absurd hbytes (Utf8.utf8EncodeChar_ne_nil c)
    | cons b bs =>
      refine stopsClause_cons (hforeign b ?_) _
      rw [hbytes]
      exact List.mem_cons_self
  have hword : ∀ b ∈ String.utf8EncodeChar c, isWordByte b = false :=
    fun b hb => (stopsClause_cons (hforeign b hb) []).word b rfl
  rw [run_append hstops, run_append_of_not_word hword, Nat.add_assoc, run_add]

/-- **Foreign text separates predicates.**  Around a character that no part of a clause is written
with the two sides are read each by itself: the first error is the error, counted from the
beginning of the whole text, and without one the conditions of both sides hold together. -/
theorem ConditionSet.parse_append_foreign (s t : String) (c : Char)
    (hc : charClasses.written c = false) :
    ConditionSet.parse (s ++ String.singleton c ++ t) =
      match ConditionSet.parse s, ConditionSet.parse t with
      | .error error, _ => .error error
      | .ok _, .error error => .error (error.shift (s ++ String.singleton c).utf8ByteSize)
      | .ok front, .ok back => .ok ⟨front.conditions ++ back.conditions,
          front.orConnectives + back.orConnectives⟩ := by
  rw [ConditionSet.parse, Search.ofText_append_foreign s t hc, ConditionSet.parse,
    ConditionSet.parse]
  cases hfront : (Search.ofText s).stopped with
  | some error =>
    simp [Search.append, hfront]
  | none =>
    cases hback : (Search.ofText t).stopped with
    | some error => simp [Search.append, Search.shift, hfront, hback]
    | none =>
      have hstopped : ((Search.ofText s).append ((Search.ofText t).shift
          (s ++ String.singleton c).utf8ByteSize)).stopped = none := by
        simp [Search.append, Search.shift, hfront, hback]
      rw [hstopped, Search.conditionSet_append hfront, Search.conditionSet_shift]

set_option maxRecDepth 100000 in
/-- A comparison that is cut in two by a letter with an accent is none, and an operator without a
meaning is reported where it stands in the whole text. -/
theorem ConditionSet.parse_append_foreign_accent :
    charClasses.written 'é' = false ∧
      ConditionSet.parse ("x >= 1 | y <" ++ String.singleton 'é' ++ "2 z == -.5")
        = .ok ⟨[⟨"x", .ge, .ofBits 0x3FF0000000000000, "1"⟩,
            ⟨"z", .eq, .ofBits 0xBFE0000000000000, "-.5"⟩], 1⟩ ∧
      ConditionSet.parse ("x >= 1 | y <" ++ String.singleton 'é' ++ "2 z =< 3")
        = .error (.unknownOperator "=<" 18) :=
  have hforeign : charClasses.written 'é' = false := by decide
  ⟨hforeign, (ConditionSet.parse_append_foreign _ _ 'é' hforeign).trans (by decide +kernel),
    (ConditionSet.parse_append_foreign _ _ 'é' hforeign).trans (by decide +kernel)⟩

end LogSplit
