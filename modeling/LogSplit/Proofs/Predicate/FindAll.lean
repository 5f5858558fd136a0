import LogSplit.Proofs.Predicate.ClauseRegex
import LogSplit.Proofs.Predicate.Literal

/-!
# The search for clauses is a search for matches

`charClasses.regex` is the expression `(\w+)\s*([!=><]{1,2})\s*((-?\d*\.?)?\d+)\s*([&|]{0,2})\s*`
on the characters of a predicate text.  Reading a predicate text finds one clause for each of
its matches; it never goes back and works on bytes, which makes no difference by
`outcomes_regex_eq_nil` and `outcomes_encodeChars`.
-/

set_option autoImplicit false

namespace LogSplit

namespace Clause

open Regex
open Utf8 (encodeChars)

/-! ## The expression on characters -/

/-- The classes on characters, all of them within ASCII. -/
def charClasses : ClauseClasses Char where
  word c := c.isAlphanum || c == '_'
  space c := c ∈ [' ', '\t', '\n', '\x0b', '\x0c', '\r']
  operator c := c ∈ ['!', '=', '>', '<']
  minus c := c == '-'
  digit := Char.isDigit
  point c := c == '.'
  connective c := c ∈ ['&', '|']

/-- Two classes hold the same if they agree on ASCII and hold nothing else. -/
theorem classEncodes_of {isIn : Char → Bool} {isInByte : UInt8 → Bool}
    (hascii : ∀ n < 128, isInByte (UInt8.ofNat n) = isIn (Char.ofNat n))
    (hchar : ∀ c : Char, isIn c = true → c.toNat < 128)
    (hbyte : ∀ n < 128, isInByte (UInt8.ofNat (128 + n)) = false) :
    ClassEncodes isIn isInByte where
  ascii c hc := by
    rw [hascii c.toNat hc, Char.ofNat_toNat]
  char c hc := by
    rw [← Bool.not_eq_true]
    exact fun h => absurd (hchar c h) (Nat.not_lt.2 hc)
  byte b hb := by
    have hlt := UInt8.toNat_lt b
    rw [← hbyte (b.toNat - 128) (by omega), Nat.add_sub_cancel' hb, UInt8.ofNat_toNat]

theorem toNat_lt_of_mem {cs : List Char} (hcs : cs.all (·.toNat < 128) = true) {c : Char}
    (h : decide (c ∈ cs) = true) : c.toNat < 128 :=
  of_decide_eq_true (List.all_eq_true.1 hcs c (of_decide_eq_true h))

theorem toNat_lt_of_le {c last : Char} (h : c.val ≤ last.val) (hlast : last.toNat < 128) :
    c.toNat < 128 :=
  Nat.lt_of_le_of_lt (UInt32.le_iff_toNat_le.1 h) hlast

theorem toNat_lt_of_isDigit {c : Char} (h : c.isDigit = true) : c.toNat < 128 :=
  toNat_lt_of_le (of_decide_eq_true (Bool.and_eq_true_iff.1 h).2) (by decide)

theorem toNat_lt_of_word {c : Char} (h : charClasses.word c = true) : c.toNat < 128 := by
  rcases Bool.or_eq_true_iff.1 h with h | h
  · rcases Bool.or_eq_true_iff.1 h with h | h
    · rcases Bool.or_eq_true_iff.1 h with h | h
      · exact toNat_lt_of_le (of_decide_eq_true h).2 (by decide)
      · exact toNat_lt_of_le (of_decide_eq_true (Bool.and_eq_true_iff.1 h).2) (by decide)
    · exact toNat_lt_of_isDigit h
  · rw [beq_iff_eq.1 h]
    decide

theorem classEncodes_word : ClassEncodes charClasses.word byteClasses.word :=
  classEncodes_of (by decide) (fun _ => toNat_lt_of_word) (by decide)

theorem classEncodes_space : ClassEncodes charClasses.space byteClasses.space :=
  classEncodes_of (by decide) (fun _ => toNat_lt_of_mem (by decide)) (by decide)

theorem classEncodes_operator : ClassEncodes charClasses.operator byteClasses.operator :=
  classEncodes_of (by decide) (fun _ => toNat_lt_of_mem (by decide)) (by decide)

theorem classEncodes_minus : ClassEncodes charClasses.minus byteClasses.minus :=
  classEncodes_of (by decide) (fun c h => by rw [beq_iff_eq.1 h]; decide) (by decide)

theorem classEncodes_digit : ClassEncodes charClasses.digit byteClasses.digit :=
  classEncodes_of (by decide) (fun _ => toNat_lt_of_isDigit) (by decide)

theorem classEncodes_point : ClassEncodes charClasses.point byteClasses.point :=
  classEncodes_of (by decide) (fun c h => by rw [beq_iff_eq.1 h]; decide) (by decide)

theorem classEncodes_connective : ClassEncodes charClasses.connective byteClasses.connective :=
  classEncodes_of (by decide) (fun _ => toNat_lt_of_mem (by decide)) (by decide)

/-- The expression on characters is the one on bytes. -/
theorem encodes_regex : Encodes charClasses.regex byteClasses.regex := by
  have hspaces : Encodes charClasses.spaces byteClasses.spaces := .chars classEncodes_space 0 none
  exact .seq (.group 1 (.chars classEncodes_word 1 none)) <| .seq hspaces <|
    .seq (.group 2 (.chars classEncodes_operator 1 (some 2))) <| .seq hspaces <|
    .seq (.group 3 (.seq (.optional (.group 4 (.seq (.chars classEncodes_minus 0 (some 1))
      (.seq (.chars classEncodes_digit 0 none) (.chars classEncodes_point 0 (some 1))))))
      (.chars classEncodes_digit 1 none))) <|
    .seq hspaces <| .seq (.group 5 (.chars classEncodes_connective 0 (some 2))) hspaces

/-! ## One clause -/

theorem matchAt_of_missing (offset : Nat) {bs : Bytes}
    (h : bs.takeWhile isWordByte = [] ∨ (operatorCut bs).1 = [] ∨
      number? (atNumber bs) = none) : matchAt offset bs = .none := by
  simp only [operatorCut, atNumber, atOperator] at h
  simp only [matchAt]
  rcases h with h | h | h
  · simp [h]
  · simp [h]
  · simp [h]

theorem matchAt_of_parts (offset : Nat) {bs literal : Bytes} {threshold : Binary64}
    (hfield : bs.takeWhile isWordByte ≠ []) (hop : (operatorCut bs).1 ≠ [])
    (hnum : number? (atNumber bs) = some literal)
    (hthreshold : Binary64.ofText? (asciiText literal) = some threshold) :
    matchAt offset bs = match Operator.ofText? (asciiText (operatorCut bs).1) with
      | none => .stray (.unknownOperator (asciiText (operatorCut bs).1)
          (offset + (bs.length - (atOperator bs).length)))
      | some op => .clause ⟨offset, ⟨asciiText (bs.takeWhile isWordByte), op, threshold,
            asciiText literal⟩, (connectiveCut bs literal).1.any fun b => b.toNat == 124⟩
          (skipSpace (connectiveCut bs literal).2) := by
  simp only [operatorCut, atNumber, atOperator] at hop hnum
  simp only [matchAt, List.isEmpty_iff, hfield, hop, hnum, hthreshold, if_false]
  rfl

/-- A clause misses a part, or it is complete but perhaps for the spelling of its operator. -/
theorem missing_or_complete (bs : Bytes) :
    (bs.takeWhile isWordByte = [] ∨ (operatorCut bs).1 = [] ∨ number? (atNumber bs) = none) ∨
      ∃ literal threshold, bs.takeWhile isWordByte ≠ [] ∧ (operatorCut bs).1 ≠ [] ∧
        number? (atNumber bs) = some literal ∧
        Binary64.ofText? (asciiText literal) = some threshold := by
  by_cases hmissing : bs.takeWhile isWordByte = [] ∨ (operatorCut bs).1 = [] ∨
      number? (atNumber bs) = none
  · exact Or.inl hmissing
  · obtain ⟨hfield, hop, hnum⟩ := by simpa only [not_or] using hmissing
    obtain ⟨literal, hliteral⟩ := Option.ne_none_iff_exists'.1 hnum
    obtain ⟨threshold, hthreshold⟩ := exists_ofText?_of_number? hliteral
    exact Or.inr ⟨literal, threshold, hfield, hop, hliteral, hthreshold⟩

/-- What a match says of a condition. -/
structure Describes (found : List (Capture Char)) (c : Condition) : Prop where
  /-- The field is group 1. -/
  field : c.field = String.ofList (groupText found 1)
  /-- The operator is spelt in group 2. -/
  op : Operator.ofText? (String.ofList (groupText found 2)) = some c.op
  /-- The literal is group 3. -/
  literal : c.literal = String.ofList (groupText found 3)
  /-- The threshold is the value of the literal. -/
  threshold : Binary64.ofText? c.literal = some c.threshold

/-- What the search finds at a place where there is a match with some text behind it. -/
inductive Finds (found : List (Capture Char)) (rest : List Char) : Match → Prop where
  /-- A spelling that no operator has. -/
  | stray (hop : Operator.ofText? (String.ofList (groupText found 2)) = none) :
    Finds found rest
      (.stray (.unknownOperator (String.ofList (groupText found 2)) (groupOffset found 2)))
  /-- A clause. -/
  | clause {c : Clause} (hc : Describes found c.condition)
    (hor : c.isOr = decide ('|' ∈ groupText found 5)) :
    Finds found rest (.clause c (encodeChars rest))

theorem asciiText_encodeChars {cs : List Char} (h : ∀ c ∈ cs, c.toNat < 128) :
    asciiText (encodeChars cs) = String.ofList cs := by
  refine congrArg String.ofList ?_
  induction cs with
  | nil => rfl
  | cons c cs ih =>
    have hc := h c List.mem_cons_self
    have hn : (UInt8.ofNat c.toNat).toNat = c.toNat := by
      rw [UInt8.toNat_ofNat']
      omega
    rw [Utf8.encodeChars_cons, Utf8.utf8EncodeChar_of_lt hc, List.singleton_append, List.map_cons,
      ih fun x hx => h x (List.mem_cons_of_mem _ hx), hn, Char.ofNat_toNat]

theorem any_bar_encodeChars (cs : List Char) :
    ((encodeChars cs).any fun b => b.toNat == 124) = decide ('|' ∈ cs) := by
  rw [Bool.eq_iff_iff, List.any_eq_true, decide_eq_true_iff]
  constructor
  · rintro ⟨b, hb, hbar⟩
    have hb124 : b.toNat = 124 := beq_iff_eq.1 hbar
    obtain ⟨c, hc, hcb⟩ := Utf8.exists_of_mem_encodeChars hb (by omega)
    rwa [← Char.toNat_inj.1 (show c.toNat = '|'.toNat from hcb.trans hb124)]
  · exact fun hc => ⟨124, List.mem_flatMap_of_mem hc (by decide), rfl⟩

/-- **What stands at a place is what the expression matches there.** -/
theorem matchAt_encodeChars (offset : Nat) (cs : List Char) :
    match (charClasses.regex.outcomes Char.utf8Size offset cs).head? with
    | none => matchAt offset (encodeChars cs) = .none
    | some o => Finds o.captures o.rest (matchAt offset (encodeChars cs)) := by
  have hbytes := outcomes_encodeChars encodes_regex offset cs
  rcases missing_or_complete (encodeChars cs) with
    hmissing | ⟨literal, threshold, hfield, hop, hliteral, hthreshold⟩
  · rw [outcomes_regex_eq_nil offset hmissing, eq_comm, List.map_eq_nil_iff] at hbytes
    rw [hbytes]
    exact matchAt_of_missing offset hmissing
  · obtain ⟨ob, hob, h1, h2, h2', h3, h5, hrest⟩ := head?_outcomes_regex offset hfield hop hliteral
    rw [hbytes, List.head?_map, Option.map_eq_some_iff] at hob
    obtain ⟨o, ho, rfl⟩ := hob
    have hascii := toNat_lt_of_mem_groupText encodes_regex (List.mem_of_head? ho)
    have htext : ∀ number, asciiText (groupText o.encode.captures number)
        = String.ofList (groupText o.captures number) := fun number =>
      (congrArg asciiText (groupText_map_encode _ _)).trans (asciiText_encodeChars (hascii number))
    have hoffset : groupOffset o.encode.captures 2 = groupOffset o.captures 2 :=
      groupOffset_map_encode _ _
    have hbar : (groupText o.encode.captures 5).any (fun b => b.toNat == 124)
        = decide ('|' ∈ groupText o.captures 5) :=
      (congrArg (List.any · _) (groupText_map_encode _ _)).trans (any_bar_encodeChars _)
    have hmatch := matchAt_of_parts offset hfield hop hliteral hthreshold
    rw [← h1, ← h2, ← h2', ← h5, ← hrest, ← h3, htext, htext, htext, hoffset, hbar] at hmatch
    rw [← h3, htext] at hthreshold
    rw [ho]
    change Finds o.captures o.rest (matchAt offset (encodeChars cs))
    rw [hmatch]
    cases hspelling : Operator.ofText? (String.ofList (groupText o.captures 2)) with
    | none => exact .stray hspelling
    | some op => exact .clause ⟨rfl, hspelling, rfl, hthreshold⟩ rfl

end Clause

/-! ## The whole search -/

namespace Search

open Clause Regex
open Utf8 (encodeChars)

theorem run_nil (offset : Nat) : run offset [] = ⟨[], none⟩ := by
  rw [run]

theorem run_of_none {offset : Nat} {b : UInt8} {tail : Bytes}
    (h : matchAt offset (b :: tail) = .none) : run offset (b :: tail) = run (offset + 1) tail := by
  rw [run]
  split
  · rfl
  · rename_i heq
    rw [h] at heq
    cases heq
  · rename_i heq
    rw [h] at heq
    cases heq

theorem run_of_stray {offset : Nat} {bs : Bytes} {error : PredicateError}
    (h : matchAt offset bs = .stray error) : run offset bs = ⟨[], some error⟩ := by
  cases bs with
  | nil => cases h
  | cons b tail =>
    rw [run]
    split <;> rename_i heq <;> rw [h] at heq <;> cases heq
    rfl

theorem run_of_clause {offset : Nat} {bs rest : Bytes} {found : Clause}
    (h : matchAt offset bs = .clause found rest) :
    run offset bs = (run (offset + (bs.length - rest.length)) rest).cons found := by
  cases bs with
  | nil => cases h
  | cons b tail =>
    rw [run]
    split <;> rename_i heq <;> rw [h] at heq <;> cases heq
    rfl

/-- Bytes that no field begins with are passed one by one. -/
theorem run_append_of_not_word {bs : Bytes} (h : ∀ b ∈ bs, isWordByte b = false) (rest : Bytes) :
    ∀ offset, run offset (bs ++ rest) = run (offset + bs.length) rest := by
  induction bs with
  | nil => exact fun offset => rfl
  | cons b bs ih =>
    intro offset
    have hnone : matchAt offset (b :: (bs ++ rest)) = .none :=
      matchAt_of_missing offset (Or.inl (List.takeWhile_cons_of_neg (by simp [h b])))
    rw [List.cons_append, run_of_none hnone, ih fun x hx => h x (List.mem_cons_of_mem _ hx),
      List.length_cons, Nat.add_assoc, Nat.add_comm 1]

/-- Where there is no clause the search goes on behind the next character. -/
theorem run_encodeChars_cons {offset : Nat} {c : Char} {cs : List Char}
    (h : matchAt offset (encodeChars (c :: cs)) = .none) :
    run offset (encodeChars (c :: cs)) = run (offset + c.utf8Size) (encodeChars cs) := by
  rw [Utf8.encodeChars_cons] at h ⊢
  rw [← String.length_utf8EncodeChar]
  rcases Nat.lt_or_ge c.toNat 128 with hc | hc
  · rw [Utf8.utf8EncodeChar_of_lt hc] at h ⊢
    exact run_of_none h
  · exact run_append_of_not_word
      (fun b hb => classEncodes_word.byte b (Utf8.le_of_mem_utf8EncodeChar hc hb)) _ _

/-- What the search makes of the matches in a text. -/
inductive Settles : List (List (Capture Char)) → Search → Prop where
  /-- No match is left. -/
  | done : Settles [] ⟨[], none⟩
  /-- A match with a spelling that no operator has ends the search. -/
  | stray {found : List (Capture Char)} (later : List (List (Capture Char)))
    (hop : Operator.ofText? (String.ofList (groupText found 2)) = none) :
    Settles (found :: later) ⟨[], some
      (.unknownOperator (String.ofList (groupText found 2)) (groupOffset found 2))⟩
  /-- Any other match is a clause. -/
  | clause {found : List (Capture Char)} {later : List (List (Capture Char))} {c : Clause}
    {s : Search} (hc : Describes found c.condition)
    (hor : c.isOr = decide ('|' ∈ groupText found 5)) (hs : Settles later s) :
    Settles (found :: later) (s.cons c)

/-- The search goes from match to match. -/
theorem settles_run (cs : List Char) : ∀ offset,
    Settles (charClasses.regex.findAll Char.utf8Size offset cs) (run offset (encodeChars cs)) := by
  induction hlen : cs.length using Nat.strongRecOn generalizing cs with
  | ind len ih =>
    subst hlen
    intro offset
    have hat := matchAt_encodeChars offset cs
    rw [findAll.eq_def]
    cases hhead : (charClasses.regex.outcomes Char.utf8Size offset cs).head? with
    | none =>
      rw [hhead] at hat
      cases cs with
      | nil =>
        rw [Utf8.encodeChars_nil, run]
        exact .done
      | cons c tail =>
        rw [run_encodeChars_cons hat]
        exact ih tail.length (Nat.lt_succ_self _) tail rfl _
    | some o =>
      rw [hhead] at hat
      have hcut : o.text ++ o.rest = cs := text_append_rest (List.mem_of_head? hhead)
      generalize hmatch : matchAt offset (encodeChars cs) = found at hat
      cases hat with
      | stray hop =>
        rw [run_of_stray hmatch]
        simp only
        split
        · exact .stray _ hop
        · exact .stray _ hop
      | clause hc hor =>
        -- a clause is never empty
        have hshorter := length_rest_lt hmatch
        have hrest : o.rest.length < cs.length := by
          rw [← hcut, Utf8.encodeChars_append, List.length_append] at hshorter
          rw [← hcut, List.length_append]
          have hne : o.text ≠ [] := by
            intro hnil
            rw [hnil] at hshorter
            simp at hshorter
          have := List.length_pos_iff.2 hne
          omega
        have hoffset : (encodeChars cs).length - (encodeChars o.rest).length
            = extent Char.utf8Size o.text := by
          rw [extent_utf8Size, ← hcut, Utf8.encodeChars_append, List.length_append]
          omega
        rw [run_of_clause hmatch, hoffset]
        simp only [if_pos hrest]
        exact .clause hc hor (ih _ hrest _ rfl _)

end Search

/-! ## The conditions of a text -/

open Clause Regex

theorem Search.Settles.conditionSet {found : List (List (Capture Char))} {s : Search}
    (h : Search.Settles found s) :
    match found.find? fun m => (Operator.ofText? (String.ofList (groupText m 2))).isNone with
    | some m => s.stopped = some
        (.unknownOperator (String.ofList (groupText m 2)) (groupOffset m 2))
    | none => s.stopped = none ∧ List.Forall₂ Describes found (s.clauses.map (·.condition)) ∧
        s.clauses.countP (·.isOr) = found.countP fun m => decide ('|' ∈ groupText m 5) := by
  induction h with
  | done => exact ⟨rfl, .nil, rfl⟩
  | stray later hop =>
    rw [List.find?_cons_of_pos (by rw [hop]; rfl)]
  | clause hc hor hs ih =>
    rw [List.find?_cons_of_neg (by rw [hc.op]; simp)]
    split at ih
    · exact ih
    · obtain ⟨hstopped, hconditions, hcount⟩ := ih
      refine ⟨hstopped, .cons hc hconditions, ?_⟩
      rw [Search.cons, List.countP_cons, List.countP_cons, hcount, hor]

/-- **A predicate text is read as the matches of an expression.**  If each of the matches that
`(\w+)\s*([!=><]{1,2})\s*((-?\d*\.?)?\d+)\s*([&|]{0,2})\s*` has in a text, from left to right and
without overlap, is spelt with an operator, there is one condition for each of them; otherwise
the first that is not is the error. -/
theorem ConditionSet.parse_eq_findAll (text : String) :
    let found := charClasses.regex.findAll Char.utf8Size 0 text.toList
    match found.find? fun m => (Operator.ofText? (String.ofList (groupText m 2))).isNone with
    | some m => ConditionSet.parse text
        = .error (.unknownOperator (String.ofList (groupText m 2)) (groupOffset m 2))
    | none => ∃ s, ConditionSet.parse text = .ok s ∧ List.Forall₂ Describes found s.conditions ∧
        s.orConnectives = found.countP fun m => decide ('|' ∈ groupText m 5) := by
  intro found
  have hsettles := (Search.settles_run text.toList 0).conditionSet
  rw [← Utf8.encode_eq] at hsettles
  change match found.find? fun m => (Operator.ofText? (String.ofList (groupText m 2))).isNone with
    | some m => (Search.ofText text).stopped = some
        (.unknownOperator (String.ofList (groupText m 2)) (groupOffset m 2))
    | none => (Search.ofText text).stopped = none ∧
        List.Forall₂ Describes found ((Search.ofText text).clauses.map (·.condition)) ∧
        (Search.ofText text).clauses.countP (·.isOr)
          = found.countP fun m => decide ('|' ∈ groupText m 5) at hsettles
  split at hsettles
  · rw [ConditionSet.parse, hsettles]
  · obtain ⟨hstopped, hconditions, hcount⟩ := hsettles
    rw [ConditionSet.parse, hstopped]
    exact ⟨_, rfl, hconditions, hcount⟩

end LogSplit

