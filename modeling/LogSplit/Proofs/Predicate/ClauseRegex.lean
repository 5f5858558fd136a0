import LogSplit.Predicate.Clause
import LogSplit.Proofs.Predicate.RegexBytes

/-!
# Clauses as matches of a regular expression

The reader of clauses never goes back: it takes the longest word, the longest operator, the
longest number and what connectives and blanks there are.  The regular expression for a clause is
tried in all ways, and what is shown here is that on bytes the first of them is the one the reader
takes, and that there is none where the reader finds no clause (`head?_outcomes_regex`,
`outcomes_regex_eq_nil`).

The reason is the same for all parts but the number: a class that has been repeated as often as
can be and what follows it have no byte in common, so a shorter reading is stuck.  The number
begins with an optional part that may take digits from the ones behind it; for it all readings are
compared (`head?_readings_number`).
-/

set_option autoImplicit false

namespace LogSplit

open Regex

/-! ## The expression -/

/-- The classes of characters that a clause is written with. -/
structure ClauseClasses (α : Type) where
  /-- `\w` -/
  word : α → Bool
  /-- `\s` -/
  space : α → Bool
  /-- `[!=><]` -/
  operator : α → Bool
  /-- `-` -/
  minus : α → Bool
  /-- `\d` -/
  digit : α → Bool
  /-- `\.` -/
  point : α → Bool
  /-- `[&|]` -/
  connective : α → Bool

namespace ClauseClasses

variable {α : Type} (k : ClauseClasses α)

/-- `\s*` -/
def spaces : Regex α := chars k.space 0 none

/-- `(-?\d*\.?)?\d+`, with group 4 -/
def number : Regex α :=
  seq (optional (group 4 (seq (chars k.minus 0 (some 1))
    (seq (chars k.digit 0 none) (chars k.point 0 (some 1)))))) (chars k.digit 1 none)

/-- `\s*([&|]{0,2})\s*`, with group 5 -/
def separator : Regex α :=
  seq k.spaces (seq (group 5 (chars k.connective 0 (some 2))) k.spaces)

/-- `\s*((-?\d*\.?)?\d+)\s*([&|]{0,2})\s*` -/
def afterOperator : Regex α := seq k.spaces (seq (group 3 k.number) k.separator)

/-- `\s*([!=><]{1,2})\s*((-?\d*\.?)?\d+)\s*([&|]{0,2})\s*` -/
def afterField : Regex α :=
  seq k.spaces (seq (group 2 (chars k.operator 1 (some 2))) k.afterOperator)

/-- `(\w+)\s*([!=><]{1,2})\s*((-?\d*\.?)?\d+)\s*([&|]{0,2})\s*` -/
def regex : Regex α := seq (group 1 (chars k.word 1 none)) k.afterField

end ClauseClasses

namespace Clause

/-- The classes on bytes. -/
def byteClasses : ClauseClasses UInt8 where
  word := isWordByte
  space := isSpaceByte
  operator := isOperatorByte
  minus b := b.toNat == 45
  digit := isDigitByte
  point b := b.toNat == 46
  connective := isConnectiveByte

theorem cutFront_some (p : UInt8 → Bool) (bs : Bytes) :
    ∀ limit, cutFront p (some limit) bs = spanUpTo p limit bs := by
  induction bs with
  | nil => intro limit; cases limit <;> rfl
  | cons b bs ih =>
    intro limit
    cases limit with
    | zero => rfl
    | succ limit =>
      rw [cutFront, spanUpTo]
      cases hb : p b <;> simp [ih]

theorem drop_length_takeWhile (p : UInt8 → Bool) (bs : Bytes) :
    bs.drop (bs.takeWhile p).length = bs.dropWhile p := by
  have h : (bs.takeWhile p ++ bs.dropWhile p).drop (bs.takeWhile p).length = bs.dropWhile p :=
    List.drop_left
  rwa [List.takeWhile_append_dropWhile] at h

/-! ## The number -/

theorem isDigitByte_of_toNat {b : UInt8} (h : b.toNat = 45 ∨ b.toNat = 46) :
    isDigitByte b = false := by
  rcases h with h | h <;> simp [isDigitByte, h]

/-- Digits at the front, which a reading of `\d+` begins with. -/
theorem head?_readings_digits (bs : Bytes) :
    ((chars isDigitByte 1 none).readings bs).head?
      = if bs.takeWhile isDigitByte ≠ [] then
          some (bs.takeWhile isDigitByte, bs.dropWhile isDigitByte)
        else none := by
  rw [readings, head?_repeats, cutFront_none]
  exact if_congr (by rw [← List.length_pos_iff]; rfl) rfl rfl

theorem fraction_cons_point {b : UInt8} (hb : b.toNat = 46) (bs : Bytes) :
    fraction (b :: bs) = if bs.takeWhile isDigitByte ≠ [] then b :: bs.takeWhile isDigitByte
      else [] := by
  simp [fraction, hb]

theorem fraction_cons_of_ne {b : UInt8} (hb : b.toNat ≠ 46) (bs : Bytes) :
    fraction (b :: bs) = [] := by
  simp [fraction, hb]

/-- `\.?\d+`: a point is read if a digit follows it. -/
theorem head?_readings_point (bs : Bytes) :
    ((seq (chars byteClasses.point 0 (some 1)) (chars isDigitByte 1 none)).readings bs).head?
      = if fraction bs ≠ [] then some (fraction bs, bs.drop (fraction bs).length)
        else if bs.takeWhile isDigitByte ≠ [] then
          some (bs.takeWhile isDigitByte, bs.dropWhile isDigitByte)
        else none := by
  cases bs with
  | nil => rfl
  | cons b bs =>
    by_cases hb : b.toNat = 46
    · have hdigit : (b :: bs).takeWhile isDigitByte = [] := by
        rw [List.takeWhile_cons_of_neg (by simp [isDigitByte_of_toNat (Or.inr hb)])]
      have hcuts : (chars byteClasses.point 0 (some 1)).readings (b :: bs)
          = [([b], bs), ([], b :: bs)] := by
        cases bs <;> simp [readings, repeats, byteClasses, hb]
      rw [readings_seq, hcuts, List.flatMap_cons, List.flatMap_cons, List.flatMap_nil,
        List.append_nil, List.head?_append, List.head?_map, List.head?_map,
        head?_readings_digits, head?_readings_digits, hdigit, fraction_cons_point hb]
      by_cases hds : bs.takeWhile isDigitByte = []
      · simp [hds]
      · simp [hds, drop_length_takeWhile]
    · have hcuts : (chars byteClasses.point 0 (some 1)).readings (b :: bs) = [([], b :: bs)] := by
        simp [readings, repeats, byteClasses, hb]
      rw [readings_seq, hcuts, List.flatMap_cons, List.flatMap_nil, List.append_nil, List.head?_map,
        head?_readings_digits, fraction_cons_of_ne hb]
      simp

/-- `\d*\.?\d+` -/
theorem head?_readings_unsigned (bs : Bytes) :
    ((seq (chars isDigitByte 0 none) (seq (chars byteClasses.point 0 (some 1))
        (chars isDigitByte 1 none))).readings bs).head?
      = (unsigned? bs).map fun text => (text, bs.drop text.length) := by
  induction bs with
  | nil => rfl
  | cons b bs ih =>
    cases hb : isDigitByte b with
    | false =>
      rw [readings_seq_chars_of_not (by simpa using hb), head?_readings_point, unsigned?]
      by_cases hf : fraction (b :: bs) = [] <;> simp [hb, hf]
    | true =>
      have hpoint : b.toNat ≠ 46 := fun h => by
        rw [isDigitByte_of_toNat (Or.inr h)] at hb
        cases hb
      have hlast : ((seq (chars byteClasses.point 0 (some 1))
          (chars isDigitByte 1 none)).readings (b :: bs)).head?
            = some (b :: bs.takeWhile isDigitByte, bs.dropWhile isDigitByte) := by
        rw [head?_readings_point, fraction_cons_of_ne hpoint]
        simp [hb]
      rw [readings_seq_chars_cons hb, List.head?_append, List.head?_map, ih, hlast, unsigned?,
        unsigned?]
      -- without the first digit there may be nothing to read behind it
      by_cases hnone : bs.takeWhile isDigitByte = [] ∧ fraction bs = []
      · have hw : bs.dropWhile isDigitByte = bs := by
          rw [← drop_length_takeWhile, hnone.1]
          rfl
        simp [hb, hnone.1, hnone.2, hw]
      · have hne : ¬ ((bs.takeWhile isDigitByte).isEmpty
            && (fraction (bs.drop (bs.takeWhile isDigitByte).length)).isEmpty) = true := by
          intro h
          obtain ⟨hw, hf⟩ := Bool.and_eq_true_iff.1 h
          rw [List.isEmpty_iff.1 hw] at hf
          exact hnone ⟨List.isEmpty_iff.1 hw, List.isEmpty_iff.1 hf⟩
        rw [if_neg hne]
        simp [hb]

theorem unsigned?_eq_none_iff {bs : Bytes} :
    unsigned? bs = none ↔ bs.takeWhile isDigitByte = [] ∧ fraction bs = [] := by
  rw [unsigned?]
  by_cases hw : bs.takeWhile isDigitByte = []
  · by_cases hf : fraction bs = [] <;> simp [hw, hf]
  · simp [hw]

/-- The number of a clause, with its optional part spelt out. -/
theorem readings_number (bs : Bytes) :
    byteClasses.number.readings bs
      = (seq (chars byteClasses.minus 0 (some 1)) (seq (chars isDigitByte 0 none)
          (seq (chars byteClasses.point 0 (some 1)) (chars isDigitByte 1 none)))).readings bs
        ++ (chars isDigitByte 1 none).readings bs := by
  rw [ClauseClasses.number, readings_seq_optional]
  refine congrArg (· ++ _) ((readings_seq_assoc _ _ _ bs).trans ?_)
  rw [readings_seq, readings_seq]
  exact List.flatMap_congr fun cut _ => by rw [readings_seq_assoc]; rfl

/-- **The number of a clause** is read as a decimal, as long as can be. -/
theorem head?_readings_number (bs : Bytes) :
    (byteClasses.number.readings bs).head?
      = (number? bs).map fun text => (text, bs.drop text.length) := by
  rw [readings_number, List.head?_append]
  cases bs with
  | nil => rfl
  | cons b bs =>
    by_cases hb : b.toNat = 45
    · have hdigit : (b :: bs).takeWhile isDigitByte = [] :=
        List.takeWhile_cons_of_neg (by simp [isDigitByte_of_toNat (Or.inl hb)])
      have hnone : unsigned? (b :: bs) = none :=
        unsigned?_eq_none_iff.2 ⟨hdigit, fraction_cons_of_ne (by omega) bs⟩
      have hcuts : (chars byteClasses.minus 0 (some 1)).readings (b :: bs)
          = [([b], bs), ([], b :: bs)] := by
        cases bs <;> simp [readings, repeats, byteClasses, hb]
      rw [readings_seq, hcuts, List.flatMap_cons, List.flatMap_cons, List.flatMap_nil,
        List.append_nil, List.head?_append, List.head?_map, List.head?_map,
        head?_readings_unsigned, head?_readings_unsigned, hnone, head?_readings_digits, hdigit,
        number?, if_pos hb]
      cases unsigned? bs <;> simp
    · have hminus : ∀ x ∈ (b :: bs).head?, byteClasses.minus x = false := by
        simp [byteClasses, hb]
      rw [readings_seq_chars_of_not hminus, head?_readings_unsigned, number?, if_neg hb]
      cases hu : unsigned? (b :: bs) with
      | none => rw [head?_readings_digits, (unsigned?_eq_none_iff.1 hu).1]; rfl
      | some text => rfl

/-! ## No two parts can begin with the same byte -/

theorem not_space_of_word {b : UInt8} (h : isWordByte b = true) : isSpaceByte b = false := by
  rw [← Bool.not_eq_true]
  simp [isWordByte, isDigitByte, isSpaceByte] at h ⊢
  omega

theorem not_operator_of_word {b : UInt8} (h : isWordByte b = true) :
    isOperatorByte b = false := by
  rw [← Bool.not_eq_true]
  simp [isWordByte, isDigitByte, isOperatorByte] at h ⊢
  omega

theorem not_operator_of_space {b : UInt8} (h : isSpaceByte b = true) :
    isOperatorByte b = false := by
  rw [← Bool.not_eq_true]
  simp [isSpaceByte, isOperatorByte] at h ⊢
  omega

/-- A byte that is neither a digit, a minus sign nor a point is no beginning of a number. -/
theorem stuckAt_number {b : UInt8} (h : isSpaceByte b = true ∨ isOperatorByte b = true) :
    StuckAt byteWidth byteClasses.number b := by
  have hminus : byteClasses.minus b = false := by
    rw [← Bool.not_eq_true]
    simp [byteClasses, isSpaceByte, isOperatorByte] at h ⊢
    omega
  have hpoint : byteClasses.point b = false := by
    rw [← Bool.not_eq_true]
    simp [byteClasses, isSpaceByte, isOperatorByte] at h ⊢
    omega
  have hdigit : byteClasses.digit b = false := by
    rw [← Bool.not_eq_true]
    simp [byteClasses, isDigitByte, isSpaceByte, isOperatorByte] at h ⊢
    omega
  intro offset bs
  simp [ClauseClasses.number, outcomes, repeats, Outcome.append, hminus, hpoint, hdigit]

theorem stuckAt_operator {b : UInt8} (h : isOperatorByte b = false) (r : Regex UInt8) :
    StuckAt byteWidth (seq (group 2 (chars isOperatorByte 1 (some 2))) r) b :=
  ((stuckAt_chars h 0 _).group 2).seq r

theorem stuckAt_spaces_number {b : UInt8} (h : isOperatorByte b = true) (r : Regex UInt8) :
    StuckAt byteWidth (seq byteClasses.spaces (seq (group 3 byteClasses.number) r)) b := by
  have hspace : isSpaceByte b = false := by
    rw [← Bool.not_eq_true]
    exact fun hs => by rw [not_operator_of_space hs] at h; cases h
  exact (((stuckAt_number (Or.inr h)).group 3).seq r).chars_seq hspace none

/-! ## The whole clause -/

theorem cutFront_space (bs : Bytes) : (cutFront byteClasses.space none bs).2 = skipSpace bs := by
  rw [cutFront_none]
  rfl

theorem head?_outcomes_spaces (offset : Nat) (bs : Bytes) :
    (byteClasses.spaces.outcomes byteWidth offset bs).head?
      = some ⟨[], (cutFront byteClasses.space none bs).1, skipSpace bs⟩ := by
  rw [← cutFront_space]
  exact head?_outcomes_chars byteWidth (Nat.zero_le _) offset

/-- Of a separator as much is read as there is. -/
theorem head?_outcomes_separator (offset : Nat) (bs : Bytes) :
    ∃ o, (byteClasses.separator.outcomes byteWidth offset bs).head? = some o ∧
      groupText o.captures 5 = (spanUpTo isConnectiveByte 2 (skipSpace bs)).1 ∧
      o.rest = skipSpace (spanUpTo isConnectiveByte 2 (skipSpace bs)).2 := by
  have hspaces := head?_outcomes_spaces
  have hconn := fun offset bs => head?_outcomes_group (head?_outcomes_chars byteWidth
    (Nat.zero_le (cutFront byteClasses.connective (some 2) bs).1.length) offset) 5
  refine ⟨_, head?_outcomes_seq (hspaces _ _)
    (head?_outcomes_seq (hconn _ _) (hspaces _ _)), ?_, ?_⟩
  · rw [← cutFront_some]
    exact groupText_cons_self _ _ _ _
  · rw [← cutFront_some]
    rfl

/-- A number and what separates it from the next clause. -/
theorem head?_outcomes_number_separator (offset : Nat) {bs literal : Bytes}
    (h : number? bs = some literal) :
    ∃ o, ((seq (group 3 byteClasses.number) byteClasses.separator).outcomes
        byteWidth offset bs).head? = some o ∧
      groupText o.captures 3 = literal ∧
      groupText o.captures 5
        = (spanUpTo isConnectiveByte 2 (skipSpace (bs.drop literal.length))).1 ∧
      o.rest = skipSpace (spanUpTo isConnectiveByte 2 (skipSpace (bs.drop literal.length))).2 := by
  have hread := head?_readings_number bs
  rw [← map_outcomes byteWidth byteClasses.number offset bs, List.head?_map, h, Option.map_some,
    Option.map_eq_some_iff] at hread
  obtain ⟨o, ho, hcut⟩ := hread
  obtain ⟨rfl, hrest⟩ : o.text = literal ∧ o.rest = bs.drop literal.length :=
    ⟨congrArg Prod.fst hcut, congrArg Prod.snd hcut⟩
  have hnumbers : ∀ c ∈ o.captures, c.number = 4 := by
    intro c hc
    simpa [ClauseClasses.number, numbers]
      using number_mem_numbers byteClasses.number (List.mem_of_head? ho) c hc
  obtain ⟨o', ho', hconn, hend⟩ :=
    head?_outcomes_separator (offset + extent byteWidth o.text) o.rest
  refine ⟨_, head?_outcomes_seq (head?_outcomes_group ho 3) ho', ?_, ?_, ?_⟩
  · rw [Outcome.append, List.append_assoc,
      groupText_append_of_forall fun c hc => by rw [hnumbers c hc]; decide]
    exact groupText_cons_self _ _ _ _
  · rw [Outcome.append, List.append_assoc,
      groupText_append_of_forall fun c hc => by rw [hnumbers c hc]; decide, List.singleton_append,
      groupText_cons_of_ne (by simp), hconn, hrest]
  · rw [← hrest]
    exact hend

theorem outcomes_number_separator_of_none (offset : Nat) {bs : Bytes} (h : number? bs = none) :
    (seq (group 3 byteClasses.number) byteClasses.separator).outcomes byteWidth offset bs = [] := by
  have hread := head?_readings_number bs
  rw [← map_outcomes byteWidth byteClasses.number offset bs, h, Option.map_none,
    List.head?_eq_none_iff, List.map_eq_nil_iff] at hread
  rw [outcomes, outcomes, hread]
  rfl

/-! ### The places in a clause that begins at the front of `bs` -/

/-- What stands behind the field and the blanks after it. -/
def atOperator (bs : Bytes) : Bytes := skipSpace (bs.drop (bs.takeWhile isWordByte).length)

/-- The operator, and what stands behind it. -/
def operatorCut (bs : Bytes) : Bytes × Bytes := spanUpTo isOperatorByte 2 (atOperator bs)

/-- What stands behind the operator and the blanks after it. -/
def atNumber (bs : Bytes) : Bytes := skipSpace (operatorCut bs).2

/-- The connective behind a number, and what stands behind it. -/
def connectiveCut (bs literal : Bytes) : Bytes × Bytes :=
  spanUpTo isConnectiveByte 2 (skipSpace ((atNumber bs).drop literal.length))

theorem atOperator_eq (bs : Bytes) : atOperator bs = skipSpace (bs.dropWhile isWordByte) := by
  rw [atOperator, drop_length_takeWhile]

theorem length_atOperator (bs : Bytes) :
    (bs.takeWhile isWordByte).length
        + (cutFront byteClasses.space none (bs.dropWhile isWordByte)).1.length
      = bs.length - (atOperator bs).length := by
  have hword : (bs.takeWhile isWordByte).length + (bs.dropWhile isWordByte).length = bs.length := by
    rw [← List.length_append, List.takeWhile_append_dropWhile]
  have hspace : ((bs.dropWhile isWordByte).takeWhile isSpaceByte).length
      + (atOperator bs).length = (bs.dropWhile isWordByte).length := by
    rw [atOperator_eq, skipSpace, ← List.length_append, List.takeWhile_append_dropWhile]
  rw [cutFront_none]
  change _ + ((bs.dropWhile isWordByte).takeWhile isSpaceByte).length = _
  omega

theorem head?_outcomes_field (offset : Nat) {bs : Bytes} (h : bs.takeWhile isWordByte ≠ []) :
    ((group 1 (chars byteClasses.word 1 none)).outcomes byteWidth offset bs).head?
      = some ⟨[⟨1, offset, bs.takeWhile isWordByte⟩], bs.takeWhile isWordByte,
          bs.dropWhile isWordByte⟩ := by
  have hcut : cutFront byteClasses.word none bs
      = (bs.takeWhile isWordByte, bs.dropWhile isWordByte) := cutFront_none _ bs
  have hlen : 1 ≤ (cutFront byteClasses.word none bs).1.length := by
    rw [hcut]
    exact List.length_pos_iff.2 h
  have hhead := head?_outcomes_group (head?_outcomes_chars byteWidth hlen offset) 1
  rwa [hcut] at hhead

theorem head?_outcomes_operator (offset : Nat) {bs : Bytes} (h : (operatorCut bs).1 ≠ []) :
    ((group 2 (chars byteClasses.operator 1 (some 2))).outcomes byteWidth offset
      (atOperator bs)).head?
      = some ⟨[⟨2, offset, (operatorCut bs).1⟩], (operatorCut bs).1, (operatorCut bs).2⟩ := by
  have hcut : cutFront byteClasses.operator (some 2) (atOperator bs) = operatorCut bs :=
    cutFront_some _ _ 2
  have hlen : 1 ≤ (cutFront byteClasses.operator (some 2) (atOperator bs)).1.length := by
    rw [hcut]
    exact List.length_pos_iff.2 h
  have hhead := head?_outcomes_group (head?_outcomes_chars byteWidth hlen offset) 2
  rwa [hcut] at hhead

theorem head?_outcomes_afterField (offset : Nat) {bs literal : Bytes}
    (hop : (operatorCut bs).1 ≠ []) (hnum : number? (atNumber bs) = some literal) :
    ∃ o, (byteClasses.afterField.outcomes byteWidth offset (bs.dropWhile isWordByte)).head?
        = some o ∧
      groupText o.captures 2 = (operatorCut bs).1 ∧
      groupOffset o.captures 2
        = offset + (cutFront byteClasses.space none (bs.dropWhile isWordByte)).1.length ∧
      groupText o.captures 3 = literal ∧
      groupText o.captures 5 = (connectiveCut bs literal).1 ∧
      o.rest = skipSpace (connectiveCut bs literal).2 := by
  have hspaces := head?_outcomes_spaces offset (bs.dropWhile isWordByte)
  rw [← atOperator_eq] at hspaces
  obtain ⟨o, ho, h3, h5, hend⟩ := head?_outcomes_number_separator _ hnum
  refine ⟨_, head?_outcomes_seq hspaces (head?_outcomes_seq (head?_outcomes_operator _ hop)
    (head?_outcomes_seq (head?_outcomes_spaces _ _) ho)), ?_, ?_, ?_, ?_, ?_⟩
  · exact groupText_cons_self _ _ _ _
  · rw [← extent_byteWidth]
    exact groupOffset_cons_self _ _ _ _
  · exact (groupText_cons_of_ne (by simp) _).trans h3
  · exact (groupText_cons_of_ne (by simp) _).trans h5
  · exact hend

/-- **A clause with all its parts is the first reading.** -/
theorem head?_outcomes_regex (offset : Nat) {bs literal : Bytes}
    (hfield : bs.takeWhile isWordByte ≠ []) (hop : (operatorCut bs).1 ≠ [])
    (hnum : number? (atNumber bs) = some literal) :
    ∃ o, (byteClasses.regex.outcomes byteWidth offset bs).head? = some o ∧
      groupText o.captures 1 = bs.takeWhile isWordByte ∧
      groupText o.captures 2 = (operatorCut bs).1 ∧
      groupOffset o.captures 2 = offset + (bs.length - (atOperator bs).length) ∧
      groupText o.captures 3 = literal ∧
      groupText o.captures 5 = (connectiveCut bs literal).1 ∧
      o.rest = skipSpace (connectiveCut bs literal).2 := by
  obtain ⟨o, ho, h2, h2', h3, h5, hend⟩ := head?_outcomes_afterField
    (offset + extent byteWidth (bs.takeWhile isWordByte)) hop hnum
  refine ⟨_, head?_outcomes_seq (head?_outcomes_field offset hfield) ho, ?_, ?_, ?_, ?_, ?_, ?_⟩
  · exact groupText_cons_self _ _ _ _
  · exact (groupText_cons_of_ne (by simp) _).trans h2
  · rw [← length_atOperator, ← Nat.add_assoc, ← extent_byteWidth (bs.takeWhile isWordByte)]
    exact (groupOffset_cons_of_ne (by simp) _).trans h2'
  · exact (groupText_cons_of_ne (by simp) _).trans h3
  · exact (groupText_cons_of_ne (by simp) _).trans h5
  · exact hend

/-- **A clause that misses a part is no reading**, however long or short its parts are taken. -/
theorem outcomes_regex_eq_nil (offset : Nat) {bs : Bytes}
    (h : bs.takeWhile isWordByte = [] ∨ (operatorCut bs).1 = [] ∨
      number? (atNumber bs) = none) : byteClasses.regex.outcomes byteWidth offset bs = [] := by
  have hafterField : ∀ b, byteClasses.word b = true →
      StuckAt byteWidth byteClasses.afterField b :=
    fun b hb => (stuckAt_operator (not_operator_of_word hb) _).chars_seq
      (not_space_of_word hb) none
  have hoperator : ∀ b, byteClasses.space b = true → StuckAt byteWidth
      (seq (group 2 (chars byteClasses.operator 1 (some 2))) byteClasses.afterOperator) b :=
    fun b hb => stuckAt_operator (not_operator_of_space hb) _
  have hafterOperator : ∀ b, byteClasses.operator b = true →
      StuckAt byteWidth byteClasses.afterOperator b := fun b hb => stuckAt_spaces_number hb _
  have hnumber : ∀ b, byteClasses.space b = true →
      StuckAt byteWidth (seq (group 3 byteClasses.number) byteClasses.separator) b :=
    fun b hb => ((stuckAt_number (Or.inl hb)).group 3).seq _
  have hcutField : cutFront byteClasses.word none bs
      = (bs.takeWhile isWordByte, bs.dropWhile isWordByte) := cutFront_none _ bs
  have hcutOperator : cutFront byteClasses.operator (some 2) (atOperator bs) = operatorCut bs :=
    cutFront_some _ _ 2
  rw [ClauseClasses.regex, outcomes_seq_group_chars hafterField, hcutField,
    ClauseClasses.afterField, ClauseClasses.spaces, outcomes_seq_chars hoperator,
    cutFront_space, ← atOperator_eq, outcomes_seq_group_chars hafterOperator, hcutOperator,
    ClauseClasses.afterOperator, ClauseClasses.spaces, outcomes_seq_chars hnumber,
    cutFront_space]
  rcases h with h | h | h
  · simp [h]
  · simp [h]
  · have hnone : number? (skipSpace (operatorCut bs).2) = none := h
    simp [outcomes_number_separator_of_none _ hnone]

end Clause
end LogSplit
