import LogSplit.Number.Numeral
import LogSplit.Predicate.Condition
import LogSplit.Text.Utf8

/-!
# Clauses of a predicate text

A predicate text is searched from left to right for clauses: a word of ASCII letters, digits
and underscores, one or two operator characters, a signed decimal, and after it possibly one
or two connective characters, with blanks allowed between the four.  Text that starts no
clause is skipped byte by byte, and the search goes on behind each clause, so that
connectives only separate.

Two things can stop a clause.  If a part is missing the clause is simply not there.  If only
its operator is misspelt the whole search ends with an error.

Everything here works on the bytes of the text.  No byte of a character outside ASCII is a
word, operator, digit, connective or blank byte, so every part of a clause is ASCII text.
-/

set_option autoImplicit false

namespace LogSplit

/-- Why a predicate text cannot be used. -/
inductive PredicateError where
  /-- A clause whose operator has none of the six spellings, with the byte offset of the
  operator in the text. -/
  | unknownOperator (spelling : String) (position : Nat)
  deriving DecidableEq, Repr

namespace PredicateError

/-- The message shown to the user. -/
def message : PredicateError → String
  | unknownOperator spelling position =>
    Operator.unknownMessage spelling ++ " at position " ++ toString position
      ++ " (expected one of <, <=, >, >=, ==, !=)"

end PredicateError

namespace Clause

/-! ## Classes of bytes -/

/-- An ASCII digit. -/
def isDigitByte (b : UInt8) : Bool := 48 ≤ b.toNat && b.toNat ≤ 57

/-- An ASCII letter, an ASCII digit or an underscore. -/
def isWordByte (b : UInt8) : Bool :=
  isDigitByte b || (65 ≤ b.toNat && b.toNat ≤ 90) || (97 ≤ b.toNat && b.toNat ≤ 122)
    || b.toNat == 95

/-- Space, tab, line feed, vertical tab, form feed or carriage return. -/
def isSpaceByte (b : UInt8) : Bool := b.toNat == 32 || (9 ≤ b.toNat && b.toNat ≤ 13)

/-- One of `!`, `=`, `>` and `<`. -/
def isOperatorByte (b : UInt8) : Bool := b.toNat == 33 || (60 ≤ b.toNat && b.toNat ≤ 62)

/-- One of `&` and `|`. -/
def isConnectiveByte (b : UInt8) : Bool := b.toNat == 38 || b.toNat == 124

/-! ## Runs of bytes -/

/-- The longest front part, of at most `limit` bytes, whose bytes all satisfy `p`, and the
rest. -/
def spanUpTo (p : UInt8 → Bool) : Nat → Bytes → Bytes × Bytes
  | 0, bs => ([], bs)
  | _ + 1, [] => ([], [])
  | limit + 1, b :: bs =>
    if p b then ((b :: (spanUpTo p limit bs).1), (spanUpTo p limit bs).2) else ([], b :: bs)

theorem length_spanUpTo_le (p : UInt8 → Bool) (limit : Nat) (bs : Bytes) :
    (spanUpTo p limit bs).2.length ≤ bs.length := by
  induction bs generalizing limit with
  | nil => cases limit <;> simp [spanUpTo]
  | cons b bs ih =>
    cases limit with
    | zero => simp [spanUpTo]
    | succ limit =>
      unfold spanUpTo
      split
      · exact Nat.le_succ_of_le (ih limit)
      · simp

theorem spanUpTo_append (p : UInt8 → Bool) (limit : Nat) (bs : Bytes) :
    (spanUpTo p limit bs).1 ++ (spanUpTo p limit bs).2 = bs := by
  induction bs generalizing limit with
  | nil => cases limit <;> rfl
  | cons b bs ih =>
    cases limit with
    | zero => rfl
    | succ limit =>
      unfold spanUpTo
      split
      · simp [ih limit]
      · rfl

/-- The bytes behind the blanks at the front. -/
def skipSpace (bs : Bytes) : Bytes := bs.dropWhile isSpaceByte

theorem length_skipSpace_le (bs : Bytes) : (skipSpace bs).length ≤ bs.length :=
  (List.dropWhile_suffix isSpaceByte).length_le

/-- The text of bytes that are all ASCII. -/
def asciiText (bs : Bytes) : String := String.ofList (bs.map fun b => Char.ofNat b.toNat)

/-! ## Numbers -/

/-- The digits behind a point at the front, with the point, if there is a digit. -/
def fraction (bs : Bytes) : Bytes :=
  match bs with
  | [] => []
  | b :: rest =>
    let ds := rest.takeWhile isDigitByte
    if b.toNat = 46 ∧ ds ≠ [] then b :: ds else []

/-- The longest decimal without a sign at the front: digits, and a point only if a digit
follows it; at least one digit in all. -/
def unsigned? (bs : Bytes) : Option Bytes :=
  let whole := bs.takeWhile isDigitByte
  let part := fraction (bs.drop whole.length)
  if whole.isEmpty && part.isEmpty then none else some (whole ++ part)

/-- The longest decimal at the front, with an optional minus sign. -/
def number? : Bytes → Option Bytes
  | [] => none
  | b :: rest => if b.toNat = 45 then (unsigned? rest).map (b :: ·) else unsigned? (b :: rest)

end Clause

/-- A clause found in a predicate text. -/
structure Clause where
  /-- The byte offset of its first byte. -/
  offset : Nat
  /-- What it asks for. -/
  condition : Condition
  /-- Whether the connective behind it contains a bar. -/
  isOr : Bool
  deriving DecidableEq

namespace Clause

/-- What stands at one place of a predicate text. -/
inductive Match where
  /-- No clause starts here. -/
  | none
  /-- A clause, and the bytes behind it and its connective. -/
  | clause (found : Clause) (rest : Bytes)
  /-- A clause but for its operator. -/
  | stray (error : PredicateError)

/-- What stands at the front of `bs`, of which the first byte has the given offset. -/
def matchAt (offset : Nat) (bs : Bytes) : Match :=
  let field := bs.takeWhile isWordByte
  if field.isEmpty then .none else
  let atOperator := skipSpace (bs.drop field.length)
  let (operator, afterOperator) := spanUpTo isOperatorByte 2 atOperator
  if operator.isEmpty then .none else
  let atNumber := skipSpace afterOperator
  match number? atNumber with
  | .none => .none
  | some literal =>
    match Operator.ofText? (asciiText operator) with
    | .none =>
      .stray (.unknownOperator (asciiText operator) (offset + (bs.length - atOperator.length)))
    | some op =>
      match Binary64.ofText? (asciiText literal) with
      | .none => .none
      | some threshold =>
        let (connective, afterConnective) :=
          spanUpTo isConnectiveByte 2 (skipSpace (atNumber.drop literal.length))
        .clause ⟨offset, ⟨asciiText field, op, threshold, asciiText literal⟩,
            connective.any fun b => b.toNat == 124⟩
          (skipSpace afterConnective)

/-- Behind a clause there is less text than before it. -/
theorem length_rest_lt {offset : Nat} {bs : Bytes} {found : Clause} {rest : Bytes}
    (h : matchAt offset bs = .clause found rest) : rest.length < bs.length := by
  simp only [matchAt] at h
  split at h
  · simp at h
  rename_i hfield
  split at h
  · simp at h
  split at h
  · simp at h
  split at h
  · simp at h
  split at h
  · simp at h
  simp only [Match.clause.injEq] at h
  have hpos : 0 < (bs.takeWhile isWordByte).length := by
    cases hf : bs.takeWhile isWordByte with
    | nil => simp [hf] at hfield
    | cons b t => simp
  have hle : (bs.takeWhile isWordByte).length ≤ bs.length :=
    (List.takeWhile_prefix isWordByte).length_le
  rw [← h.2]
  refine Nat.lt_of_le_of_lt (length_skipSpace_le _) ?_
  refine Nat.lt_of_le_of_lt (length_spanUpTo_le _ _ _) ?_
  refine Nat.lt_of_le_of_lt (length_skipSpace_le _) ?_
  rw [List.length_drop]
  refine Nat.lt_of_le_of_lt (Nat.sub_le _ _) ?_
  refine Nat.lt_of_le_of_lt (length_skipSpace_le _) ?_
  refine Nat.lt_of_le_of_lt (length_spanUpTo_le _ _ _) ?_
  refine Nat.lt_of_le_of_lt (length_skipSpace_le _) ?_
  rw [List.length_drop]
  omega

end Clause

/-- The outcome of a search for clauses. -/
structure Search where
  /-- The clauses found, from left to right. -/
  clauses : List Clause
  /-- What ended the search before the end of the text. -/
  stopped : Option PredicateError
  deriving DecidableEq

namespace Search

/-- The outcome with one more clause in front. -/
def cons (c : Clause) (s : Search) : Search := ⟨c :: s.clauses, s.stopped⟩

/-- Searches `bs`, of which the first byte has the given offset. -/
def run (offset : Nat) (bs : Bytes) : Search :=
  match bs with
  | [] => ⟨[], none⟩
  | b :: tail =>
    match h : Clause.matchAt offset (b :: tail) with
    | .none => run (offset + 1) tail
    | .stray error => ⟨[], some error⟩
    | .clause found rest =>
      (run (offset + ((b :: tail).length - rest.length)) rest).cons found
termination_by bs.length
decreasing_by
  · simp
  · exact Clause.length_rest_lt h

/-- The clauses of a predicate text. -/
def ofText (text : String) : Search := run 0 (Utf8.encode text)

/-- The conditions of the clauses, and how many of their connectives contain a bar. -/
def conditionSet (s : Search) : ConditionSet :=
  ⟨s.clauses.map (·.condition), s.clauses.countP (·.isOr)⟩

end Search

/-- The conditions that a predicate text asks for.  A text without a clause asks for none. -/
def ConditionSet.parse (text : String) : Except PredicateError ConditionSet :=
  match (Search.ofText text).stopped with
  | some error => .error error
  | none => .ok (Search.ofText text).conditionSet

end LogSplit
