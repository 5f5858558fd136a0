import LogSplit.Proofs.Predicate.ForeignText

/-!
# Clauses as they are written

A `WrittenClause` is a clause with everything that is free about how it is spelt: the blanks on
both sides of the operator, the form of the number, and what separates the clause from the next one.
The parts follow each other without any mark between them, and some of them have characters in
common: a digit may belong to a field or to a number, and a separator may be blank altogether.
Even so there is only one way to read them (`WrittenClause.matchAt_append`), and reading clauses
that have been written one after the other gives them back (`Search.run_written`).
-/

set_option autoImplicit false

namespace LogSplit

open Clause
open Utf8 (encodeChars)

/-! ## The spelling of the parts -/

/-- What a clause can name as its field. -/
structure IsFieldName (name : String) : Prop where
  /-- It is not empty. -/
  ne_empty : name ≠ ""
  /-- It is a single word. -/
  word : ∀ c ∈ name.toList, charClasses.word c = true

/-- A decimal without a sign: `5`, `1.5` or `.5`. -/
inductive IsUnsignedLiteral : List Char → Prop where
  /-- Digits alone. -/
  | digits {ds : List Char} (hne : ds ≠ []) (hds : ∀ c ∈ ds, c.isDigit = true) :
    IsUnsignedLiteral ds
  /-- A point, digits behind it, and digits in front of it or none. -/
  | point {whole ds : List Char} (hwhole : ∀ c ∈ whole, c.isDigit = true) (hne : ds ≠ [])
    (hds : ∀ c ∈ ds, c.isDigit = true) : IsUnsignedLiteral (whole ++ '.' :: ds)

/-- A decimal with a minus sign or without. -/
inductive IsLiteral : List Char → Prop where
  /-- Without. -/
  | unsigned {cs : List Char} (h : IsUnsignedLiteral cs) : IsLiteral cs
  /-- With a minus sign. -/
  | minus {cs : List Char} (h : IsUnsignedLiteral cs) : IsLiteral ('-' :: cs)

/-- A text of blanks, possibly empty. -/
structure Blanks where
  /-- The text. -/
  text : String
  /-- All its characters are blank. -/
  space : ∀ c ∈ text.toList, charClasses.space c = true

/-- What stands behind a clause: blanks, up to two connective characters, blanks. -/
structure Separator where
  /-- The blanks in front of the connective. -/
  before : Blanks
  /-- The connective. -/
  connective : String
  /-- It is written with `&` and `|`. -/
  isConnective : ∀ c ∈ connective.toList, charClasses.connective c = true
  /-- It has at most two characters. -/
  length_le : connective.toList.length ≤ 2
  /-- The blanks behind the connective. -/
  after : Blanks

/-- A separator in full. -/
def Separator.text (s : Separator) : String := s.before.text ++ s.connective ++ s.after.text

/-- A clause with its spelling, and what stands behind it. -/
structure WrittenClause where
  /-- The field. -/
  field : String
  /-- The field can be named. -/
  isFieldName : IsFieldName field
  /-- The blanks in front of the operator. -/
  before : Blanks
  /-- The operator. -/
  op : Operator
  /-- The blanks behind the operator. -/
  after : Blanks
  /-- The number. -/
  literal : String
  /-- The number is a decimal. -/
  isLiteral : IsLiteral literal.toList
  /-- What separates the clause from the next one. -/
  separator : Separator

namespace WrittenClause

/-- The clause in full. -/
def text (w : WrittenClause) : String :=
  w.field ++ w.before.text ++ w.op.text ++ w.after.text ++ w.literal ++ w.separator.text

/-- What a written clause says of the condition that is read from it. -/
structure Describes (w : WrittenClause) (c : Condition) : Prop where
  /-- The field is the one that is written. -/
  field : c.field = w.field
  /-- So is the operator. -/
  op : c.op = w.op
  /-- So is the literal. -/
  literal : c.literal = w.literal
  /-- The threshold is the value of the literal. -/
  threshold : Binary64.ofText? w.literal = some c.threshold

end WrittenClause

/-! ## Texts of one class -/

namespace Regex.ClassEncodes

variable {p : Char → Bool} {pByte : UInt8 → Bool}

theorem toNat_lt (h : ClassEncodes p pByte) {c : Char} (hc : p c = true) : c.toNat < 128 := by
  refine Nat.lt_of_not_le fun hhigh => ?_
  rw [h.char c hhigh] at hc
  cases hc

theorem forall_encodeChars (h : ClassEncodes p pByte) {cs : List Char}
    (hcs : ∀ c ∈ cs, p c = true) : ∀ b ∈ encodeChars cs, pByte b = true := by
  intro b hb
  obtain ⟨c, hc, hbc⟩ := List.mem_flatMap.1 hb
  have hascii := h.toNat_lt (hcs c hc)
  rw [Utf8.utf8EncodeChar_of_lt hascii, List.mem_singleton] at hbc
  rw [hbc, h.ascii c hascii, hcs c hc]

theorem forall_encode (h : ClassEncodes p pByte) {s : String}
    (hs : ∀ c ∈ s.toList, p c = true) : ∀ b ∈ Utf8.encode s, pByte b = true := by
  rw [Utf8.encode_eq]
  exact h.forall_encodeChars hs

theorem asciiText_encode (h : ClassEncodes p pByte) {s : String}
    (hs : ∀ c ∈ s.toList, p c = true) : asciiText (Utf8.encode s) = s := by
  rw [Utf8.encode_eq, asciiText_encodeChars fun c hc => h.toNat_lt (hs c hc),
    String.ofList_toList]

theorem length_encode (h : ClassEncodes p pByte) {s : String}
    (hs : ∀ c ∈ s.toList, p c = true) : (Utf8.encode s).length = s.toList.length := by
  conv_rhs => rw [← h.asciiText_encode hs, toList_asciiText, List.length_map]

end Regex.ClassEncodes

namespace Clause

theorem classEncodes_operand : Regex.ClassEncodes charClasses.operand byteClasses.operand :=
  (classEncodes_word.or classEncodes_minus).or classEncodes_point

theorem operand_of_isDigit {c : Char} (h : c.isDigit = true) : charClasses.operand c = true := by
  simp [ClauseClasses.operand, charClasses, Char.isAlphanum, h]

/-! ## Numbers -/

/-- The bytes of an unsigned literal are read as one number. -/
theorem isUnsigned_encodeChars {cs : List Char} (h : IsUnsignedLiteral cs) :
    IsUnsigned (encodeChars cs) := by
  have hdigits {ds : List Char} (hds : ∀ c ∈ ds, c.isDigit = true) :=
    classEncodes_digit.forall_encodeChars hds
  cases h with
  | digits hds hdigit =>
    exact ⟨_, [], (List.append_nil _).symm, hdigits hdigit,
      Or.inl ⟨rfl, Utf8.encodeChars_ne_nil hds⟩⟩
  | @point whole ds hwhole hds hdigit =>
    refine ⟨encodeChars whole, 46 :: encodeChars ds, ?_, hdigits hwhole,
      Or.inr ⟨_, rfl, Utf8.encodeChars_ne_nil hds, hdigits hdigit⟩⟩
    rw [Utf8.encodeChars_append]
    rfl

theorem number?_encodeChars {cs : List Char} (h : IsLiteral cs) :
    number? (encodeChars cs) = some (encodeChars cs) := by
  cases h with
  | unsigned h => exact (number?_of_isUnsigned (isUnsigned_encodeChars h)).1
  | minus h => exact (number?_of_isUnsigned (isUnsigned_encodeChars h)).2

theorem number?_encode {s : String} (h : IsLiteral s.toList) :
    number? (Utf8.encode s) = some (Utf8.encode s) := by
  rw [Utf8.encode_eq]
  exact number?_encodeChars h

theorem ne_nil_of_isLiteral {cs : List Char} (h : IsLiteral cs) : cs ≠ [] := by
  rintro rfl
  cases h with
  | unsigned h =>
    obtain ⟨b, bs, hcons, -⟩ := (isUnsigned_encodeChars h).exists_cons
    cases hcons

theorem operand_of_mem_unsigned {cs : List Char} (h : IsUnsignedLiteral cs) :
    ∀ c ∈ cs, charClasses.operand c = true := by
  cases h with
  | digits _ hdigit => exact fun c hc => operand_of_isDigit (hdigit c hc)
  | point hwhole _ hdigit =>
    intro c hc
    rcases List.mem_append.1 hc with hc | hc
    · exact operand_of_isDigit (hwhole c hc)
    · rcases List.mem_cons.1 hc with rfl | hc
      · rfl
      · exact operand_of_isDigit (hdigit c hc)

theorem operand_of_mem_literal {cs : List Char} (h : IsLiteral cs) :
    ∀ c ∈ cs, charClasses.operand c = true := by
  cases h with
  | unsigned h => exact operand_of_mem_unsigned h
  | minus h =>
    intro c hc
    rcases List.mem_cons.1 hc with rfl | hc
    · rfl
    · exact operand_of_mem_unsigned h c hc

theorem exists_ofText?_of_isLiteral {s : String} (h : IsLiteral s.toList) :
    ∃ threshold, Binary64.ofText? s = some threshold := by
  have hvalue := exists_ofText?_of_number? (number?_encode h)
  rwa [classEncodes_operand.asciiText_encode (operand_of_mem_literal h)] at hvalue

end Clause

/-! ## The parts in front of the separator -/

theorem Clause.operator_of_mem_text (op : Operator) :
    ∀ c ∈ op.text.toList, charClasses.operator c = true := by
  refine List.all_eq_true.1 ?_
  cases op <;> decide

/-- The bytes of a field, an operator and what stands in the place of a number. -/
def Clause.Spelling.ofTexts {field literal : String}
    (hfield : ∀ c ∈ field.toList, charClasses.word c = true) (before : Blanks) (op : Operator)
    (after : Blanks) (hne : literal ≠ "")
    (hliteral : ∀ c ∈ literal.toList, charClasses.operand c = true) : Spelling where
  field := Utf8.encode field
  word_of_mem_field := classEncodes_word.forall_encode hfield
  before := Utf8.encode before.text
  space_of_mem_before := classEncodes_space.forall_encode before.space
  operator := Utf8.encode op.text
  operator_of_mem_operator := classEncodes_operator.forall_encode (operator_of_mem_text op)
  operator_ne_nil := Utf8.encode_ne_nil (by cases op <;> decide)
  length_operator_le := by
    rw [classEncodes_operator.length_encode (operator_of_mem_text op)]
    cases op <;> decide
  after := Utf8.encode after.text
  space_of_mem_after := classEncodes_space.forall_encode after.space
  literal := Utf8.encode literal
  operand_of_mem_literal := classEncodes_operand.forall_encode hliteral
  literal_ne_nil := Utf8.encode_ne_nil hne

/-! ## Separators -/

namespace Separator

/-- A bar in a separator is in its connective. -/
theorem any_bar_encode (s : Separator) :
    ((Utf8.encode s.connective).any fun b => b.toNat == 124) = decide ('|' ∈ s.text.toList) := by
  have hblank (b : Blanks) : '|' ∉ b.text.toList := fun h => by
    have hspace := b.space _ h
    revert hspace
    decide
  rw [Utf8.encode_eq, any_bar_encodeChars, decide_eq_decide]
  simp [text, hblank]

/-- What the search makes of a separator in front of a field. -/
theorem connective_of_written (s : Separator) {rest : Bytes} (hrest : StartsField rest) :
    let cut := spanUpTo isConnectiveByte 2 (skipSpace (Utf8.encode s.text ++ rest))
    cut.1 = Utf8.encode s.connective ∧ skipSpace cut.2 = rest := by
  have hspace : Stops isSpaceByte rest := hrest.stops apart_operand_space
  have hconnective : Stops isConnectiveByte rest := hrest.stops apart_operand_connective
  have hbefore := classEncodes_space.forall_encode s.before.space
  have hafter := classEncodes_space.forall_encode s.after.space
  have hsigns : ∀ b ∈ Utf8.encode s.connective, isConnectiveByte b = true :=
    classEncodes_connective.forall_encode s.isConnective
  have hlength := classEncodes_connective.length_encode s.isConnective
  rw [text, Utf8.encode_append, Utf8.encode_append, List.append_assoc, List.append_assoc]
  by_cases hnone : Utf8.encode s.connective = []
  · -- without a connective the blanks on both sides are skipped at once
    have hblank : ∀ b ∈ Utf8.encode s.before.text ++ Utf8.encode s.after.text,
        isSpaceByte b = true := by
      intro b hb
      rcases List.mem_append.1 hb with hb | hb
      · exact hbefore b hb
      · exact hafter b hb
    rw [hnone, List.nil_append, ← List.append_assoc, skipSpace_append_of_forall hblank hspace,
      spanUpTo_of_stops hconnective]
    exact ⟨rfl, hspace.dropWhile_eq⟩
  · have hstop : Stops isSpaceByte
        (Utf8.encode s.connective ++ (Utf8.encode s.after.text ++ rest)) :=
      stops_append_of_ne_nil hnone fun b hb => apart_space_connective.symm b (hsigns b hb)
    have hstop' : Stops isConnectiveByte (Utf8.encode s.after.text ++ rest) :=
      hconnective.append fun b hb => apart_space_connective b (hafter b hb)
    rw [skipSpace_append_of_forall hbefore hstop,
      spanUpTo_append_of_forall hsigns hstop' (hlength.trans_le s.length_le)]
    exact ⟨rfl, skipSpace_append_of_forall hafter hspace⟩

theorem not_of_mem_text (s : Separator) {p : UInt8 → Bool} (hspace : Apart isSpaceByte p)
    (hconnective : Apart isConnectiveByte p) : ∀ b ∈ Utf8.encode s.text, p b = false := by
  rw [text, Utf8.encode_append, Utf8.encode_append]
  intro b hb
  rcases List.mem_append.1 hb with hb | hb
  · rcases List.mem_append.1 hb with hb | hb
    · exact hspace b (classEncodes_space.forall_encode s.before.space b hb)
    · exact hconnective b (classEncodes_connective.forall_encode s.isConnective b hb)
  · exact hspace b (classEncodes_space.forall_encode s.after.space b hb)

/-- Neither a field nor a number goes on into a separator. -/
theorem stops_operand (s : Separator) {rest : Bytes} (hsep : s.text = "" → rest = []) :
    Stops byteClasses.operand (Utf8.encode s.text ++ rest) := by
  by_cases hempty : s.text = ""
  · rw [hempty, hsep hempty]
    exact stops_nil
  · exact stops_append_of_ne_nil (Utf8.encode_ne_nil hempty)
      (s.not_of_mem_text apart_operand_space.symm apart_operand_connective.symm)

end Separator

/-! ## One clause -/

namespace WrittenClause

/-- The bytes in front of the separator. -/
def spelling (w : WrittenClause) : Spelling :=
  .ofTexts w.isFieldName.word w.before w.op w.after
    (fun hempty => ne_nil_of_isLiteral w.isLiteral (by rw [hempty, String.toList_empty]))
    (operand_of_mem_literal w.isLiteral)

theorem encode_text (w : WrittenClause) (rest : Bytes) :
    Utf8.encode w.text ++ rest = w.spelling.append (Utf8.encode w.separator.text ++ rest) := by
  simp only [text, Spelling.append, spelling, Spelling.ofTexts, Utf8.encode_append,
    List.append_assoc]

/-- **A written clause is read as it is written**, whatever follows it, if only something
separates it from that. -/
theorem matchAt_append (w : WrittenClause) (offset : Nat) {rest : Bytes} {threshold : Binary64}
    (hthreshold : Binary64.ofText? w.literal = some threshold)
    (hsep : w.separator.text = "" → rest = []) (hrest : StartsField rest) :
    matchAt offset (Utf8.encode w.text ++ rest)
      = .clause ⟨offset, ⟨w.field, w.op, threshold, w.literal⟩,
          decide ('|' ∈ w.separator.text.toList)⟩ rest := by
  have htake := w.spelling.takeWhile_word (Utf8.encode w.separator.text ++ rest)
  have hcut := w.spelling.operatorCut_eq (Utf8.encode w.separator.text ++ rest)
  have hnumber : number? (atNumber (w.spelling.append (Utf8.encode w.separator.text ++ rest)))
      = some (Utf8.encode w.literal) :=
    (w.spelling.number?_atNumber (stopsNumber_of_operand (w.separator.stops_operand hsep))).trans
      (number?_encode w.isLiteral)
  have hliteral : asciiText (Utf8.encode w.literal) = w.literal :=
    classEncodes_operand.asciiText_encode (operand_of_mem_literal w.isLiteral)
  have hfield : asciiText w.spelling.field = w.field :=
    classEncodes_word.asciiText_encode w.isFieldName.word
  have hop : asciiText w.spelling.operator = w.op.text :=
    classEncodes_operator.asciiText_encode (operator_of_mem_text w.op)
  obtain ⟨hsigns, hend⟩ := w.separator.connective_of_written hrest
  have hbehind : connectiveCut (w.spelling.append (Utf8.encode w.separator.text ++ rest))
      (Utf8.encode w.literal)
        = spanUpTo isConnectiveByte 2 (skipSpace (Utf8.encode w.separator.text ++ rest)) := by
    rw [connectiveCut, w.spelling.atNumber_eq]
    exact congrArg (fun bs => spanUpTo isConnectiveByte 2 (skipSpace bs)) List.drop_left
  rw [encode_text, matchAt_of_parts offset _ _ hnumber (by rwa [hliteral]), htake, hcut, hop,
    Operator.ofText?_text, hfield, hliteral, hbehind, hsigns, hend,
    w.separator.any_bar_encode]
  · rw [htake]
    exact Utf8.encode_ne_nil w.isFieldName.ne_empty
  · rw [hcut]
    exact w.spelling.operator_ne_nil

theorem startsField_encode_text (w : WrittenClause) (rest : Bytes) :
    StartsField (Utf8.encode w.text ++ rest) := by
  rw [encode_text]
  exact w.spelling.startsField_append _ (Utf8.encode_ne_nil w.isFieldName.ne_empty)

end WrittenClause

/-! ## Clauses in a row -/

/-- Clauses that have been written one after the other. -/
def WrittenClause.texts (clauses : List WrittenClause) : String :=
  String.join (clauses.map WrittenClause.text)

theorem WrittenClause.encode_texts_cons (w : WrittenClause) (ws : List WrittenClause) :
    Utf8.encode (texts (w :: ws)) = Utf8.encode w.text ++ Utf8.encode (texts ws) := by
  rw [texts, List.map_cons, String.join_cons, Utf8.encode_append]
  rfl

/-- **Written clauses are read as they are written**, each of them and in their order. -/
theorem Search.run_written (clauses : List WrittenClause)
    (hsep : ∀ w ∈ clauses.dropLast, w.separator.text ≠ "") :
    ∀ offset, ∃ found, run offset (Utf8.encode (WrittenClause.texts clauses)) = ⟨found, none⟩ ∧
      List.Forall₂ WrittenClause.Describes clauses (found.map (·.condition)) ∧
      found.countP (·.isOr) = clauses.countP fun w => decide ('|' ∈ w.separator.text.toList) := by
  induction clauses with
  | nil =>
    intro offset
    refine ⟨[], ?_, .nil, rfl⟩
    exact run_nil offset
  | cons w ws ih =>
    intro offset
    have hseparated : w.separator.text = "" → Utf8.encode (WrittenClause.texts ws) = [] := by
      intro hempty
      cases ws with
      | nil => rfl
      | cons v vs => exact absurd hempty (hsep w (by simp))
    have hstarts : StartsField (Utf8.encode (WrittenClause.texts ws)) := by
      cases ws with
      | nil => exact startsField_nil
      | cons v vs =>
        rw [WrittenClause.encode_texts_cons]
        exact v.startsField_encode_text _
    obtain ⟨threshold, hthreshold⟩ := exists_ofText?_of_isLiteral w.isLiteral
    have hmatch := w.matchAt_append offset hthreshold hseparated hstarts
    have htail : ∀ v ∈ ws.dropLast, v.separator.text ≠ "" := by
      intro v hv
      cases ws with
      | nil => cases hv
      | cons u us => exact hsep v (List.mem_cons_of_mem w hv)
    obtain ⟨found, hrun, hdescribes, hcount⟩ := ih htail
      (offset + ((Utf8.encode w.text ++ Utf8.encode (WrittenClause.texts ws)).length
        - (Utf8.encode (WrittenClause.texts ws)).length))
    rw [WrittenClause.encode_texts_cons, run_of_clause hmatch, hrun]
    refine ⟨_, rfl, .cons ⟨rfl, rfl, rfl, hthreshold⟩ hdescribes, ?_⟩
    rw [List.countP_cons, List.countP_cons, hcount]

end LogSplit
