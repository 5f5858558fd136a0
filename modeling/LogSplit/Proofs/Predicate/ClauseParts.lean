import LogSplit.Proofs.Predicate.FindAll

/-!
# What a part of a clause looks at

Each part of a clause is a run of bytes of one class, as long as can be, so it ends where a byte of
another class stands and whatever comes behind that byte makes no difference to it.  The number is
a run of digits, a point and another run of digits: it ends where neither a digit nor a point
stands.

`Stops p bs` says that the bytes `bs` do not go on with a byte of the class `p`.  Under it a part of
`xs ++ bs` is that of `xs`, and what is left of `xs ++ bs` is what is left of `xs` with `bs` behind.

A clause that has been written part after part is taken apart into the same parts, because two
parts that follow each other are of classes without a common byte (`Apart`).
-/

set_option autoImplicit false

namespace LogSplit

/-- A character of a field or of a number. -/
def ClauseClasses.operand {α : Type} (k : ClauseClasses α) (a : α) : Bool :=
  k.word a || k.minus a || k.point a

namespace Clause

/-! ## Where a run of bytes ends -/

/-- The first byte, if there is one, is not in the class. -/
def Stops (p : UInt8 → Bool) (bs : Bytes) : Prop := ∀ b ∈ bs.head?, p b = false

section

variable {p : UInt8 → Bool} {xs ys : Bytes}

theorem stops_nil : Stops p [] := by
  intro b hb
  cases hb

theorem stops_cons {b : UInt8} (h : p b = false) (bs : Bytes) : Stops p (b :: bs) := by
  intro x hx
  obtain rfl : b = x := Option.some_inj.1 hx
  exact h

theorem Stops.append (hxs : ∀ b ∈ xs, p b = false) (hys : Stops p ys) : Stops p (xs ++ ys) := by
  cases xs with
  | nil => exact hys
  | cons b xs => exact stops_cons (hxs b List.mem_cons_self) _

theorem Stops.mono {q : UInt8 → Bool} (h : Stops p xs) (hq : ∀ b, q b = true → p b = true) :
    Stops q xs := by
  intro b hb
  rw [← Bool.not_eq_true]
  intro hqb
  have hpb := h b hb
  rw [hq b hqb] at hpb
  cases hpb

theorem stops_append_of_ne_nil (hne : xs ≠ []) (hxs : ∀ b ∈ xs, p b = false) :
    Stops p (xs ++ ys) := by
  cases xs with
  | nil => exact absurd rfl hne
  | cons b xs => exact stops_cons (hxs b List.mem_cons_self) _

theorem Stops.takeWhile_eq (h : Stops p ys) : ys.takeWhile p = [] := by
  cases ys with
  | nil => rfl
  | cons b ys => exact List.takeWhile_cons_of_neg (by simp [h b rfl])

theorem Stops.dropWhile_eq (h : Stops p ys) : ys.dropWhile p = ys := by
  cases ys with
  | nil => rfl
  | cons b ys => exact List.dropWhile_cons_of_neg (by simp [h b rfl])

theorem takeWhile_append_of_stops (h : Stops p ys) :
    (xs ++ ys).takeWhile p = xs.takeWhile p := by
  rw [List.takeWhile_append, h.takeWhile_eq, List.append_nil]
  split
  · rename_i hlength
    exact ((List.takeWhile_prefix p).eq_of_length hlength).symm
  · rfl

theorem dropWhile_append_of_stops (h : Stops p ys) :
    (xs ++ ys).dropWhile p = xs.dropWhile p ++ ys := by
  rw [List.dropWhile_append, h.dropWhile_eq]
  split
  · rename_i hempty
    rw [List.isEmpty_iff.1 hempty, List.nil_append]
  · rfl

theorem skipSpace_append (h : Stops isSpaceByte ys) : skipSpace (xs ++ ys) = skipSpace xs ++ ys :=
  dropWhile_append_of_stops h

/-- Blanks are skipped up to what is none. -/
theorem skipSpace_append_of_forall (hxs : ∀ b ∈ xs, isSpaceByte b = true)
    (h : Stops isSpaceByte ys) : skipSpace (xs ++ ys) = ys := by
  rw [skipSpace, List.dropWhile_append_of_pos hxs, h.dropWhile_eq]

theorem spanUpTo_of_stops (h : Stops p ys) (limit : Nat) : spanUpTo p limit ys = ([], ys) := by
  cases limit with
  | zero => rfl
  | succ limit =>
    cases ys with
    | nil => rfl
    | cons b ys =>
      have hb : p b = false := h b rfl
      simp [spanUpTo, hb]

theorem spanUpTo_append_of_stops (h : Stops p ys) : ∀ limit,
    spanUpTo p limit (xs ++ ys) = ((spanUpTo p limit xs).1, (spanUpTo p limit xs).2 ++ ys) := by
  induction xs with
  | nil =>
    intro limit
    rw [List.nil_append, spanUpTo_of_stops h, spanUpTo_of_stops stops_nil, List.nil_append]
  | cons b xs ih =>
    intro limit
    cases limit with
    | zero => rfl
    | succ limit =>
      rw [List.cons_append, spanUpTo, spanUpTo, ih]
      cases p b <;> rfl

/-- Up to `limit` bytes of the class are taken whole. -/
theorem spanUpTo_append_of_forall (hxs : ∀ b ∈ xs, p b = true) (h : Stops p ys) :
    ∀ {limit}, xs.length ≤ limit → spanUpTo p limit (xs ++ ys) = (xs, ys) := by
  induction xs with
  | nil => exact fun _ => spanUpTo_of_stops h _
  | cons b xs ih =>
    intro limit hlimit
    cases limit with
    | zero => exact absurd hlimit (Nat.not_succ_le_zero _)
    | succ limit =>
      rw [List.cons_append, spanUpTo, if_pos (hxs b List.mem_cons_self),
        ih (fun x hx => hxs x (List.mem_cons_of_mem _ hx)) (Nat.le_of_succ_le_succ hlimit)]

end

/-! ## Where a number ends -/

section

variable {xs ys : Bytes}

/-- No number goes on at the front of the bytes. -/
structure StopsNumber (bs : Bytes) : Prop where
  /-- Not with a digit. -/
  digit : Stops isDigitByte bs
  /-- Not with a point. -/
  point : Stops byteClasses.point bs

theorem fraction_append (h : StopsNumber ys) : fraction (xs ++ ys) = fraction xs := by
  cases xs with
  | cons b xs => rw [List.cons_append, fraction, fraction, takeWhile_append_of_stops h.digit]
  | nil =>
    cases ys with
    | nil => rfl
    | cons b ys => exact fraction_cons_of_ne (by simpa [byteClasses] using h.point b rfl) ys

theorem unsigned?_append (h : StopsNumber ys) : unsigned? (xs ++ ys) = unsigned? xs := by
  have hdrop : (xs ++ ys).drop (xs.takeWhile isDigitByte).length
      = xs.drop (xs.takeWhile isDigitByte).length ++ ys :=
    List.drop_append_of_le_length (List.takeWhile_prefix isDigitByte).length_le
  rw [unsigned?, takeWhile_append_of_stops h.digit, hdrop, fraction_append h, unsigned?]

/-- What stands behind a number makes no difference to it. -/
theorem number?_append (hxs : xs ≠ []) (h : StopsNumber ys) :
    number? (xs ++ ys) = number? xs := by
  cases xs with
  | nil => exact absurd rfl hxs
  | cons b xs =>
    rw [List.cons_append, number?, number?, unsigned?_append h, ← List.cons_append,
      unsigned?_append h]

theorem number?_of_stops (hminus : Stops byteClasses.minus ys) (h : StopsNumber ys) :
    number? ys = none := by
  cases ys with
  | nil => rfl
  | cons b ys =>
    have hb : ¬ b.toNat = 45 := by simpa [byteClasses] using hminus b rfl
    rw [number?, if_neg hb, ← List.nil_append (b :: ys), unsigned?_append h]
    rfl

theorem isPrefix_fraction (bs : Bytes) : fraction bs <+: bs := by
  cases bs with
  | nil => exact List.prefix_rfl
  | cons b bs =>
    rw [fraction]
    split
    · exact (List.prefix_cons_inj b).2 (List.takeWhile_prefix isDigitByte)
    · exact List.nil_prefix

theorem prefix_of_unsigned? {bs text : Bytes} (h : unsigned? bs = some text) : text <+: bs := by
  rw [unsigned?] at h
  obtain ⟨-, h⟩ := Option.ite_none_left_eq_some.1 h
  obtain rfl := Option.some_inj.1 h
  conv_rhs => rw [← List.takeWhile_append_dropWhile (p := isDigitByte) (l := bs)]
  rw [drop_length_takeWhile]
  exact (List.prefix_append_right_inj _).2 (isPrefix_fraction _)

/-- A number is the front of what it is read from. -/
theorem prefix_of_number? {bs literal : Bytes} (h : number? bs = some literal) :
    literal <+: bs := by
  cases bs with
  | nil => cases h
  | cons b bs =>
    rw [number?] at h
    split at h
    · obtain ⟨text, htext, rfl⟩ := Option.map_eq_some_iff.1 h
      exact (List.prefix_cons_inj b).2 (prefix_of_unsigned? htext)
    · exact prefix_of_unsigned? h

end

/-- An unsigned decimal that stands alone is read whole. -/
theorem unsigned?_of_isUnsigned {text : Bytes} (h : IsUnsigned text) :
    unsigned? text = some text := by
  obtain ⟨whole, part, rfl, hwhole, hpart⟩ := h
  have hstops : Stops isDigitByte part := by
    rcases hpart with ⟨rfl, -⟩ | ⟨ds, rfl, -, -⟩
    · exact stops_nil
    · exact stops_cons rfl ds
  have htake : (whole ++ part).takeWhile isDigitByte = whole := by
    rw [takeWhile_append_of_stops hstops, List.takeWhile_eq_self_iff.2 hwhole]
  have hfraction : fraction part = part := by
    rcases hpart with ⟨rfl, -⟩ | ⟨ds, rfl, hne, hds⟩
    · rfl
    · rw [fraction_cons_point rfl, List.takeWhile_eq_self_iff.2 hds, if_pos hne]
  rw [unsigned?, htake, List.drop_left, hfraction]
  rcases hpart with ⟨rfl, hne⟩ | ⟨ds, rfl, -, -⟩
  · simp [hne]
  · simp

/-- A decimal that stands alone is read whole, with its sign. -/
theorem number?_of_isUnsigned {text : Bytes} (h : IsUnsigned text) :
    number? text = some text ∧ number? (45 :: text) = some (45 :: text) := by
  refine ⟨?_, ?_⟩
  · obtain ⟨b, bs, rfl, hb⟩ := h.exists_cons
    have hminus : ¬ b.toNat = 45 := by
      rcases hb with hb | rfl
      · intro heq
        rw [isDigitByte_of_toNat (Or.inl heq)] at hb
        cases hb
      · decide
    rw [number?, if_neg hminus, unsigned?_of_isUnsigned h]
  · rw [number?, if_pos (by decide), unsigned?_of_isUnsigned h, Option.map_some]

/-! ## Classes without a common byte -/

/-- No byte is in both classes. -/
def Apart (p q : UInt8 → Bool) : Prop := ∀ b, p b = true → q b = false

theorem Apart.symm {p q : UInt8 → Bool} (h : Apart p q) : Apart q p := by
  intro b hq
  rw [← Bool.not_eq_true]
  intro hp
  rw [h b hp] at hq
  cases hq

theorem Apart.mono {p q r : UInt8 → Bool} (h : Apart p q) (hr : ∀ b, r b = true → p b = true) :
    Apart r q :=
  fun b hb => h b (hr b hb)

theorem operand_of_word {b : UInt8} (h : isWordByte b = true) : byteClasses.operand b = true := by
  rw [ClauseClasses.operand, show byteClasses.word b = true from h, Bool.true_or, Bool.true_or]

theorem stopsNumber_of_operand {bs : Bytes} (h : Stops byteClasses.operand bs) :
    StopsNumber bs where
  digit := h.mono fun b hb => operand_of_word (by simp [isWordByte, hb])
  point := h.mono fun b hb => by rw [ClauseClasses.operand, hb, Bool.or_true]

theorem apart_operand_space : Apart byteClasses.operand isSpaceByte := by
  intro b h
  rw [← Bool.not_eq_true]
  simp [ClauseClasses.operand, isWordByte, isDigitByte, byteClasses, isSpaceByte] at h ⊢
  omega

theorem apart_operand_operator : Apart byteClasses.operand isOperatorByte := by
  intro b h
  rw [← Bool.not_eq_true]
  simp [ClauseClasses.operand, isWordByte, isDigitByte, byteClasses, isOperatorByte] at h ⊢
  omega

theorem apart_operand_connective : Apart byteClasses.operand isConnectiveByte := by
  intro b h
  rw [← Bool.not_eq_true]
  simp [ClauseClasses.operand, isWordByte, isDigitByte, byteClasses, isConnectiveByte] at h ⊢
  omega

theorem apart_space_operator : Apart isSpaceByte isOperatorByte :=
  fun _ => not_operator_of_space

theorem apart_space_connective : Apart isSpaceByte isConnectiveByte := by
  intro b h
  rw [← Bool.not_eq_true]
  simp [isSpaceByte, isConnectiveByte] at h ⊢
  omega

theorem apart_connective_operator : Apart isConnectiveByte isOperatorByte := by
  intro b h
  rw [← Bool.not_eq_true]
  simp [isConnectiveByte, isOperatorByte] at h ⊢
  omega

/-- The bytes begin with a field, unless there are none. -/
def StartsField (bs : Bytes) : Prop := ∀ b ∈ bs.head?, isWordByte b = true

theorem startsField_nil : StartsField [] := by
  intro b hb
  cases hb

/-- Of a class apart from that of fields and numbers nothing stands where a field begins. -/
theorem StartsField.stops {p : UInt8 → Bool} {bs : Bytes} (h : StartsField bs)
    (hp : Apart byteClasses.operand p) : Stops p bs :=
  fun b hb => hp b (operand_of_word (h b hb))

/-! ## The parts of a clause that has been written -/

/-- The bytes of a clause up to its separator, those of each part from the classes of that part. -/
structure Spelling where
  /-- The field. -/
  field : Bytes
  /-- The field is a word. -/
  word_of_mem_field : ∀ b ∈ field, isWordByte b = true
  /-- What stands behind the field. -/
  before : Bytes
  /-- Only blanks stand there. -/
  space_of_mem_before : ∀ b ∈ before, isSpaceByte b = true
  /-- The operator. -/
  operator : Bytes
  /-- The operator is written with operator characters. -/
  operator_of_mem_operator : ∀ b ∈ operator, isOperatorByte b = true
  /-- There is an operator. -/
  operator_ne_nil : operator ≠ []
  /-- It has at most two characters. -/
  length_operator_le : operator.length ≤ 2
  /-- What stands behind the operator. -/
  after : Bytes
  /-- Only blanks stand there. -/
  space_of_mem_after : ∀ b ∈ after, isSpaceByte b = true
  /-- What stands in the place of the number. -/
  literal : Bytes
  /-- The literal has no blank and no operator character in it. -/
  operand_of_mem_literal : ∀ b ∈ literal, byteClasses.operand b = true
  /-- The literal is not empty. -/
  literal_ne_nil : literal ≠ []

namespace Spelling

variable (w : Spelling) (rest : Bytes)

/-- The bytes of the clause in front of some others. -/
def append : Bytes := w.field ++ (w.before ++ (w.operator ++ (w.after ++ (w.literal ++ rest))))

/-- What stands behind the field goes on neither with it nor with a number. -/
theorem stops_behind_field :
    Stops byteClasses.operand (w.before ++ (w.operator ++ (w.after ++ (w.literal ++ rest)))) :=
  (stops_append_of_ne_nil w.operator_ne_nil fun b hb =>
    apart_operand_operator.symm b (w.operator_of_mem_operator b hb)).append fun b hb =>
      apart_operand_space.symm b (w.space_of_mem_before b hb)

theorem startsField_append (hfield : w.field ≠ []) : StartsField (w.append rest) := by
  intro b hb
  rw [append, List.head?_append_of_ne_nil _ hfield] at hb
  exact w.word_of_mem_field b (List.mem_of_head? hb)

theorem takeWhile_word : (w.append rest).takeWhile isWordByte = w.field := by
  rw [append, takeWhile_append_of_stops ((w.stops_behind_field rest).mono fun b => operand_of_word),
    List.takeWhile_eq_self_iff.2 w.word_of_mem_field]

theorem atOperator_eq :
    atOperator (w.append rest) = w.operator ++ (w.after ++ (w.literal ++ rest)) := by
  have hstops : Stops isSpaceByte (w.operator ++ (w.after ++ (w.literal ++ rest))) :=
    stops_append_of_ne_nil w.operator_ne_nil fun b hb =>
      apart_space_operator.symm b (w.operator_of_mem_operator b hb)
  rw [atOperator, takeWhile_word, append, List.drop_left,
    skipSpace_append_of_forall w.space_of_mem_before hstops]

theorem operatorCut_eq :
    operatorCut (w.append rest) = (w.operator, w.after ++ (w.literal ++ rest)) := by
  have hstops : Stops isOperatorByte (w.after ++ (w.literal ++ rest)) :=
    (stops_append_of_ne_nil w.literal_ne_nil fun b hb =>
      apart_operand_operator b (w.operand_of_mem_literal b hb)).append fun b hb =>
        apart_space_operator b (w.space_of_mem_after b hb)
  rw [operatorCut, atOperator_eq,
    spanUpTo_append_of_forall w.operator_of_mem_operator hstops w.length_operator_le]

theorem atNumber_eq : atNumber (w.append rest) = w.literal ++ rest := by
  have hstops : Stops isSpaceByte (w.literal ++ rest) :=
    stops_append_of_ne_nil w.literal_ne_nil fun b hb =>
      apart_operand_space b (w.operand_of_mem_literal b hb)
  rw [atNumber, operatorCut_eq, skipSpace_append_of_forall w.space_of_mem_after hstops]

/-- What follows makes no difference to the number, if it does not go on with one. -/
theorem number?_atNumber {rest : Bytes} (hrest : StopsNumber rest) :
    number? (atNumber (w.append rest)) = number? w.literal := by
  rw [atNumber_eq, number?_append w.literal_ne_nil hrest]

end Spelling

end Clause

end LogSplit
