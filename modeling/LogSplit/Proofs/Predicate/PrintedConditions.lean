import LogSplit.Proofs.Predicate.WrittenClauses

/-!
# Printed conditions

A set of conditions is printed as their fields, operators and literals, with `&&` between two
conditions.  What the search finds in a text can be printed and found again, in particular what it
has found in any text whatever (`ConditionSet.parse_written`).

A condition whose literal is no number can be printed too, and it is not found again.  It does no
harm to the conditions next to it, although its literal may be a word such as `inf`: behind that
word the connective stands, which no operator begins with (`Search.run_text`).
-/

set_option autoImplicit false

namespace LogSplit

open Clause
open Utf8 (encodeChars)

/-! ## Conditions that have been read -/

/-- A condition as it is read from a text. -/
structure Condition.IsWritten (c : Condition) : Prop where
  /-- The field can be named. -/
  isFieldName : IsFieldName c.field
  /-- The literal is a decimal. -/
  isLiteral : IsLiteral c.literal.toList
  /-- The threshold is its value. -/
  threshold : Binary64.ofText? c.literal = some c.threshold

namespace Clause

theorem charOf_of_classEncodes {p : Char → Bool} {pByte : UInt8 → Bool}
    (h : Regex.ClassEncodes p pByte) {b : UInt8} (hb : pByte b = true) : p (charOf b) = true := by
  have hascii : (charOf b).toNat < 128 := by
    rw [toNat_charOf]
    refine Nat.lt_of_not_le fun hhigh => ?_
    rw [h.byte b hhigh] at hb
    cases hb
  rw [← h.ascii _ hascii, toNat_charOf, UInt8.ofNat_toNat, hb]

theorem isUnsignedLiteral_map {bs : Bytes} (h : IsUnsigned bs) :
    IsUnsignedLiteral (bs.map charOf) := by
  obtain ⟨whole, part, rfl, hwhole, hpart⟩ := h
  rcases hpart with ⟨rfl, hne⟩ | ⟨ds, rfl, hne, hds⟩
  · rw [List.append_nil]
    exact .digits (by simpa using hne) (all_isDigit_map_charOf hwhole)
  · rw [List.map_append]
    exact .point (all_isDigit_map_charOf hwhole) (by simpa using hne) (all_isDigit_map_charOf hds)

theorem isLiteral_of_number? {bs literal : Bytes} (h : number? bs = some literal) :
    IsLiteral (asciiText literal).toList := by
  rw [toList_asciiText]
  rcases isUnsigned_of_number? h with hshape | ⟨text, rfl, hshape⟩
  · exact .unsigned (isUnsignedLiteral_map hshape)
  · exact .minus (isUnsignedLiteral_map hshape)

theorem isFieldName_of_takeWhile {bs : Bytes} (h : bs.takeWhile isWordByte ≠ []) :
    IsFieldName (asciiText (bs.takeWhile isWordByte)) where
  ne_empty hempty := by
    have hnil := congrArg String.toList hempty
    rw [toList_asciiText] at hnil
    exact h (List.map_eq_nil_iff.1 hnil)
  word c hc := by
    rw [toList_asciiText] at hc
    obtain ⟨b, hb, rfl⟩ := List.mem_map.1 hc
    exact charOf_of_classEncodes classEncodes_word (forall_mem_takeWhile _ _ b hb)

/-- A clause that is found could have been written. -/
theorem isWritten_of_matchAt {offset : Nat} {bs rest : Bytes} {found : Clause}
    (h : matchAt offset bs = .clause found rest) : found.condition.IsWritten := by
  rcases missing_or_complete bs with
    hmissing | ⟨literal, threshold, hfield, hop, hliteral, hthreshold⟩
  · rw [matchAt_of_missing offset hmissing] at h
    cases h
  · rw [matchAt_of_parts offset hfield hop hliteral hthreshold] at h
    split at h
    · cases h
    · cases h
      exact ⟨isFieldName_of_takeWhile hfield, isLiteral_of_number? hliteral, hthreshold⟩

end Clause

theorem Search.isWritten_of_mem_run (offset : Nat) (bs : Bytes) :
    ∀ c ∈ (run offset bs).clauses, c.condition.IsWritten := by
  induction offset, bs using run.induct with
  | case1 offset =>
    rw [run_nil]
    exact fun c hc => absurd hc List.not_mem_nil
  | case2 offset b tail hnone ih => rwa [run_of_none hnone]
  | case3 offset b tail error hstray =>
    rw [run_of_stray hstray]
    exact fun c hc => absurd hc List.not_mem_nil
  | case4 offset b tail found rest hclause ih =>
    rw [run_of_clause hclause]
    intro c hc
    rcases List.mem_cons.1 hc with rfl | hc
    · exact isWritten_of_matchAt hclause
    · exact ih c hc

theorem ConditionSet.isWritten_of_parse {text : String} {s : ConditionSet}
    (h : ConditionSet.parse text = .ok s) : ∀ c ∈ s.conditions, c.IsWritten := by
  rw [ConditionSet.parse] at h
  split at h
  · cases h
  · cases h
    intro c hc
    obtain ⟨clause, hclause, rfl⟩ := List.mem_map.1 hc
    exact Search.isWritten_of_mem_run _ _ clause hclause

/-! ## Conditions that cannot be read -/

/-- A condition with a word in the place of its number. -/
structure Condition.IsUnreadable (c : Condition) : Prop where
  /-- The field can be named. -/
  isFieldName : IsFieldName c.field
  /-- There is a literal. -/
  ne_empty : c.literal ≠ ""
  /-- It has no blank and no operator character in it. -/
  operand : ∀ a ∈ c.literal.toList, charClasses.operand a = true
  /-- It is not read as a number. -/
  number : number? (Utf8.encode c.literal) = none

namespace Search

/-- No clause begins in a literal, if no operator follows it. -/
theorem run_append_of_operand {bs rest : Bytes} (hbs : ∀ b ∈ bs, byteClasses.operand b = true)
    (hword : Stops isWordByte rest) (hop : Stops isOperatorByte (skipSpace rest)) :
    ∀ offset, run offset (bs ++ rest) = run (offset + bs.length) rest := by
  induction bs with
  | nil => exact fun offset => rfl
  | cons b bs ih =>
    intro offset
    have hstop : Stops isOperatorByte (atOperator (b :: bs ++ rest)) := by
      have hleft : ∀ x ∈ (b :: bs).dropWhile isWordByte, byteClasses.operand x = true :=
        fun x hx => hbs x ((List.dropWhile_suffix isWordByte).subset hx)
      rw [atOperator_eq, dropWhile_append_of_stops hword]
      cases hcase : (b :: bs).dropWhile isWordByte with
      | nil => exact hop
      | cons x xs =>
        have hx : byteClasses.operand x = true := hleft x (by rw [hcase]; exact List.mem_cons_self)
        rw [skipSpace, List.cons_append,
          (stops_cons (apart_operand_space x hx) (xs ++ rest)).dropWhile_eq]
        exact stops_cons (apart_operand_operator x hx) _
    have hnone : matchAt offset (b :: (bs ++ rest)) = .none := by
      refine matchAt_of_missing offset (Or.inr (Or.inl ?_))
      rw [← List.cons_append, operatorCut, spanUpTo_of_stops hstop]
    rw [List.cons_append, run_of_none hnone, ih fun x hx => hbs x (List.mem_cons_of_mem _ hx),
      List.length_cons, Nat.add_assoc, Nat.add_comm 1]

/-- The field in front of a literal that is no number is passed byte by byte. -/
theorem run_append_of_number?_eq_none (w : Spelling) (hnone : number? w.literal = none)
    {rest : Bytes} (hrest : StopsNumber rest) : ∀ offset, run offset (w.append rest)
      = run (offset + w.field.length)
          (w.before ++ (w.operator ++ (w.after ++ (w.literal ++ rest)))) := by
  induction hfield : w.field generalizing w with
  | nil =>
    intro offset
    rw [Spelling.append, hfield]
    rfl
  | cons b bs ih =>
    intro offset
    have hbs : ∀ x ∈ bs, isWordByte x = true := fun x hx =>
      w.word_of_mem_field x (by rw [hfield]; exact List.mem_cons_of_mem b hx)
    let shorter : Spelling := { w with field := bs, word_of_mem_field := hbs }
    have hcons : w.append rest = b :: shorter.append rest := by
      rw [Spelling.append, hfield]
      rfl
    have hmatch : matchAt offset (w.append rest) = .none :=
      matchAt_of_missing offset (Or.inr (Or.inr ((w.number?_atNumber hrest).trans hnone)))
    rw [hcons] at hmatch ⊢
    rw [run_of_none hmatch, ih shorter hnone rfl (offset + 1), List.length_cons, Nat.add_assoc,
      Nat.add_comm 1]

/-- **A condition that cannot be read is passed**, and what follows it is read by itself. -/
theorem run_of_unreadable (w : Spelling) (hnone : number? w.literal = none) {rest : Bytes}
    (hrest : Stops byteClasses.operand rest) (hop : Stops isOperatorByte (skipSpace rest))
    (offset : Nat) : ∃ offset', run offset (w.append rest) = run offset' rest := by
  have hgap : ∀ b ∈ w.before ++ w.operator ++ w.after, isWordByte b = false := by
    have hspace := apart_operand_space.mono fun b => operand_of_word
    have hoperator := apart_operand_operator.mono fun b => operand_of_word
    intro b hb
    rcases List.mem_append.1 hb with hb | hb
    · rcases List.mem_append.1 hb with hb | hb
      · exact hspace.symm b (w.space_of_mem_before b hb)
      · exact hoperator.symm b (w.operator_of_mem_operator b hb)
    · exact hspace.symm b (w.space_of_mem_after b hb)
  rw [run_append_of_number?_eq_none w hnone (stopsNumber_of_operand hrest), ← List.append_assoc,
    ← List.append_assoc, run_append_of_not_word hgap,
    run_append_of_operand w.operand_of_mem_literal (hrest.mono fun b => operand_of_word) hop]
  exact ⟨_, rfl⟩

end Search

/-! ## A printed set -/

/-- A single space. -/
def Blanks.single : Blanks := ⟨" ", List.all_eq_true.1 (by decide)⟩

/-- No blank. -/
def Blanks.none : Blanks := ⟨"", List.all_eq_true.1 (by decide)⟩

/-- Nothing at all. -/
def Separator.none : Separator := ⟨.none, "", List.all_eq_true.1 (by decide), by decide, .none⟩

/-- The conjunction sign between spaces. -/
def Separator.conjunction : Separator :=
  ⟨.single, "&&", List.all_eq_true.1 (by decide), by decide, .single⟩

namespace Condition

/-- A printed condition in front of a separator. -/
def written (c : Condition) (h : c.IsWritten) (separator : Separator) : WrittenClause where
  field := c.field
  isFieldName := h.isFieldName
  before := .single
  op := c.op
  after := .single
  literal := c.literal
  isLiteral := h.isLiteral
  separator := separator

/-- The bytes of a printed condition that cannot be read. -/
def spelling (c : Condition) (h : c.IsUnreadable) : Spelling :=
  .ofTexts h.isFieldName.word .single c.op .single h.ne_empty h.operand

end Condition

namespace Search

/-- A printed condition that can be read is the next one that is found. -/
theorem run_of_isWritten {c : Condition} (h : c.IsWritten) {separator : Separator} {rest : Bytes}
    (hbar : '|' ∉ separator.text.toList) (hsep : separator.text = "" → rest = [])
    (hrest : StartsField rest) (offset : Nat) :
    ∃ offset', run offset (Utf8.encode c.text ++ (Utf8.encode separator.text ++ rest))
      = (run offset' rest).cons ⟨offset, c, false⟩ := by
  have hmatch := (c.written h separator).matchAt_append offset h.threshold hsep hrest
  have hbytes : Utf8.encode (c.written h separator).text
      = Utf8.encode c.text ++ Utf8.encode separator.text := by
    simp only [WrittenClause.text, Condition.written, Blanks.single, Condition.text,
      Utf8.encode_append, List.append_assoc]
  rw [hbytes, List.append_assoc] at hmatch
  rw [run_of_clause hmatch]
  exact ⟨_, by rw [← decide_eq_false hbar]; rfl⟩

/-- A printed condition that cannot be read is passed together with the separator behind it. -/
theorem run_of_isUnreadable {c : Condition} (h : c.IsUnreadable) {separator : Separator}
    {rest : Bytes} (hsep : separator.text = "" → rest = []) (hrest : StartsField rest)
    (offset : Nat) :
    ∃ offset', run offset (Utf8.encode c.text ++ (Utf8.encode separator.text ++ rest))
      = run offset' rest := by
  have hbytes : Utf8.encode c.text ++ (Utf8.encode separator.text ++ rest)
      = (c.spelling h).append (Utf8.encode separator.text ++ rest) := by
    simp only [Condition.text, Condition.spelling, Spelling.ofTexts, Spelling.append, Blanks.single,
      Utf8.encode_append, List.append_assoc]
  have hoperator : Stops isOperatorByte (skipSpace (Utf8.encode separator.text ++ rest)) := by
    rw [skipSpace_append (hrest.stops apart_operand_space)]
    exact (hrest.stops apart_operand_operator).append fun b hb =>
      separator.not_of_mem_text apart_space_operator apart_connective_operator b
        ((List.dropWhile_suffix isSpaceByte).subset hb)
  obtain ⟨offset', hrun⟩ := run_of_unreadable (c.spelling h) h.number
    (separator.stops_operand hsep) hoperator offset
  have hword : ∀ b ∈ Utf8.encode separator.text, isWordByte b = false :=
    separator.not_of_mem_text (apart_operand_space.mono fun b => operand_of_word).symm
      (apart_operand_connective.mono fun b => operand_of_word).symm
  rw [hbytes, hrun, run_append_of_not_word hword]
  exact ⟨_, rfl⟩

end Search

/-- What stands in front of some more printed conditions: the conjunction sign if there are any. -/
def Separator.inFrontOf : List Condition → Separator
  | [] => .none
  | _ :: _ => .conjunction

theorem Separator.text_inFrontOf_ne_empty (c : Condition) (cs : List Condition) :
    (inFrontOf (c :: cs)).text ≠ "" := by
  change Separator.conjunction.text ≠ ""
  decide

theorem Separator.bar_not_mem_inFrontOf (cs : List Condition) :
    '|' ∉ (inFrontOf cs).text.toList := by
  cases cs with
  | nil =>
    change '|' ∉ Separator.none.text.toList
    decide
  | cons c cs =>
    change '|' ∉ Separator.conjunction.text.toList
    decide

theorem ConditionSet.encode_text_cons (c : Condition) (cs : List Condition) :
    Utf8.encode (ofConditions (c :: cs)).text = Utf8.encode c.text ++
      (Utf8.encode (Separator.inFrontOf cs).text ++ Utf8.encode (ofConditions cs).text) := by
  cases cs with
  | nil => exact (List.append_nil _).symm
  | cons d ds =>
    simp only [ConditionSet.text, texts, ofConditions, List.map_cons, String.intercalate_cons_cons,
      Utf8.encode_append, List.append_assoc]
    rfl

theorem ConditionSet.startsField_encode_text {cs : List Condition}
    (h : ∀ c ∈ cs, IsFieldName c.field) : StartsField (Utf8.encode (ofConditions cs).text) := by
  cases cs with
  | nil => exact startsField_nil
  | cons c cs =>
    have hname := h c List.mem_cons_self
    rw [encode_text_cons, Condition.text]
    simp only [Utf8.encode_append, List.append_assoc]
    intro b hb
    rw [List.head?_append_of_ne_nil _ (Utf8.encode_ne_nil hname.ne_empty)] at hb
    exact classEncodes_word.forall_encode hname.word b (List.mem_of_head? hb)

/-- **In a printed set the conditions that can be read are found**, and no others. -/
theorem Search.run_text (readable : Condition → Bool) (cs : List Condition)
    (hread : ∀ c ∈ cs, readable c = true → c.IsWritten)
    (hskip : ∀ c ∈ cs, readable c = false → c.IsUnreadable) :
    ∀ offset, (run offset (Utf8.encode (ConditionSet.ofConditions cs).text)).stopped = none ∧
      (run offset (Utf8.encode (ConditionSet.ofConditions cs).text)).conditionSet
        = .ofConditions (cs.filter readable) := by
  induction cs with
  | nil =>
    intro offset
    change (run offset []).stopped = none ∧ (run offset []).conditionSet = _
    rw [run_nil]
    exact ⟨rfl, rfl⟩
  | cons c cs ih =>
    intro offset
    have hnames : ∀ d ∈ cs, IsFieldName d.field := by
      intro d hd
      cases hreadable : readable d with
      | true => exact (hread d (List.mem_cons_of_mem c hd) hreadable).isFieldName
      | false => exact (hskip d (List.mem_cons_of_mem c hd) hreadable).isFieldName
    have hstarts := ConditionSet.startsField_encode_text hnames
    have hsep : (Separator.inFrontOf cs).text = "" →
        Utf8.encode (ConditionSet.ofConditions cs).text = [] := by
      cases cs with
      | nil => exact fun _ => rfl
      | cons d ds => exact fun hempty => absurd hempty (Separator.text_inFrontOf_ne_empty d ds)
    have hlater := ih (fun d hd => hread d (List.mem_cons_of_mem c hd))
      (fun d hd => hskip d (List.mem_cons_of_mem c hd))
    rw [ConditionSet.encode_text_cons]
    cases hreadable : readable c with
    | true =>
      obtain ⟨offset', hrun⟩ := run_of_isWritten (hread c List.mem_cons_self hreadable)
        (Separator.bar_not_mem_inFrontOf cs) hsep hstarts offset
      obtain ⟨hstopped, hset⟩ := hlater offset'
      obtain ⟨hconditions, hcount⟩ := ConditionSet.mk.inj hset
      rw [hrun, List.filter_cons_of_pos hreadable]
      refine ⟨hstopped, congrArg₂ ConditionSet.mk ?_ ?_⟩
      · exact congrArg (c :: ·) hconditions
      · exact hcount
    | false =>
      obtain ⟨offset', hrun⟩ := run_of_isUnreadable (hskip c List.mem_cons_self hreadable) hsep
        hstarts offset
      rw [hrun, List.filter_cons_of_neg (by simp [hreadable])]
      exact hlater offset'

/-- A printed set is read as those of its conditions that can be read. -/
theorem ConditionSet.parse_text_eq (readable : Condition → Bool) {cs : List Condition}
    (hread : ∀ c ∈ cs, readable c = true → c.IsWritten)
    (hskip : ∀ c ∈ cs, readable c = false → c.IsUnreadable) :
    ConditionSet.parse (ConditionSet.ofConditions cs).text
      = .ok (.ofConditions (cs.filter readable)) := by
  obtain ⟨hstopped, hset⟩ : (Search.ofText (ConditionSet.ofConditions cs).text).stopped = none ∧
      (Search.ofText (ConditionSet.ofConditions cs).text).conditionSet = _ :=
    Search.run_text readable cs hread hskip 0
  rw [ConditionSet.parse, hstopped, hset]

/-! ## Written texts -/

/-- **A predicate is read as it is written.**  Clauses with any blanks around their operators, any
form of their numbers and any separators between them are read one by one, as the fields, operators
and literals that are written, and the connectives with a bar are counted.  So what any text is read
as can be printed and read again. -/
theorem ConditionSet.parse_written :
    (∀ (lead : Blanks) (clauses : List WrittenClause),
      (∀ w ∈ clauses.dropLast, w.separator.text ≠ "") →
      ∃ s, ConditionSet.parse (lead.text ++ WrittenClause.texts clauses) = .ok s ∧
        List.Forall₂ WrittenClause.Describes clauses s.conditions ∧
        s.orConnectives = clauses.countP fun w => decide ('|' ∈ w.separator.text.toList)) ∧
    ∀ (text : String) (s : ConditionSet), ConditionSet.parse text = .ok s →
      ConditionSet.parse s.text = .ok ⟨s.conditions, 0⟩ := by
  refine ⟨fun lead clauses hsep => ?_, fun text s hparse => ?_⟩
  · have hlead : ∀ b ∈ Utf8.encode lead.text, isWordByte b = false := fun b hb =>
      (apart_operand_space.mono fun b => operand_of_word).symm b
        (classEncodes_space.forall_encode lead.space b hb)
    obtain ⟨found, hrun, hdescribes, hcount⟩ :=
      Search.run_written clauses hsep (0 + (Utf8.encode lead.text).length)
    have hsearch : Search.ofText (lead.text ++ WrittenClause.texts clauses) = ⟨found, none⟩ := by
      rw [Search.ofText, Utf8.encode_append, Search.run_append_of_not_word hlead, hrun]
    refine ⟨Search.conditionSet ⟨found, none⟩, ?_, hdescribes, hcount⟩
    rw [ConditionSet.parse, hsearch]
  · have hwritten := ConditionSet.isWritten_of_parse hparse
    have hagain := ConditionSet.parse_text_eq (fun _ => true) (fun c hc _ => hwritten c hc)
      (fun c _ hfalse => by cases hfalse)
    rw [List.filter_true] at hagain
    exact hagain

/-- Three clauses with as little between their parts as there can be, one of them with a number for
its field. -/
def denseClauses : List WrittenClause :=
  [{ field := "speed"
     isFieldName := ⟨by decide, List.all_eq_true.1 (by decide)⟩
     before := .none
     op := .ge
     after := .none
     literal := "-1.5"
     isLiteral := .minus (@IsUnsignedLiteral.point ['1'] ['5'] (List.all_eq_true.1 (by decide))
       (by decide) (List.all_eq_true.1 (by decide)))
     separator := ⟨.none, "||", List.all_eq_true.1 (by decide), by decide, .none⟩ },
   { field := "mode2"
     isFieldName := ⟨by decide, List.all_eq_true.1 (by decide)⟩
     before := .single
     op := .eq
     after := .single
     literal := ".25"
     isLiteral := .unsigned
       (@IsUnsignedLiteral.point [] ['2', '5'] (List.all_eq_true.1 (by decide)) (by decide)
         (List.all_eq_true.1 (by decide)))
     separator := ⟨.single, "", List.all_eq_true.1 (by decide), by decide, .none⟩ },
   { field := "3"
     isFieldName := ⟨by decide, List.all_eq_true.1 (by decide)⟩
     before := .none
     op := .lt
     after := .single
     literal := "07"
     isLiteral := .unsigned (@IsUnsignedLiteral.digits ['0', '7'] (by decide)
       (List.all_eq_true.1 (by decide)))
     separator := .conjunction }]

set_option maxRecDepth 100000 in
theorem ConditionSet.parse_written_dense :
    (∀ w ∈ denseClauses.dropLast, w.separator.text ≠ "") ∧
      Blanks.single.text ++ WrittenClause.texts denseClauses
        = " speed>=-1.5||mode2 == .25 3< 07 && " ∧
      ∃ s, ConditionSet.parse " speed>=-1.5||mode2 == .25 3< 07 && " = .ok s ∧
        List.Forall₂ WrittenClause.Describes denseClauses s.conditions ∧ s.orConnectives = 1 ∧
        s.text = "speed >= -1.5 && mode2 == .25 && 3 < 07" ∧
        ConditionSet.parse s.text = .ok ⟨s.conditions, 0⟩ := by
  have hsep : ∀ w ∈ denseClauses.dropLast, w.separator.text ≠ "" := by decide
  have htext : Blanks.single.text ++ WrittenClause.texts denseClauses
      = " speed>=-1.5||mode2 == .25 3< 07 && " := by decide
  obtain ⟨s, hparse, hdescribes, hcount⟩ := ConditionSet.parse_written.1 .single denseClauses hsep
  rw [htext] at hparse
  have hprinted : (ConditionSet.parse " speed>=-1.5||mode2 == .25 3< 07 && ").toOption.map
      ConditionSet.text = some "speed >= -1.5 && mode2 == .25 && 3 < 07" := by decide +kernel
  rw [hparse] at hprinted
  exact ⟨hsep, htext, s, hparse, hdescribes, hcount, Option.some_inj.1 hprinted,
    ConditionSet.parse_written.2 _ s hparse⟩

end LogSplit
