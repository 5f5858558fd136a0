import LogSplit.Proofs.Predicate.LongestNumber
import LogSplit.Proofs.Text.Slices

/-!
# The search by offsets

The search for clauses takes bytes off the front of what is left of a text.  It can as well keep the
text and go on by offsets, and then three things could go wrong at every step: a byte may be asked
for that is not there, a part of the text may be asked for that begins or ends inside a character
or ends before it begins, and the offset may stop growing.

Here the search goes by offsets, and each of its steps gives nothing where it would go wrong
(`pass?` and `part?` for bytes, `Utf8.slice?` for text).  At every offset of a text, inside a
character, too, it gives what stands there (`Clause.sight?_eq`): a part that is cut out is never
empty and of ASCII, so it begins and ends between characters.  As a clause takes at least one byte,
the whole search needs no more rounds than the text has bytes and one (`Search.loop?_eq`).
-/

set_option autoImplicit false

namespace LogSplit

namespace Clause

open Regex (cutFront)

/-! ## Bytes by their offsets -/

/-- A difference that is not negative. -/
def minus? (n m : Nat) : Option Nat := if m ≤ n then some (n - m) else none

/-- Passes bytes of a class from `pos` on, as long as there are any and fewer than `most` have been
passed since `start`, and gives the offset where that ends.  There is no such offset if a byte is
asked for that is not there. -/
def pass? (p : UInt8 → Bool) (most : Option Nat) (bytes : Bytes) (start pos : Nat) : Option Nat :=
  if pos < bytes.length then do
    let passed ← minus? pos start
    if most.all (passed < ·) then do
      let b ← bytes[pos]?
      if p b then pass? p most bytes start (pos + 1) else some pos
    else some pos
  else some pos
termination_by bytes.length - pos

/-- The bytes from one offset to another, if the first is not behind the second and the second not
behind the end. -/
def part? (bytes : Bytes) (start stop : Nat) : Option Bytes :=
  if start ≤ stop ∧ stop ≤ bytes.length then some (bytes.extract start stop) else none

theorem pass?_of_le {p : UInt8 → Bool} {most : Option Nat} {bytes : Bytes} {start pos : Nat}
    (hle : start ≤ pos) : pass? p most bytes start pos
      = some (pos + (cutFront p (most.map (· - (pos - start))) (bytes.drop pos)).1.length) := by
  fun_induction pass? p most bytes start pos with
  | case1 pos hlt ih =>
    have hmost : most.all (fun n => pos - start < n) = true ↔
        most.map (· - (pos - start)) ≠ some 0 := by
      cases most with
      | none => simp
      | some n => simp; omega
    have hnext : (most.map (· - (pos - start))).map (· - 1) = most.map (· - (pos + 1 - start)) := by
      rw [Option.map_map]
      exact congrArg (Option.map · most) (by funext n; simp; omega)
    rw [List.drop_eq_getElem_cons hlt, cutFront, hnext]
    simp only [minus?, if_pos hle, Option.bind_eq_bind, Option.bind_some,
      List.getElem?_eq_getElem hlt, hmost]
    by_cases hlimit : most.map (· - (pos - start)) = some 0
    · simp [hlimit]
    · cases hb : p bytes[pos]
      · simp [hlimit]
      · simp [hlimit, ih (Nat.le_succ_of_le hle), Nat.add_assoc, Nat.add_comm 1]
  | case2 pos hge =>
    rw [List.drop_eq_nil_of_le (Nat.not_lt.1 hge)]
    rfl

/-- Between the offsets `n` and `m` stands `piece`, and from `m` on stands `rest`. -/
structure Piece (bytes : Bytes) (n m : Nat) (piece rest : Bytes) : Prop where
  /-- The piece begins at `n`. -/
  drop_start : bytes.drop n = piece ++ rest
  /-- It ends at `m`. -/
  stop_eq : m = n + piece.length

namespace Piece

variable {bytes piece rest : Bytes} {n m : Nat}

theorem drop_stop (h : Piece bytes n m piece rest) : bytes.drop m = rest := by
  rw [h.stop_eq, ← List.drop_drop, h.drop_start, List.drop_left]

theorem eq_iff (h : Piece bytes n m piece rest) : m = n ↔ piece = [] := by
  rw [h.stop_eq, Nat.add_eq_left, List.length_eq_zero_iff]

theorem start_le_stop (h : Piece bytes n m piece rest) : n ≤ m := by
  rw [h.stop_eq]
  exact Nat.le_add_right _ _

theorem start_lt_iff (h : Piece bytes n m piece rest) : n < m ↔ piece ≠ [] := by
  rw [h.stop_eq, Nat.lt_add_right_iff_pos, List.length_pos_iff]

theorem stop_le_length (h : Piece bytes n m piece rest) (hn : n ≤ bytes.length ∨ piece ≠ []) :
    m ≤ bytes.length := by
  have hlength := congrArg List.length h.drop_start
  rw [List.length_drop, List.length_append] at hlength
  have hstop := h.stop_eq
  rcases hn with hn | hne
  · omega
  · have hpos := List.length_pos_iff.2 hne
    omega

theorem part?_eq (h : Piece bytes n m piece rest) (hn : n ≤ bytes.length) :
    part? bytes n m = some piece := by
  rw [part?, if_pos ⟨h.start_le_stop, h.stop_le_length (Or.inl hn)⟩, List.extract_eq_take_drop,
    h.drop_start, h.stop_eq, Nat.add_sub_cancel_left, List.take_left]

/-- Bytes of ASCII are the text between their offsets. -/
theorem slice?_eq {text : String} (h : Piece (Utf8.encode text) n m piece rest) (hne : piece ≠ [])
    (hascii : ∀ b ∈ piece, b.toNat < 128) : Utf8.slice? text n m = some (asciiText piece) := by
  have hle := h.start_le_stop.trans (h.stop_le_length (Or.inr hne))
  have htext : Utf8.encode text = (Utf8.encode text).take n ++ (piece ++ rest) := by
    rw [← h.drop_start, List.take_append_drop]
  obtain ⟨cs, rfl, hslice⟩ := Utf8.slice?_of_ascii hne hascii htext
  rw [List.length_take_of_le hle, ← h.stop_eq] at hslice
  rw [hslice, asciiText_encodeChars (Utf8.toNat_lt_of_encodeChars hascii)]

end Piece

/-- **Nothing outside the bytes is looked at on the way**, and the way ends where a run of bytes of
the class does. -/
theorem pass?_takeWhile (p : UInt8 → Bool) {bytes bs : Bytes} {n : Nat} (h : bytes.drop n = bs) :
    ∃ m, pass? p none bytes n n = some m ∧ Piece bytes n m (bs.takeWhile p) (bs.dropWhile p) := by
  refine ⟨_, pass?_of_le (Nat.le_refl n), by simp [h], ?_⟩
  simp [h, Regex.cutFront_none]

theorem pass?_spanUpTo (p : UInt8 → Bool) (limit : Nat) {bytes bs : Bytes} {n : Nat}
    (h : bytes.drop n = bs) : ∃ m, pass? p (some limit) bytes n n = some m ∧
      Piece bytes n m (spanUpTo p limit bs).1 (spanUpTo p limit bs).2 := by
  refine ⟨_, pass?_of_le (Nat.le_refl n), by rw [h, spanUpTo_append], ?_⟩
  simp [h, cutFront_some]

/-- The offset where the digits, the point and the digits of a decimal end, if there is one. -/
def unsignedEnd? (bytes : Bytes) (start : Nat) : Option (Option Nat) := do
  let wholeEnd ← pass? isDigitByte none bytes start start
  let whole := if start < wholeEnd then some wholeEnd else none
  if bytes[wholeEnd]? = some 46 then do
    let partEnd ← pass? isDigitByte none bytes (wholeEnd + 1) (wholeEnd + 1)
    some (if wholeEnd + 1 < partEnd then some partEnd else whole)
  else some whole

/-- The offset where a decimal with its sign ends, if there is one. -/
def signedEnd? (bytes : Bytes) (start : Nat) : Option (Option Nat) :=
  unsignedEnd? bytes (if bytes[start]? = some 45 then start + 1 else start)

theorem unsignedEnd?_eq (bytes : Bytes) (start : Nat) : unsignedEnd? bytes start
    = some ((unsigned? (bytes.drop start)).map fun text => start + text.length) := by
  obtain ⟨wholeEnd, hwholeEnd, hwhole⟩ :=
    pass?_takeWhile isDigitByte (rfl : bytes.drop start = bytes.drop start)
  have hhead : bytes[wholeEnd]? = ((bytes.drop start).dropWhile isDigitByte).head? := by
    rw [← hwhole.drop_stop, List.head?_drop]
  have hbehind : bytes.drop (wholeEnd + 1) = ((bytes.drop start).dropWhile isDigitByte).tail := by
    rw [← hwhole.drop_stop, List.tail_drop]
  obtain ⟨partEnd, hpartEnd, hpart⟩ := pass?_takeWhile isDigitByte hbehind
  simp only [unsignedEnd?, hwholeEnd, hpartEnd, hhead, hwhole.start_lt_iff, hpart.start_lt_iff,
    Option.bind_eq_bind, Option.bind_some, unsigned?, drop_length_takeWhile]
  generalize (bytes.drop start).takeWhile isDigitByte = whole at hwhole hpart ⊢
  cases hrest : (bytes.drop start).dropWhile isDigitByte with
  | nil =>
    by_cases hnil : whole = [] <;> simp [fraction, hnil, hwhole.stop_eq]
  | cons b tail =>
    rw [hrest] at hpart
    by_cases hb : b = 46
    · subst hb
      rw [List.tail_cons] at hpart
      rw [fraction_cons_point rfl]
      by_cases hds : tail.takeWhile isDigitByte = []
      · by_cases hnil : whole = [] <;> simp [hds, hnil, hwhole.stop_eq]
      · simp [hds, hpart.stop_eq, hwhole.stop_eq, Nat.add_assoc, Nat.add_comm 1]
    · have hpoint : fraction (b :: tail) = [] :=
        fraction_cons_of_ne (fun h => hb (UInt8.toNat_inj.1 h)) tail
      by_cases hnil : whole = [] <;> simp [hpoint, hb, hnil, hwhole.stop_eq]

/-- **The end of a number is found by offsets**, and again nothing outside is looked at. -/
theorem signedEnd?_eq (bytes : Bytes) (start : Nat) :
    signedEnd? bytes start = some (numberEnd? bytes start) := by
  rw [signedEnd?, unsignedEnd?_eq, numberEnd?, ← List.head?_drop]
  cases hdrop : bytes.drop start with
  | nil => simp [hdrop, number?, unsigned?, fraction]
  | cons b tail =>
    have htail : bytes.drop (start + 1) = tail := by
      rw [← List.drop_drop, hdrop]
      rfl
    by_cases hb : b = 45
    · subst hb
      simp [number?, htail, Nat.add_assoc, Nat.add_comm 1, Function.comp_def]
    · have hminus : b.toNat ≠ 45 := fun h => hb (UInt8.toNat_inj.1 h)
      simp [number?, hb, hminus, hdrop]

/-! ## A clause by its offsets -/

/-- What stands at a place, with the offset of what is behind it. -/
inductive Sighting where
  /-- No clause starts here. -/
  | none
  /-- A clause, and the offset behind it and its connective. -/
  | clause (found : Clause) (stop : Nat)
  /-- A clause but for its operator. -/
  | stray (error : PredicateError)
  deriving DecidableEq

/-- The same, with the bytes behind it. -/
def Sighting.toMatch (bytes : Bytes) : Sighting → Match
  | .none => .none
  | .clause found stop => .clause found (bytes.drop stop)
  | .stray error => .stray error

/-- The offsets of a field, an operator and a number. -/
structure Places where
  /-- The front of the field. -/
  fieldStart : Nat
  /-- Behind the field. -/
  fieldEnd : Nat
  /-- The front of the operator. -/
  operatorStart : Nat
  /-- Behind the operator. -/
  operatorEnd : Nat
  /-- The front of the number. -/
  numberStart : Nat
  /-- Behind the number. -/
  numberEnd : Nat

/-- The clause whose field, operator and number stand at the given places of a text. -/
def sightAt? (text : String) (places : Places) : Option Sighting := do
  let bytes := Utf8.encode text
  let spelling ← Utf8.slice? text places.operatorStart places.operatorEnd
  match Operator.ofText? spelling with
  | .none => some (.stray (.unknownOperator spelling places.operatorStart))
  | .some op =>
    let literal ← Utf8.slice? text places.numberStart places.numberEnd
    match Binary64.ofText? literal with
    | .none => some .none
    | .some threshold =>
      let connectiveStart ← pass? isSpaceByte none bytes places.numberEnd places.numberEnd
      let connectiveEnd ← pass? isConnectiveByte (some 2) bytes connectiveStart connectiveStart
      let connective ← part? bytes connectiveStart connectiveEnd
      let stop ← pass? isSpaceByte none bytes connectiveEnd connectiveEnd
      let field ← Utf8.slice? text places.fieldStart places.fieldEnd
      some (.clause ⟨places.fieldStart, ⟨field, op, threshold, literal⟩,
        connective.any fun b => b.toNat == 124⟩ stop)

/-- What stands at an offset of a text. -/
def sight? (text : String) (start : Nat) : Option Sighting := do
  let bytes := Utf8.encode text
  let fieldEnd ← pass? isWordByte none bytes start start
  if fieldEnd = start then some .none
  else do
    let operatorStart ← pass? isSpaceByte none bytes fieldEnd fieldEnd
    let operatorEnd ← pass? isOperatorByte (some 2) bytes operatorStart operatorStart
    if operatorEnd = operatorStart then some .none
    else do
      let numberStart ← pass? isSpaceByte none bytes operatorEnd operatorEnd
      match ← signedEnd? bytes numberStart with
      | .none => some .none
      | .some numberEnd =>
        sightAt? text ⟨start, fieldEnd, operatorStart, operatorEnd, numberStart, numberEnd⟩

/-- The parts of a clause that begins at the front of `bs` stand at their places. -/
structure Places.Hold (places : Places) (bytes bs literal : Bytes) : Prop where
  /-- The field begins `bs`. -/
  start : bytes.drop places.fieldStart = bs
  /-- The field. -/
  field : Piece bytes places.fieldStart places.fieldEnd (bs.takeWhile isWordByte)
    (bs.dropWhile isWordByte)
  /-- Blanks. -/
  gap : Piece bytes places.fieldEnd places.operatorStart
    ((bs.dropWhile isWordByte).takeWhile isSpaceByte) (atOperator bs)
  /-- The operator. -/
  operator : Piece bytes places.operatorStart places.operatorEnd (operatorCut bs).1
    (operatorCut bs).2
  /-- The number. -/
  number : Piece bytes places.numberStart places.numberEnd literal
    ((atNumber bs).drop literal.length)

theorem toNat_lt_of_class {isIn : Char → Bool} {isInByte : UInt8 → Bool} {b : UInt8}
    (h : Regex.ClassEncodes isIn isInByte) (hb : isInByte b = true) : b.toNat < 128 := by
  refine Nat.lt_of_not_le fun hle => ?_
  rw [h.byte b hle] at hb
  cases hb

theorem toNat_lt_of_mem_number? {bs literal : Bytes} (h : number? bs = some literal) :
    ∀ b ∈ literal, b.toNat < 128 := by
  have hdigit : ∀ {b : UInt8}, isDigitByte b = true → b.toNat < 128 :=
    fun hb => toNat_lt_of_class classEncodes_digit hb
  have hunsigned : ∀ {text}, IsUnsigned text → ∀ b ∈ text, b.toNat < 128 := by
    rintro text ⟨whole, part, rfl, hwhole, hpart⟩ b hb
    rcases List.mem_append.1 hb with hb | hb
    · exact hdigit (hwhole b hb)
    · rcases hpart with ⟨rfl, -⟩ | ⟨ds, rfl, -, hds⟩
      · cases hb
      · rcases List.mem_cons.1 hb with rfl | hb
        · decide
        · exact hdigit (hds b hb)
  rcases isUnsigned_of_number? h with htext | ⟨text, rfl, htext⟩
  · exact hunsigned htext
  · simpa using hunsigned htext

theorem forall_mem_spanUpTo (p : UInt8 → Bool) (limit : Nat) (bs : Bytes) :
    ∀ b ∈ (spanUpTo p limit bs).1, p b = true := by
  induction bs generalizing limit with
  | nil => cases limit <;> simp [spanUpTo]
  | cons b bs ih =>
    cases limit with
    | zero => simp [spanUpTo]
    | succ limit =>
      rw [spanUpTo]
      split
      · rename_i hb
        simpa [hb] using ih limit
      · simp

/-- The operator is as far from the field as what is left there is shorter. -/
theorem Places.Hold.operatorStart_eq {places : Places} {bytes bs literal : Bytes}
    (h : places.Hold bytes bs literal) (hop : (operatorCut bs).1 ≠ []) :
    places.fieldStart + (bs.length - (atOperator bs).length) = places.operatorStart := by
  have hfield := congrArg List.length h.start
  have hgap := congrArg List.length h.gap.drop_stop
  rw [List.length_drop] at hfield hgap
  have hle := h.field.start_le_stop.trans h.gap.start_le_stop
  have hlength := h.operator.start_le_stop.trans (h.operator.stop_le_length (Or.inr hop))
  omega

theorem sightAt?_eq {text : String} {places : Places} {bs literal : Bytes} {threshold : Binary64}
    (h : places.Hold (Utf8.encode text) bs literal) (hfield : bs.takeWhile isWordByte ≠ [])
    (hop : (operatorCut bs).1 ≠ []) (hliteral : number? (atNumber bs) = some literal)
    (hthreshold : Binary64.ofText? (asciiText literal) = some threshold) :
    ∃ sighting, sightAt? text places = some sighting ∧
      sighting.toMatch (Utf8.encode text) = matchAt places.fieldStart bs ∧
      ∀ found stop, sighting = .clause found stop → stop ≤ (Utf8.encode text).length := by
  have hspelling := h.operator.slice?_eq hop fun b hb =>
    toNat_lt_of_class classEncodes_operator (forall_mem_spanUpTo _ _ _ b hb)
  have hne : literal ≠ [] := ne_nil_of_mem_decimals (mem_decimals_of_number? hliteral)
  have hnumber := h.number.slice?_eq hne (toNat_lt_of_mem_number? hliteral)
  have hword := h.field.slice?_eq hfield fun b hb =>
    toNat_lt_of_class classEncodes_word (forall_mem_takeWhile _ _ b hb)
  rw [matchAt_of_parts places.fieldStart hfield hop hliteral hthreshold]
  simp only [sightAt?, hspelling, Option.bind_eq_bind, Option.bind_some]
  cases hknown : Operator.ofText? (asciiText (operatorCut bs).1) with
  | none =>
    refine ⟨_, rfl, ?_, by simp⟩
    simp only [Sighting.toMatch, h.operatorStart_eq hop]
  | some op =>
    obtain ⟨connectiveStart, hconnectiveStart, hblank⟩ :=
      pass?_takeWhile isSpaceByte h.number.drop_stop
    obtain ⟨connectiveEnd, hconnectiveEnd, hconnective⟩ :=
      pass?_spanUpTo isConnectiveByte 2 hblank.drop_stop
    obtain ⟨stop, hstop, hbehind⟩ := pass?_takeWhile isSpaceByte hconnective.drop_stop
    have hlength := hblank.stop_le_length (Or.inl (h.number.stop_le_length (Or.inr hne)))
    simp only [hnumber, hthreshold, hconnectiveStart, hconnectiveEnd, hstop, hword,
      hconnective.part?_eq hlength, Option.bind_some]
    refine ⟨_, rfl, ?_, ?_⟩
    · rw [Sighting.toMatch, hbehind.drop_stop]
      rfl
    · rintro found stop ⟨⟩
      exact hbehind.stop_le_length (Or.inl (hconnective.stop_le_length (Or.inl hlength)))

/-- **Whatever the offset, no byte outside the text is read and no character is cut.**  What is
seen there is what stands there. -/
theorem sight?_eq (text : String) (start : Nat) : ∃ sighting, sight? text start = some sighting ∧
    sighting.toMatch (Utf8.encode text) = matchAt start ((Utf8.encode text).drop start) ∧
    ∀ found stop, sighting = .clause found stop → stop ≤ (Utf8.encode text).length := by
  generalize hbs : (Utf8.encode text).drop start = bs
  obtain ⟨fieldEnd, hfieldEnd, hfield⟩ := pass?_takeWhile isWordByte hbs
  obtain ⟨operatorStart, hoperatorStart, hgap⟩ := pass?_takeWhile isSpaceByte hfield.drop_stop
  rw [← skipSpace, ← atOperator_eq] at hgap
  obtain ⟨operatorEnd, hoperatorEnd, hoperator⟩ := pass?_spanUpTo isOperatorByte 2 hgap.drop_stop
  rw [← operatorCut] at hoperator
  obtain ⟨numberStart, hnumberStart, hgap'⟩ := pass?_takeWhile isSpaceByte hoperator.drop_stop
  have hnumber : signedEnd? (Utf8.encode text) numberStart
      = some ((number? (atNumber bs)).map fun literal => numberStart + literal.length) := by
    rw [signedEnd?_eq, numberEnd?, hgap'.drop_stop]
    rfl
  simp only [sight?, hfieldEnd, hoperatorStart, hoperatorEnd, hnumberStart, hnumber,
    hfield.eq_iff, hoperator.eq_iff, Option.bind_eq_bind, Option.bind_some]
  rcases missing_or_complete bs with
    hmissing | ⟨literal, threshold, hword, hop, hliteral, hthreshold⟩
  · refine ⟨.none, ?_, (matchAt_of_missing start hmissing).symm, by simp⟩
    rcases hmissing with h | h | h <;> simp [h]
  · have hhold : Places.Hold ⟨start, fieldEnd, operatorStart, operatorEnd, numberStart,
        numberStart + literal.length⟩ (Utf8.encode text) bs literal := by
      refine ⟨hbs, hfield, hgap, hoperator, ?_, rfl⟩
      rw [List.prefix_iff_eq_append.1 (prefix_of_number? hliteral)]
      exact hgap'.drop_stop
    simp only [hword, hop, hliteral, if_false, Option.map_some]
    exact sightAt?_eq hhold hword hop hliteral hthreshold

/-- A clause ends behind its front. -/
theorem lt_of_toMatch {bytes : Bytes} {start stop : Nat} {found : Clause}
    (h : Sighting.toMatch bytes (.clause found stop) = matchAt start (bytes.drop start)) :
    start < stop := by
  have hshorter := length_rest_lt h.symm
  simp only [List.length_drop] at hshorter
  omega

end Clause

/-! ## The whole search -/

namespace Search

open Clause

/-- A search from an offset on, in at most the given number of rounds, and the offsets that it was
at. -/
def loop? (text : String) : (rounds pos : Nat) → Option (List Nat × Search)
  | 0, _ => none
  | rounds + 1, pos =>
    if pos < (Utf8.encode text).length then do
      match ← sight? text pos with
      | .none =>
        let later ← loop? text rounds (pos + 1)
        some (pos :: later.1, later.2)
      | .stray error => some ([pos], ⟨[], some error⟩)
      | .clause found stop =>
        let later ← loop? text rounds stop
        some (pos :: later.1, later.2.cons found)
    else some ([pos], ⟨[], none⟩)

/-- The offsets of a search in a text of the given length, from `first` on. -/
structure Climbs (length first : Nat) (offsets : List Nat) (s : Search) : Prop where
  /-- The first offset is where it begins. -/
  head : offsets.head? = some first
  /-- Each offset is behind the one before it. -/
  ascending : offsets.Pairwise (· < ·)
  /-- None is behind the end. -/
  le_length : ∀ pos ∈ offsets, pos ≤ length
  /-- The last one is the end, unless an error has stopped the search. -/
  last : s.stopped = none → offsets.getLast? = some length

theorem Climbs.single {length pos : Nat} {s : Search} (hpos : pos ≤ length)
    (hlast : s.stopped = none → pos = length) : Climbs length pos [pos] s where
  head := rfl
  ascending := by simp
  le_length := by simpa using hpos
  last h := by simp [hlast h]

theorem Climbs.cons {length pos next : Nat} {offsets : List Nat} {s s' : Search}
    (h : Climbs length next offsets s) (hlt : pos < next) (hs : s'.stopped = s.stopped) :
    Climbs length pos (pos :: offsets) s' := by
  obtain ⟨later, rfl⟩ := List.head?_eq_some_iff.1 h.head
  have hnext : next ≤ length := h.le_length next List.mem_cons_self
  refine ⟨rfl, List.pairwise_cons.2 ⟨fun o ho => ?_, h.ascending⟩, fun o ho => ?_,
    fun hstopped => ?_⟩
  · rcases List.mem_cons.1 ho with rfl | ho
    · exact hlt
    · exact hlt.trans (List.rel_of_pairwise_cons h.ascending ho)
  · rcases List.mem_cons.1 ho with rfl | ho
    · exact hlt.le.trans hnext
    · exact h.le_length o ho
  · rw [List.getLast?_cons_cons]
    exact h.last (hs.symm.trans hstopped)

/-- **The search by offsets is the search**, and it climbs to the end of the text. -/
theorem loop?_eq (text : String) (rounds pos : Nat) (hpos : pos ≤ (Utf8.encode text).length)
    (hrounds : (Utf8.encode text).length < pos + rounds) : ∃ offsets,
      loop? text rounds pos = some (offsets, run pos ((Utf8.encode text).drop pos)) ∧
        Climbs (Utf8.encode text).length pos offsets (run pos ((Utf8.encode text).drop pos)) := by
  induction rounds generalizing pos with
  | zero => omega
  | succ rounds ih =>
    rw [loop?]
    by_cases hlt : pos < (Utf8.encode text).length
    · obtain ⟨sighting, hsighting, hmatch, hwithin⟩ := sight?_eq text pos
      rw [if_pos hlt, hsighting, Option.bind_eq_bind, Option.bind_some]
      cases sighting with
      | none =>
        have hdrop := List.drop_eq_getElem_cons hlt
        have hrun : run pos ((Utf8.encode text).drop pos)
            = run (pos + 1) ((Utf8.encode text).drop (pos + 1)) := by
          rw [hdrop] at hmatch ⊢
          exact run_of_none hmatch.symm
        obtain ⟨offsets, hloop, hclimbs⟩ := ih (pos + 1) hlt (by omega)
        exact ⟨pos :: offsets, by simp [hloop, hrun],
          hclimbs.cons (Nat.lt_succ_self pos) (by rw [hrun])⟩
      | clause found stop =>
        have hfront := lt_of_toMatch hmatch
        have hstop := hwithin found stop rfl
        have hrun : run pos ((Utf8.encode text).drop pos)
            = (run stop ((Utf8.encode text).drop stop)).cons found := by
          rw [run_of_clause hmatch.symm]
          congr 2
          simp only [List.length_drop]
          omega
        obtain ⟨offsets, hloop, hclimbs⟩ := ih stop hstop (by omega)
        exact ⟨pos :: offsets, by simp [hloop, hrun], hclimbs.cons hfront (by rw [hrun]; rfl)⟩
      | stray error =>
        rw [run_of_stray hmatch.symm]
        exact ⟨[pos], rfl, .single hpos (by simp)⟩
    · rw [if_neg hlt, List.drop_eq_nil_of_le (Nat.not_lt.1 hlt), run_nil]
      exact ⟨[pos], rfl, .single hpos fun _ => by omega⟩

end Search

/-- **Reading a predicate text never leaves it, cuts no character and comes to an end.**  At every
offset the search looks at bytes of the text only and cuts out whole characters only, and what it
sees is what stands there; a clause ends behind its front and within the text.  So the offsets that
the whole search is at ascend, from the front of the text to its end or to the error that stops it,
and there are no more of them than the text has bytes and one. -/
theorem ConditionSet.parse_within_text (text : String) :
    (∀ start, ∃ sighting, Clause.sight? text start = some sighting ∧
      sighting.toMatch (Utf8.encode text)
        = Clause.matchAt start ((Utf8.encode text).drop start) ∧
      ∀ found stop, sighting = .clause found stop →
        start < stop ∧ stop ≤ (Utf8.encode text).length) ∧
    ∃ offsets, Search.loop? text ((Utf8.encode text).length + 1) 0
        = some (offsets, Search.ofText text) ∧
      Search.Climbs (Utf8.encode text).length 0 offsets (Search.ofText text) := by
  refine ⟨fun start => ?_, Search.loop?_eq text _ 0 (Nat.zero_le _) (by omega)⟩
  obtain ⟨sighting, hsighting, hmatch, hwithin⟩ := Clause.sight?_eq text start
  refine ⟨sighting, hsighting, hmatch, fun found stop hclause => ?_⟩
  rw [hclause] at hmatch
  exact ⟨Clause.lt_of_toMatch hmatch, hwithin found stop hclause⟩

/-- In `é a>1||ü` nothing starts inside the first character, the clause ends with its bars, and the
search goes on from there to the end. -/
theorem ConditionSet.parse_within_text_accents :
    let text := "é a>1||ü"
    let a : Clause := ⟨3, ⟨"a", .gt, .ofBits 0x3FF0000000000000, "1"⟩, true⟩
    Clause.sight? text 1 = some .none ∧
      (Clause.sight? text 3 = some (.clause a 8) ∧ 3 < 8 ∧ 8 ≤ (Utf8.encode text).length) ∧
      Search.loop? text 11 0 = some ([0, 1, 2, 3, 8, 9, 10], ⟨[a], none⟩) := by
  intro text a
  obtain ⟨hsight, -⟩ := ConditionSet.parse_within_text text
  have hclause : Clause.sight? text 3 = some (.clause a 8) := by decide +kernel
  obtain ⟨sighting, hsighting, -, hwithin⟩ := hsight 3
  obtain rfl : sighting = .clause a 8 := Option.some_inj.1 (hsighting.symm.trans hclause)
  refine ⟨by decide +kernel, ⟨hclause, hwithin a 8 rfl⟩, by decide +kernel⟩

end LogSplit
