import LogSplit.Number.Shortest
import LogSplit.Proofs.Number.Numeral
import LogSplit.Proofs.Number.Rounding
import Mathlib.Data.List.TakeWhile

/-!
# A printed number reads back

The decimal that a finite number is printed as is one that is rounded to the number again
(`Binary64.nearestMagnitude_shortestDecimal`), and its text in positional notation spells a decimal
of the same value: zeros at the end of a fraction and in front of one make no difference, and a
whole number is written out (`Decimal.decimal?_positional`).  So the text of a finite number is read
as that number, bit by bit and with the sign of a zero (`Binary64.ofText?_toText`).
-/

set_option autoImplicit false

namespace LogSplit

namespace Binary64

/-! ## The decimal -/

/-- The neighbour of a number on the grid of the multiples of a power of ten that reads back. -/
def neighbour? (magnitude units : Nat) (power : Int) : Option Decimal :=
  let (num, den) := scaled units power
  let low : Decimal := ⟨false, num / den, power⟩
  let high : Decimal := ⟨false, num / den + 1, power⟩
  if low.nearestMagnitude = magnitude then
    if high.nearestMagnitude = magnitude ∧ den ≤ 2 * (num % den) then some high else some low
  else if high.nearestMagnitude = magnitude then some high
  else none

/-- A grid of significant digits is that of a power of ten.  Its power is not to be computed in a
proof, so it is a variable there. -/
theorem onGrid?_eq (magnitude units count : Nat) :
    onGrid? magnitude units count = neighbour? magnitude units (leadingPower units - count + 1) :=
  rfl

theorem nearestMagnitude_of_neighbour? {magnitude units : Nat} {power : Int} {d : Decimal}
    (h : neighbour? magnitude units power = some d) : d.nearestMagnitude = magnitude := by
  unfold neighbour? at h
  obtain ⟨num, den⟩ := scaled units power
  dsimp only at h
  split at h
  · rename_i hlow
    split at h
    · rename_i hhigh
      obtain rfl := Option.some_inj.1 h
      exact hhigh.1
    · obtain rfl := Option.some_inj.1 h
      exact hlow
  · split at h
    · rename_i hhigh
      obtain rfl := Option.some_inj.1 h
      exact hhigh
    · cases h

/-- The exact decimal is rounded to the number that it is the value of. -/
theorem nearestMagnitude_exactDecimal (units : Nat) :
    (exactDecimal units).nearestMagnitude = nearestMagnitude units 1 := by
  have hpower : (-(exactDecimal units).exponent).toNat = 1074 := rfl
  have hvalue {five two ten : Nat} (h : five * two = ten) :
      units * five * 1 * two * 1 = units * ten := by
    rw [← h, Nat.mul_one, Nat.mul_one, Nat.mul_assoc]
  rw [Decimal.nearestMagnitude_eq (show -1074 ≤ Decimal.maxExponent by decide), hpower]
  refine nearestMagnitude_congr ?_ Nat.one_pos (hvalue ?_)
  · decide +kernel
  · decide +kernel

theorem unitsOf_pos {magnitude : Nat} (h : 0 < magnitude) : 0 < unitsOf magnitude := by
  rw [unitsOf]
  split
  · exact h
  · exact Nat.mul_pos (Nat.add_pos_left (by decide) _) (Nat.pow_pos (by decide))

/-- **The shortest decimal reads back.** -/
theorem nearestMagnitude_shortestDecimal (magnitude : Nat) :
    (shortestDecimal magnitude).nearestMagnitude = magnitude := by
  rw [shortestDecimal]
  split
  · rename_i hunits
    rcases Nat.eq_zero_or_pos magnitude with rfl | hpos
    · rfl
    · exact absurd hunits (unitsOf_pos hpos).ne'
  · cases hfound : (List.range 17).findSome? fun i =>
        onGrid? magnitude (unitsOf magnitude) (i + 1) with
    | none =>
      rw [Option.getD_none, nearestMagnitude_exactDecimal, nearestMagnitude_unitsOf]
    | some d =>
      obtain ⟨i, -, hi⟩ := List.exists_of_findSome?_eq_some hfound
      rw [onGrid?_eq] at hi
      exact nearestMagnitude_of_neighbour? hi

end Binary64

/-! ## Its text -/

namespace Decimal

open Binary64

/-- A text is digits with at most one point among them and a digit on either side of it, and it
stands for a number of units of `10 ^ (-places)`. -/
inductive Spells : List Char → Nat → Nat → Prop where
  /-- No point. -/
  | whole {ds : List Char} (hne : ds ≠ []) (hds : ∀ c ∈ ds, c.isDigit = true) :
    Spells ds (digitsValue ds) 0
  /-- A point with some digits behind it. -/
  | point {front back : List Char} (hfrontNe : front ≠ [])
    (hfront : ∀ c ∈ front, c.isDigit = true) (hbackNe : back ≠ [])
    (hback : ∀ c ∈ back, c.isDigit = true) :
    Spells (front ++ '.' :: back) (digitsValue (front ++ back)) back.length

theorem digitsValue_decimalDigits (n : Nat) : digitsValue (decimalDigits n) = n :=
  Nat.ofDigitChars_ten_toDigits

theorem isDigit_of_mem_decimalDigits {n : Nat} : ∀ c ∈ decimalDigits n, c.isDigit = true :=
  fun _ hc => Nat.isDigit_of_mem_toDigits (by decide) (Nat.le_refl 10) hc

/-- Zeros in front of a number do not count. -/
theorem digitsValue_replicate_append (n : Nat) (ds : List Char) :
    digitsValue (List.replicate n '0' ++ ds) = digitsValue ds := by
  change Nat.ofDigitChars 10 _ 0 = Nat.ofDigitChars 10 ds 0
  rw [Nat.ofDigitChars_append, Nat.ofDigitChars_replicate_zero, Nat.mul_zero]

theorem spells_decimalDigits (n : Nat) : Spells (decimalDigits n) n 0 := by
  have hspells := @Spells.whole (decimalDigits n) Nat.toDigits_ne_nil isDigit_of_mem_decimalDigits
  rwa [digitsValue_decimalDigits] at hspells

theorem spells_pointed (digits places : Nat) : Spells (pointed digits places) digits places := by
  rw [pointed]
  split
  · rename_i hzero
    rw [hzero]
    exact spells_decimalDigits digits
  · rename_i hplaces
    dsimp only
    -- the zeros in front leave a digit before the point
    generalize hpadded : List.replicate (places + 1 - (decimalDigits digits).length) '0'
      ++ decimalDigits digits = padded
    have hlength : places < padded.length := by
      rw [← hpadded, List.length_append, List.length_replicate]
      omega
    have hdigit : ∀ c ∈ padded, c.isDigit = true := by
      rw [← hpadded]
      intro c hc
      rcases List.mem_append.1 hc with hc | hc
      · rw [List.eq_of_mem_replicate hc]
        rfl
      · exact isDigit_of_mem_decimalDigits c hc
    have hvalue : digitsValue padded = digits := by
      rw [← hpadded, digitsValue_replicate_append, digitsValue_decimalDigits]
    have hback : (padded.drop (padded.length - places)).length = places := by
      rw [List.length_drop]
      omega
    have hspells := @Spells.point
      (padded.take (padded.length - places)) (padded.drop (padded.length - places))
      (by rw [← List.length_pos_iff, List.length_take]; omega)
      (fun c hc => hdigit c (List.mem_of_mem_take hc))
      (by rw [← List.length_pos_iff, hback]; omega)
      (fun c hc => hdigit c (List.mem_of_mem_drop hc))
    rwa [List.take_append_drop, hvalue, hback] at hspells

/-- Taking zeros off leaves the same value. -/
theorem exists_trimZeros_eq (digits places : Nat) : ∃ zeros,
    places = (trimZeros digits places).2 + zeros ∧
      digits = (trimZeros digits places).1 * Nat.pow 10 zeros := by
  induction places generalizing digits with
  | zero => exact ⟨0, rfl, (Nat.mul_one digits).symm⟩
  | succ places ih =>
    rw [trimZeros]
    split
    · rename_i hzero
      obtain ⟨zeros, hplaces, hdigits⟩ := ih (digits / 10)
      refine ⟨zeros + 1, congrArg (· + 1) hplaces, ?_⟩
      rw [Nat.pow_eq, Nat.pow_succ, ← Nat.mul_assoc, ← Nat.pow_eq, ← hdigits]
      omega
    · exact ⟨0, rfl, (Nat.mul_one digits).symm⟩

/-- A decimal has the value of some units of a negative power of ten. -/
theorem sameValue_iff {d : Decimal} {negative : Bool} {digits places : Nat} :
    SameValue d ⟨negative, digits, -places⟩ ↔
      d.digits * Nat.pow 10 d.exponent.toNat * Nat.pow 10 places
        = digits * Nat.pow 10 (-d.exponent).toNat := by
  have hdown : (- -(places : Int)).toNat = places := by omega
  have hup : (-(places : Int)).toNat = 0 := by omega
  have hone : Nat.pow 10 0 = 1 := rfl
  rw [SameValue, hdown, hup, hone, Nat.mul_one]

/-- **The positional text of a decimal stands for its value.** -/
theorem exists_spells_positional (d : Decimal) : ∃ digits places,
    Spells d.positional digits places ∧ ∀ negative, SameValue d ⟨negative, digits, -places⟩ := by
  rw [positional]
  split
  · rename_i hnonneg
    refine ⟨_, 0, spells_decimalDigits _, fun negative => sameValue_iff.2 ?_⟩
    rw [Int.toNat_of_nonpos (by omega : -d.exponent ≤ 0)]
  · rename_i hneg
    obtain ⟨zeros, hplaces, hdigits⟩ := exists_trimZeros_eq d.digits (-d.exponent).toNat
    refine ⟨_, _, spells_pointed _ _, fun negative => sameValue_iff.2 ?_⟩
    generalize trimZeros d.digits (-d.exponent).toNat = trimmed at hplaces hdigits ⊢
    have hone : Nat.pow 10 d.exponent.toNat = 1 :=
      congrArg (Nat.pow 10) (Int.toNat_of_nonpos (by omega))
    rw [hone, Nat.mul_one, hplaces, hdigits, Nat.mul_assoc, Nat.pow_eq, Nat.pow_eq, Nat.pow_eq,
      ← Nat.pow_add, Nat.add_comm zeros]

/-! ## Reading the text -/

/-- A spelling is read as the units that it stands for. -/
theorem Spells.decimal? {cs : List Char} {digits places : Nat} (h : Spells cs digits places)
    (negative : Bool) : Numeral.decimal? negative cs = some ⟨negative, digits, -places⟩ := by
  rw [Numeral.decimal?]
  cases h with
  | whole hne hds =>
    simp [List.takeWhile_eq_self_iff.2 hds, List.dropWhile_eq_nil_iff.2 hds, hne,
      Numeral.exponent?]
  | @point front back hfrontNe hfront hbackNe hback =>
    have hstop : ('.' :: back).takeWhile Char.isDigit = [] := rfl
    have hrest : ('.' :: back).dropWhile Char.isDigit = '.' :: back := rfl
    rw [List.takeWhile_append_of_pos hfront, hstop, List.dropWhile_append_of_pos hfront, hrest]
    simp [List.takeWhile_eq_self_iff.2 hback, List.dropWhile_eq_nil_iff.2 hback, hfrontNe,
      Numeral.exponent?]

/-- A spelling begins with a digit. -/
theorem Spells.exists_cons {cs : List Char} {digits places : Nat} (h : Spells cs digits places) :
    ∃ c rest, cs = c :: rest ∧ c.isDigit = true := by
  cases h with
  | whole hne hds =>
    obtain ⟨c, rest, rfl⟩ := List.exists_cons_of_ne_nil hne
    exact ⟨c, rest, rfl, hds c List.mem_cons_self⟩
  | @point front back hfrontNe hfront hbackNe hback =>
    obtain ⟨c, rest, rfl⟩ := List.exists_cons_of_ne_nil hfrontNe
    exact ⟨c, rest ++ '.' :: back, rfl, hfront c List.mem_cons_self⟩

end Decimal

namespace Binary64

/-- A finite number is written as its sign and its shortest decimal. -/
theorem toText_of_isFinite {x : Binary64} (h : x.isFinite = true) :
    x.toText = String.ofList (if x.negative then '-' :: (shortestDecimal x.magnitude).positional
      else (shortestDecimal x.magnitude).positional) := by
  have hlt : x.magnitude < infinityMagnitude := of_decide_eq_true h
  have hnan : x.isNaN = false := decide_eq_false (Nat.lt_asymm hlt)
  have hinfinite : x.isInfinite = false := beq_false_of_ne hlt.ne
  rw [toText, hnan, hinfinite]
  rfl

/-- **The text of a finite number is read as that number.** -/
theorem ofText?_toText {x : Binary64} (h : x.isFinite = true) : ofText? x.toText = some x := by
  have hlt : x.magnitude < infinityMagnitude := of_decide_eq_true h
  obtain ⟨digits, places, hspells, hvalue⟩ :=
    (shortestDecimal x.magnitude).exists_spells_positional
  have hround := (hvalue x.negative).nearestMagnitude_eq
    (by rwa [nearestMagnitude_shortestDecimal])
    (show -(places : Int) ≤ 400 by omega)
  rw [nearestMagnitude_shortestDecimal] at hround
  have hnearest : Decimal.nearest ⟨x.negative, digits, -places⟩ = x := by
    rw [Decimal.nearest, hround]
    obtain ⟨negative, magnitude, hbits⟩ := x
    simp only [ofMagnitude, Nat.min_eq_left hlt.le]
  obtain ⟨c, rest, hcons, hdigit⟩ := hspells.exists_cons
  have hsign : Numeral.splitSign (x.toText).toList
      = (x.negative, (shortestDecimal x.magnitude).positional) := by
    rw [toText_of_isFinite h, String.toList_ofList]
    cases x.negative with
    | true => rfl
    | false =>
      rw [hcons]
      exact Numeral.splitSign_of_ne (Numeral.ne_of_isDigit hdigit rfl)
        (Numeral.ne_of_isDigit hdigit rfl) rest
  have hparse := Numeral.parse?_eq_decimal? (hcons ▸ hsign) (Or.inl hdigit)
  rw [← hcons, hspells.decimal?] at hparse
  rw [ofText?, hparse]
  exact congrArg some hnearest

/-- Any other number is written as a word, with a sign or without. -/
theorem toText_of_not_isFinite {x : Binary64} (h : x.isFinite = false) :
    x.toText ∈ ["NaN", "inf", "-inf"] := by
  rw [toText]
  split
  · exact List.mem_cons_self
  · rename_i hnan
    have hinfinite : x.isInfinite = true := by
      have hle : ¬ x.magnitude < infinityMagnitude := of_decide_eq_false h
      have hge : ¬ infinityMagnitude < x.magnitude := fun hlt => hnan (decide_eq_true hlt)
      exact beq_iff_eq.2 (by omega)
    rw [hinfinite, if_pos rfl]
    cases x.negative with
    | true => exact List.mem_of_mem_getLast? rfl
    | false => exact List.mem_cons_of_mem _ List.mem_cons_self

end Binary64

end LogSplit
