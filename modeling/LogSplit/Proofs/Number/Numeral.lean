import LogSplit.Number.Numeral

/-!
# The beginning of a numeral

A numeral that begins with a digit or a point, behind its sign, is a decimal: neither word that
stands for a number begins with one.
-/

set_option autoImplicit false

namespace LogSplit

namespace Numeral

theorem splitSign_of_ne {c : Char} (hminus : c ≠ '-') (hplus : c ≠ '+') (cs : List Char) :
    splitSign (c :: cs) = (false, c :: cs) := by
  unfold splitSign
  split
  · rename_i heq
    exact absurd (List.cons.inj heq).1 hminus
  · rename_i heq
    exact absurd (List.cons.inj heq).1 hplus
  · rfl

/-- A digit is no other character. -/
theorem ne_of_isDigit {c d : Char} (hc : c.isDigit = true) (hd : d.isDigit = false) : c ≠ d := by
  rintro rfl
  rw [hc] at hd
  cases hd

/-- A digit has no case. -/
theorem toLower_of_isDigit {c : Char} (h : c.isDigit = true) : c.toLower = c := by
  have hle : c.val ≤ '9'.val := of_decide_eq_true (Bool.and_eq_true_iff.1 h).2
  have hcase : ¬ (c.val ≥ 'A'.val ∧ c.val ≤ 'Z'.val) := fun hletter =>
    absurd (UInt32.le_trans hletter.1 hle) (by decide)
  exact dif_neg hcase

/-- Neither word begins with a digit or a point. -/
theorem parse?_eq_decimal? {cs rest : List Char} {c : Char} {negative : Bool}
    (hsign : splitSign cs = (negative, c :: rest)) (hc : c.isDigit = true ∨ c = '.') :
    parse? cs = (decimal? negative (c :: rest)).map .decimal := by
  have hhead : c.toLower ≠ 'i' ∧ c.toLower ≠ 'n' := by
    rcases hc with hdigit | rfl
    · rw [toLower_of_isDigit hdigit]
      exact ⟨ne_of_isDigit hdigit (by decide), ne_of_isDigit hdigit (by decide)⟩
    · decide
  rw [parse?, hsign]
  simp only
  rw [if_neg, if_neg]
  · exact fun hword => hhead.2 (List.cons.inj hword).1
  · rintro (hword | hword)
    · exact hhead.1 (List.cons.inj hword).1
    · exact hhead.1 (List.cons.inj hword).1

end Numeral

end LogSplit
