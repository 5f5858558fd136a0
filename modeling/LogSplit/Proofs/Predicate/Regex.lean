import Mathlib.Algebra.GroupWithZero.Nat
import Mathlib.Data.List.Basic

/-!
# Regular expressions that are tried in order

The regular expressions here are those of a backtracking search: a part can often be read off
the front of the input in several ways, the ways are tried in a fixed order, and a way that
leaves the parts behind it stuck is given up for the next one.  `Regex.outcomes` lists all ways
of reading a whole expression in the order of the search, so that what a search finds is the
head of that list, and `Regex.findAll` reads one match after the other off an input as far as
they go without overlap.

* A repeated class is greedy: longer readings come first (`repeats`).
* An optional part is read before it is left out.
* A group notes what was read inside it and where.

The characters may be of any type, since texts are read as characters and as bytes; where a
character stands is measured by its width.

The lemmas say when nothing has to be tried but the longest reading: `outcomes_seq_chars` and
`outcomes_seq_group_chars`, when what follows is stuck in front of the class that was repeated,
and `head?_outcomes_seq`, when what follows can be read behind the first reading.
-/

set_option autoImplicit false

namespace LogSplit

/-- A regular expression over some type of characters. -/
inductive Regex (α : Type) where
  /-- At least and at most so many characters of a class. -/
  | chars (isIn : α → Bool) (least : Nat) (most : Option Nat)
  /-- One part behind the other. -/
  | seq (front back : Regex α)
  /-- A part that may be left out. -/
  | optional (body : Regex α)
  /-- A part that is noted under a number. -/
  | group (number : Nat) (body : Regex α)

namespace Regex

variable {α β : Type}

/-- What a group was read from. -/
structure Capture (α : Type) where
  /-- The number of the group. -/
  number : Nat
  /-- Where it begins. -/
  offset : Nat
  /-- What it was read from. -/
  text : List α

/-- One way of reading an expression off the front of an input. -/
structure Outcome (α : Type) where
  /-- The groups. -/
  captures : List (Capture α)
  /-- All that was read. -/
  text : List α
  /-- What is left of the input. -/
  rest : List α

/-- One way of reading, and one of reading on. -/
def Outcome.append (o o' : Outcome α) : Outcome α :=
  ⟨o.captures ++ o'.captures, o.text ++ o'.text, o'.rest⟩

/-- The ways of cutting `least` to `most` characters of a class off an input, the longest
first. -/
def repeats (isIn : α → Bool) :
    (least : Nat) → (most : Option Nat) → List α → List (List α × List α)
  | least, _, [] => if least = 0 then [([], [])] else []
  | least, most, x :: xs =>
    (if most ≠ some 0 ∧ isIn x = true then
      (repeats isIn (least - 1) (most.map (· - 1)) xs).map fun cut => (x :: cut.1, cut.2)
    else []) ++ if least = 0 then [([], x :: xs)] else []

/-- How far apart the ends of some characters are. -/
def extent (width : α → Nat) (xs : List α) : Nat := (xs.map width).sum

/-- The ways of reading an expression off an input that begins at an offset, in the order in
which they are tried. -/
def outcomes (width : α → Nat) : Regex α → (offset : Nat) → List α → List (Outcome α)
  | chars isIn least most, _, xs =>
    (repeats isIn least most xs).map fun cut => ⟨[], cut.1, cut.2⟩
  | seq r s, offset, xs =>
    (r.outcomes width offset xs).flatMap fun o =>
      (s.outcomes width (offset + extent width o.text) o.rest).map o.append
  | optional r, offset, xs => r.outcomes width offset xs ++ [⟨[], [], xs⟩]
  | group number r, offset, xs =>
    (r.outcomes width offset xs).map fun o =>
      { o with captures := o.captures ++ [⟨number, offset, o.text⟩] }

/-- The groups of every match in an input that begins at an offset.  A match is looked for at
one character after the other; behind a match the search goes on where the match ends, and
behind an empty one with the next character. -/
def findAll (width : α → Nat) (r : Regex α) (offset : Nat) (xs : List α) :
    List (List (Capture α)) :=
  match (r.outcomes width offset xs).head? with
  | some o =>
    if o.rest.length < xs.length then
      o.captures :: findAll width r (offset + extent width o.text) o.rest
    else
      o.captures :: match xs with
        | [] => []
        | x :: tail => findAll width r (offset + width x) tail
  | none =>
    match xs with
    | [] => []
    | x :: tail => findAll width r (offset + width x) tail
termination_by xs.length

/-! ## Cutting off characters of a class -/

/-- The longest front of at most so many characters of a class, and the rest. -/
def cutFront (isIn : α → Bool) : (most : Option Nat) → List α → List α × List α
  | _, [] => ([], [])
  | most, x :: xs =>
    if most ≠ some 0 ∧ isIn x = true then
      (x :: (cutFront isIn (most.map (· - 1)) xs).1, (cutFront isIn (most.map (· - 1)) xs).2)
    else ([], x :: xs)

theorem cutFront_none (isIn : α → Bool) (xs : List α) :
    cutFront isIn none xs = (xs.takeWhile isIn, xs.dropWhile isIn) := by
  induction xs with
  | nil => rfl
  | cons x xs ih =>
    rw [cutFront]
    cases hx : isIn x <;> simp [hx, ih]

/-- A character outside the class stops a repetition. -/
theorem repeats_of_not {isIn : α → Bool} {x : α} (hx : isIn x = false) (least : Nat)
    (most : Option Nat) (xs : List α) :
    repeats isIn least most (x :: xs) = if least = 0 then [([], x :: xs)] else [] := by
  simp [repeats, hx]

/-- The first cut is the longest one, if that is long enough. -/
theorem head?_repeats (isIn : α → Bool) (xs : List α) :
    ∀ (least : Nat) (most : Option Nat), (repeats isIn least most xs).head?
      = if least ≤ (cutFront isIn most xs).1.length then some (cutFront isIn most xs)
        else none := by
  induction xs with
  | nil =>
    intro least most
    rcases Nat.eq_zero_or_pos least with rfl | h
    · rfl
    · rw [repeats, cutFront, if_neg (Nat.ne_of_gt h), if_neg (by simpa using Nat.ne_of_gt h)]
      rfl
  | cons x xs ih =>
    intro least most
    rw [repeats, cutFront]
    split
    · rw [List.head?_append, List.head?_map, ih]
      simp only [List.length_cons]
      by_cases hle : least ≤ (cutFront isIn (most.map (· - 1)) xs).1.length + 1
      · rw [if_pos (Nat.sub_le_of_le_add hle), if_pos hle]
        rfl
      · rw [if_neg (fun h => hle (by omega)), if_neg hle, if_neg (by omega)]
        rfl
    · rcases Nat.eq_zero_or_pos least with rfl | h
      · rfl
      · rw [if_neg (Nat.ne_of_gt h), if_neg (by simpa using Nat.ne_of_gt h)]
        rfl

/-- If nothing can be done in front of a character of the class, only the longest cut counts. -/
theorem flatMap_repeats {isIn : α → Bool} (xs : List α) :
    ∀ {f : List α × List α → List β},
      (∀ text x rest, isIn x = true → f (text, x :: rest) = []) →
      ∀ (least : Nat) (most : Option Nat), (repeats isIn least most xs).flatMap f
        = if least ≤ (cutFront isIn most xs).1.length then f (cutFront isIn most xs) else [] := by
  induction xs with
  | nil =>
    intro f _ least most
    rcases Nat.eq_zero_or_pos least with rfl | h
    · simp [repeats, cutFront]
    · rw [repeats, cutFront, if_neg (Nat.ne_of_gt h), if_neg (by simpa using Nat.ne_of_gt h)]
      rfl
  | cons x xs ih =>
    intro f hf least most
    rw [repeats, cutFront]
    split
    · rename_i hx
      have hlast : (if least = 0 then [([], x :: xs)] else []).flatMap f = [] := by
        split
        · simp [hf [] x xs hx.2]
        · rfl
      rw [List.flatMap_append, hlast, List.append_nil, List.flatMap_map,
        ih (fun text y rest hy => hf (x :: text) y rest hy)]
      simp only [List.length_cons, Nat.sub_le_iff_le_add]
    · rcases Nat.eq_zero_or_pos least with rfl | h
      · simp
      · rw [if_neg (Nat.ne_of_gt h), if_neg (by simpa using Nat.ne_of_gt h)]
        rfl

/-! ## When only the longest reading counts -/

variable {width : α → Nat}

/-- An expression cannot be read where the next character is `x`. -/
def StuckAt (width : α → Nat) (r : Regex α) (x : α) : Prop :=
  ∀ offset xs, r.outcomes width offset (x :: xs) = []

theorem stuckAt_chars {isIn : α → Bool} {x : α} (h : isIn x = false) (least : Nat)
    (most : Option Nat) : StuckAt width (.chars isIn (least + 1) most) x := by
  intro offset xs
  simp [outcomes, repeats, h]

theorem StuckAt.seq {r : Regex α} {x : α} (h : StuckAt width r x) (s : Regex α) :
    StuckAt width (.seq r s) x := by
  intro offset xs
  rw [outcomes, h]
  rfl

theorem StuckAt.group {r : Regex α} {x : α} (h : StuckAt width r x) (number : Nat) :
    StuckAt width (.group number r) x := by
  intro offset xs
  rw [outcomes, h]
  rfl

/-- A class that `x` is not in is left out in front of `x`. -/
theorem StuckAt.chars_seq {s : Regex α} {x : α} (h : StuckAt width s x) {isIn : α → Bool}
    (hx : isIn x = false) (most : Option Nat) :
    StuckAt width (.seq (.chars isIn 0 most) s) x := by
  intro offset xs
  simp [outcomes, repeats, hx, extent, h offset xs]

/-- Characters of a class, before something that is stuck in front of each of them. -/
theorem outcomes_seq_chars {isIn : α → Bool} {s : Regex α}
    (hs : ∀ x, isIn x = true → StuckAt width s x) (least : Nat) (most : Option Nat)
    (offset : Nat) (xs : List α) :
    (seq (chars isIn least most) s).outcomes width offset xs
      = if least ≤ (cutFront isIn most xs).1.length then
          (s.outcomes width (offset + extent width (cutFront isIn most xs).1)
            (cutFront isIn most xs).2).map (Outcome.append ⟨[], (cutFront isIn most xs).1,
              (cutFront isIn most xs).2⟩)
        else [] := by
  rw [outcomes, outcomes, List.flatMap_map]
  exact flatMap_repeats xs (fun text x rest hx => by simp [hs x hx _ rest]) least most

/-- The same where the characters are noted. -/
theorem outcomes_seq_group_chars {isIn : α → Bool} {s : Regex α}
    (hs : ∀ x, isIn x = true → StuckAt width s x) (number least : Nat) (most : Option Nat)
    (offset : Nat) (xs : List α) :
    (seq (group number (chars isIn least most)) s).outcomes width offset xs
      = if least ≤ (cutFront isIn most xs).1.length then
          (s.outcomes width (offset + extent width (cutFront isIn most xs).1)
            (cutFront isIn most xs).2).map
              (Outcome.append ⟨[⟨number, offset, (cutFront isIn most xs).1⟩],
                (cutFront isIn most xs).1, (cutFront isIn most xs).2⟩)
        else [] := by
  rw [outcomes, outcomes, outcomes, List.map_map, List.flatMap_map]
  exact flatMap_repeats xs (fun text x rest hx => by simp [hs x hx _ rest]) least most

/-- If both parts can be read at once, nothing else is tried. -/
theorem head?_outcomes_seq {r s : Regex α} {offset : Nat} {xs : List α} {o o' : Outcome α}
    (hr : (r.outcomes width offset xs).head? = some o)
    (hs : (s.outcomes width (offset + extent width o.text) o.rest).head? = some o') :
    ((seq r s).outcomes width offset xs).head? = some (o.append o') := by
  obtain ⟨os, hos⟩ := List.head?_eq_some_iff.1 hr
  rw [outcomes, hos, List.flatMap_cons, List.head?_append, List.head?_map, hs]
  rfl

/-- What is read first of characters of a class, if there are enough of them. -/
theorem head?_outcomes_chars (width : α → Nat) {isIn : α → Bool} {least : Nat}
    {most : Option Nat} {xs : List α} (h : least ≤ (cutFront isIn most xs).1.length)
    (offset : Nat) : ((chars isIn least most).outcomes width offset xs).head?
      = some ⟨[], (cutFront isIn most xs).1, (cutFront isIn most xs).2⟩ := by
  rw [outcomes, List.head?_map, head?_repeats, if_pos h]
  rfl

theorem head?_outcomes_group {r : Regex α} {offset : Nat} {xs : List α} {o : Outcome α}
    (hr : (r.outcomes width offset xs).head? = some o) (number : Nat) :
    ((group number r).outcomes width offset xs).head?
      = some ⟨o.captures ++ [⟨number, offset, o.text⟩], o.text, o.rest⟩ := by
  rw [outcomes, List.head?_map, hr]
  rfl

/-! ## Readings without their groups -/

/-- The ways of reading an expression off an input, as cuts of the input. -/
def readings : Regex α → List α → List (List α × List α)
  | chars isIn least most, xs => repeats isIn least most xs
  | seq r s, xs => (r.readings xs).flatMap fun cut =>
      (s.readings cut.2).map fun cut' => (cut.1 ++ cut'.1, cut'.2)
  | optional r, xs => r.readings xs ++ [([], xs)]
  | group _ r, xs => r.readings xs

theorem readings_seq (r s : Regex α) (xs : List α) :
    (seq r s).readings xs = (r.readings xs).flatMap fun cut =>
      (s.readings cut.2).map fun cut' => (cut.1 ++ cut'.1, cut'.2) :=
  rfl

theorem map_outcomes (width : α → Nat) (r : Regex α) : ∀ (offset : Nat) (xs : List α),
    (r.outcomes width offset xs).map (fun o => (o.text, o.rest)) = r.readings xs := by
  induction r with
  | chars isIn least most =>
    intro offset xs
    simp [outcomes, readings, Function.comp_def]
  | seq r s ihr ihs =>
    intro offset xs
    rw [outcomes, readings, List.map_flatMap, ← ihr offset xs, List.flatMap_map]
    refine List.flatMap_congr fun o _ => ?_
    rw [← ihs (offset + extent width o.text), List.map_map, List.map_map]
    rfl
  | optional r ih =>
    intro offset xs
    rw [outcomes, readings, List.map_append, ih]
    rfl
  | group number r ih =>
    intro offset xs
    rw [outcomes, readings, List.map_map, ← ih offset xs]
    rfl

theorem readings_seq_assoc (r s q : Regex α) (xs : List α) :
    (seq (seq r s) q).readings xs = (seq r (seq s q)).readings xs := by
  simp only [readings, List.flatMap_assoc, List.flatMap_map, List.map_flatMap, List.map_map]
  refine List.flatMap_congr fun cut _ => List.flatMap_congr fun cut' _ => ?_
  simp [Function.comp_def]

theorem readings_seq_optional (r s : Regex α) (xs : List α) :
    (seq (optional r) s).readings xs = (seq r s).readings xs ++ s.readings xs := by
  simp [readings]

theorem readings_seq_chars_cons {isIn : α → Bool} {x : α} (hx : isIn x = true) (s : Regex α)
    (xs : List α) : (seq (chars isIn 0 none) s).readings (x :: xs)
      = ((seq (chars isIn 0 none) s).readings xs).map (fun cut => (x :: cut.1, cut.2))
        ++ s.readings (x :: xs) := by
  simp [readings, repeats, hx, List.flatMap_map, List.map_flatMap, Function.comp_def]

/-- A class that the next character is not in is read as nothing. -/
theorem readings_seq_chars_of_not {isIn : α → Bool} {xs : List α}
    (h : ∀ x ∈ xs.head?, isIn x = false) (most : Option Nat) (s : Regex α) :
    (seq (chars isIn 0 most) s).readings xs = s.readings xs := by
  cases xs with
  | nil => simp [readings, repeats]
  | cons x xs => simp [readings, repeats, h x rfl]

theorem append_of_mem_repeats {isIn : α → Bool} {xs : List α} :
    ∀ {least : Nat} {most : Option Nat} {cut : List α × List α},
      cut ∈ repeats isIn least most xs → cut.1 ++ cut.2 = xs := by
  induction xs with
  | nil =>
    intro least most cut h
    rw [repeats] at h
    split at h
    · rw [List.mem_singleton.1 h]
      rfl
    · exact absurd h List.not_mem_nil
  | cons x xs ih =>
    intro least most cut h
    rw [repeats] at h
    rcases List.mem_append.1 h with h | h <;> split at h
    · obtain ⟨cut', h', rfl⟩ := List.mem_map.1 h
      exact congrArg (x :: ·) (ih h')
    · exact absurd h List.not_mem_nil
    · rw [List.mem_singleton.1 h]
      rfl
    · exact absurd h List.not_mem_nil

/-- A reading is a cut of the input. -/
theorem append_of_mem_readings (r : Regex α) : ∀ {xs : List α} {cut : List α × List α},
    cut ∈ r.readings xs → cut.1 ++ cut.2 = xs := by
  induction r with
  | chars isIn least most => exact fun h => append_of_mem_repeats h
  | seq r s ihr ihs =>
    intro xs cut h
    obtain ⟨cut₁, h₁, h⟩ := List.mem_flatMap.1 h
    obtain ⟨cut₂, h₂, rfl⟩ := List.mem_map.1 h
    rw [← ihr h₁, ← ihs h₂, List.append_assoc]
  | optional r ih =>
    intro xs cut h
    rcases List.mem_append.1 h with h | h
    · exact ih h
    · rw [List.mem_singleton.1 h]
      rfl
  | group number r ih => exact fun h => ih h

theorem text_append_rest {r : Regex α} {offset : Nat} {xs : List α} {o : Outcome α}
    (h : o ∈ r.outcomes width offset xs) : o.text ++ o.rest = xs := by
  have hmem : (o.text, o.rest) ∈ r.readings xs := by
    rw [← map_outcomes width r offset xs]
    exact List.mem_map_of_mem h
  exact append_of_mem_readings r hmem

/-- What a group notes is part of what was read. -/
theorem mem_text_of_mem_captures (r : Regex α) : ∀ {offset : Nat} {xs : List α} {o : Outcome α},
    o ∈ r.outcomes width offset xs → ∀ c ∈ o.captures, ∀ x ∈ c.text, x ∈ o.text := by
  induction r with
  | chars isIn least most =>
    intro offset xs o ho c hc
    obtain ⟨cut, _, rfl⟩ := List.mem_map.1 ho
    exact absurd hc List.not_mem_nil
  | seq r s ihr ihs =>
    intro offset xs o ho c hc x hx
    obtain ⟨o₁, ho₁, ho⟩ := List.mem_flatMap.1 ho
    obtain ⟨o₂, ho₂, rfl⟩ := List.mem_map.1 ho
    rcases List.mem_append.1 hc with hc | hc
    · exact List.mem_append_left _ (ihr ho₁ c hc x hx)
    · exact List.mem_append_right _ (ihs ho₂ c hc x hx)
  | optional r ih =>
    intro offset xs o ho c hc
    rcases List.mem_append.1 ho with ho | ho
    · exact ih ho c hc
    · rw [List.mem_singleton.1 ho] at hc
      exact absurd hc List.not_mem_nil
  | group number r ih =>
    intro offset xs o ho c hc x hx
    obtain ⟨o', ho', rfl⟩ := List.mem_map.1 ho
    rcases List.mem_append.1 hc with hc | hc
    · exact ih ho' c hc x hx
    · rw [List.mem_singleton.1 hc] at hx
      exact hx

/-- The numbers of the groups in an expression. -/
def numbers : Regex α → List Nat
  | chars .. => []
  | seq r s => r.numbers ++ s.numbers
  | optional r => r.numbers
  | group number r => r.numbers ++ [number]

/-- Only groups of the expression are noted. -/
theorem number_mem_numbers (r : Regex α) : ∀ {offset : Nat} {xs : List α} {o : Outcome α},
    o ∈ r.outcomes width offset xs → ∀ c ∈ o.captures, c.number ∈ r.numbers := by
  induction r with
  | chars isIn least most =>
    intro offset xs o ho c hc
    obtain ⟨cut, _, rfl⟩ := List.mem_map.1 ho
    exact absurd hc List.not_mem_nil
  | seq r s ihr ihs =>
    intro offset xs o ho c hc
    obtain ⟨o₁, ho₁, ho⟩ := List.mem_flatMap.1 ho
    obtain ⟨o₂, ho₂, rfl⟩ := List.mem_map.1 ho
    rcases List.mem_append.1 hc with hc | hc
    · exact List.mem_append_left _ (ihr ho₁ c hc)
    · exact List.mem_append_right _ (ihs ho₂ c hc)
  | optional r ih =>
    intro offset xs o ho c hc
    rcases List.mem_append.1 ho with ho | ho
    · exact ih ho c hc
    · rw [List.mem_singleton.1 ho] at hc
      exact absurd hc List.not_mem_nil
  | group number r ih =>
    intro offset xs o ho c hc
    obtain ⟨o', ho', rfl⟩ := List.mem_map.1 ho
    rcases List.mem_append.1 hc with hc | hc
    · exact List.mem_append_left _ (ih ho' c hc)
    · rw [List.mem_singleton.1 hc]
      exact List.mem_append_right _ (List.mem_singleton_self _)

/-! ## Groups -/

/-- The text of a group, which is empty where the group was left out. -/
def groupText (captures : List (Capture α)) (number : Nat) : List α :=
  ((captures.find? (·.number == number)).map (·.text)).getD []

/-- The offset of a group. -/
def groupOffset (captures : List (Capture α)) (number : Nat) : Nat :=
  ((captures.find? (·.number == number)).map (·.offset)).getD 0

theorem groupText_cons_self (number offset : Nat) (text : List α) (cs : List (Capture α)) :
    groupText (⟨number, offset, text⟩ :: cs) number = text := by
  simp [groupText]

theorem groupText_cons_of_ne {c : Capture α} {number : Nat} (h : c.number ≠ number)
    (cs : List (Capture α)) : groupText (c :: cs) number = groupText cs number := by
  simp [groupText, h]

theorem groupOffset_cons_self (number offset : Nat) (text : List α) (cs : List (Capture α)) :
    groupOffset (⟨number, offset, text⟩ :: cs) number = offset := by
  simp [groupOffset]

theorem groupOffset_cons_of_ne {c : Capture α} {number : Nat} (h : c.number ≠ number)
    (cs : List (Capture α)) : groupOffset (c :: cs) number = groupOffset cs number := by
  simp [groupOffset, h]

theorem groupText_append_of_forall {cs : List (Capture α)} {number : Nat}
    (h : ∀ c ∈ cs, c.number ≠ number) (cs' : List (Capture α)) :
    groupText (cs ++ cs') number = groupText cs' number := by
  induction cs with
  | nil => rfl
  | cons c cs ih =>
    rw [List.cons_append, groupText_cons_of_ne (h c List.mem_cons_self)]
    exact ih fun c hc => h c (List.mem_cons_of_mem _ hc)

end Regex

end LogSplit
