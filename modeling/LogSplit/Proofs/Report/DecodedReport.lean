import LogSplit.Proofs.Number.ShortestText
import LogSplit.Proofs.Program.Shown
import LogSplit.Proofs.Report.StandardJson
import LogSplit.Proofs.Report.WholeDocument

/-!
# What a report says as JSON

The document that is written for a report whose paths are texts is read back by the reader of
standard JSON as an object with all fields of the report (`Report.json_lossless`), so two such
reports never give the same text.  With any other path there is no whole document to read.

A rendered value is read from any place where a value may stand, and behind it the reader is where
a complete value leads (`read?_render`).  This needs one condition on what follows: it must not go
on with a character of a word, which would make a number longer.
-/

set_option autoImplicit false

namespace LogSplit

namespace StandardJson

/-! ## Strings -/

/-- A piece stands for a character, either by itself or by its code unit. -/
inductive Piece.Is : Piece → Char → Prop where
  /-- By itself. -/
  | char (c : Char) : Piece.Is (.char c) c
  /-- By its code unit, if there is only one. -/
  | unit {c : Char} (hc : c.toNat < 0xD800) : Piece.Is (.unit c.toNat) c

/-- The escape for a control character names its code unit. -/
theorem hexNumber?_control {n : Nat} (h : n < 0x20) :
    hexNumber? ['0', '0', Json.hexDigit (n / 16), Json.hexDigit (n % 16)] = some n := by
  revert n
  decide

/-- An escape with one letter. -/
theorem exists_piece?_letter {letter c : Char} (hletter : letter ≠ 'u')
    (h : escaped? letter = some c) (rest : List Char) :
    ∃ p, piece? ('\\' :: letter :: rest) = some (p, rest) ∧ p.Is c := by
  refine ⟨.char c, ?_, .char c⟩
  rw [piece?, if_pos rfl, escape?, if_neg hletter, h, Option.map_some]

/-- An escape with four digits. -/
theorem piece?_digits {ds : List Char} {n : Nat} (hlength : ds.length = 4)
    (h : hexNumber? ds = some n) (rest : List Char) :
    piece? ('\\' :: 'u' :: (ds ++ rest)) = some (.unit n, rest) := by
  have henough : ¬ (ds ++ rest).length < 4 := by
    rw [List.length_append]
    omega
  rw [piece?, if_pos rfl, escape?, if_pos rfl, if_neg henough, List.take_left' hlength,
    List.drop_left' hlength, h, Option.map_some]

/-- **Every character is read back from its place in a string.** -/
theorem piece?_escapeChar (c : Char) (rest : List Char) :
    ∃ p, piece? (Json.escapeChar c ++ rest) = some (p, rest) ∧ p.Is c := by
  rw [Json.escapeChar]
  split_ifs with hquote hbackslash hb hf hn hr ht hcontrol
  · exact exists_piece?_letter (by decide) (by rw [hquote]; rfl) rest
  · exact exists_piece?_letter (by decide) (by rw [hbackslash]; rfl) rest
  · exact exists_piece?_letter (by decide) (by rw [hb]; rfl) rest
  · exact exists_piece?_letter (by decide) (by rw [hf]; rfl) rest
  · exact exists_piece?_letter (by decide) (by rw [hn]; rfl) rest
  · exact exists_piece?_letter (by decide) (by rw [hr]; rfl) rest
  · exact exists_piece?_letter (by decide) (by rw [ht]; rfl) rest
  · exact ⟨_, piece?_digits rfl (hexNumber?_control hcontrol) rest, .unit (by omega)⟩
  · refine ⟨.char c, ?_, .char c⟩
    rw [List.singleton_append, piece?, if_neg hbackslash, if_neg (not_or.2 ⟨hquote, hcontrol⟩)]

/-- A piece is no quote, so the string goes on. -/
theorem pieces?_of_piece? {cs rest : List Char} {p : Piece} (h : piece? cs = some (p, rest)) :
    pieces? cs = (pieces? rest).map fun (ps, behind) => (p :: ps, behind) := by
  cases cs with
  | nil => cases h
  | cons c tail =>
    have hquote : c ≠ '"' := by
      rintro rfl
      cases h
    rw [pieces?, if_neg hquote]
    split <;> rename_i heq <;> cases heq.symm.trans h
    rfl

theorem pieces?_escaped (cs rest : List Char) :
    ∃ ps, pieces? (cs.flatMap Json.escapeChar ++ '"' :: rest) = some (ps, rest) ∧
      List.Forall₂ Piece.Is ps cs := by
  induction cs with
  | nil => exact ⟨[], by rw [List.flatMap_nil, List.nil_append, pieces?, if_pos rfl], .nil⟩
  | cons c cs ih =>
    obtain ⟨ps, hps, his⟩ := ih
    obtain ⟨p, hp, hc⟩ := piece?_escapeChar c (cs.flatMap Json.escapeChar ++ '"' :: rest)
    refine ⟨p :: ps, ?_, .cons hc his⟩
    rw [List.flatMap_cons, List.append_assoc, pieces?_of_piece? hp, hps]
    rfl

/-- A code unit that belongs to no pair is a character of its own. -/
theorem joined?_unit {n : Nat} (h : n < 0xD800) (ps : List Piece) :
    joined? (.unit n :: ps) = (joined? ps).map (Char.ofNat n :: ·) := by
  have hhigh : isHigh n = false := by
    rw [isHigh, decide_eq_false (by omega), Bool.false_and]
  have hlow : isLow n = false := by
    rw [isLow, decide_eq_false (by omega), Bool.false_and]
  cases ps with
  | nil => simp [joined?, hhigh, hlow]
  | cons p ps =>
    cases p with
    | char c => simp [joined?, hhigh, hlow]
    | unit m => simp [joined?, hhigh, hlow]

theorem joined?_of_is {ps : List Piece} {cs : List Char} (h : List.Forall₂ Piece.Is ps cs) :
    joined? ps = some cs := by
  induction h with
  | nil => rfl
  | cons hp _ ih =>
    cases hp with
    | char c => rw [joined?, ih, Option.map_some]
    | unit hc => rw [joined?_unit hc, ih, Option.map_some, Char.ofNat_toNat]

/-- **A string is read back.** -/
theorem text?_escaped (s : String) (rest : List Char) :
    text? (s.toList.flatMap Json.escapeChar ++ '"' :: rest) = some (s, rest) := by
  obtain ⟨ps, hps, his⟩ := pieces?_escaped s.toList rest
  simp only [text?, hps, joined?_of_is his, Option.map_some, String.ofList_toList]

/-! ## Numbers -/

theorem digitChar_ne_zero : ∀ n < 10, 0 < n → n.digitChar ≠ '0' := by decide

/-- A positive number is written without a zero in front. -/
theorem head?_toDigits {n : Nat} (h : 0 < n) : (Nat.toDigits 10 n).head? ≠ some '0' := by
  induction n using Nat.strongRecOn with
  | ind n ih =>
    rw [Nat.toDigits_eq_if (by decide)]
    split
    · rename_i hlt
      exact fun hhead => digitChar_ne_zero n hlt h (Option.some.inj hhead)
    · have hfront := ih (n / 10) (by omega) (by omega)
      cases hdigits : Nat.toDigits 10 (n / 10) with
      | nil => exact absurd hdigits Nat.toDigits_ne_nil
      | cons c cs =>
        rw [hdigits] at hfront
        exact hfront

/-- What begins with a digit is a number, and it has no sign. -/
theorem word?_of_digit {c : Char} (hc : c.isDigit = true) (cs : List Char) :
    word? (c :: cs) = if isPlainDecimal (c :: cs) then
      (Numeral.decimal? false (c :: cs)).map .number else none := by
  have hne : ∀ {d : Char} {ds : List Char}, d.isDigit = false → c :: cs ≠ d :: ds := by
    intro d ds hd heq
    rw [(List.cons.inj heq).1, hd] at hc
    cases hc
  have hminus : splitMinus (c :: cs) = (false, c :: cs) := by
    rw [splitMinus]
    rintro tail ⟨⟩
    cases hc
  rw [word?, if_neg (hne rfl), if_neg (hne rfl), if_neg (hne rfl), number?, hminus]
  dsimp only
  split <;> rfl

theorem isPlainDecimal_toDigits (n : Nat) : isPlainDecimal (Nat.toDigits 10 n) = true := by
  have hdigits : ∀ c ∈ Nat.toDigits 10 n, c.isDigit = true :=
    Decimal.isDigit_of_mem_decimalDigits
  have hzero : Nat.toDigits 10 n = ['0'] ∨ (Nat.toDigits 10 n).head? ≠ some '0' := by
    rcases Nat.eq_zero_or_pos n with rfl | hpos
    · exact Or.inl (Nat.toDigits_zero 10)
    · exact Or.inr (head?_toDigits hpos)
  rw [isPlainDecimal, List.takeWhile_eq_self_iff.2 hdigits, List.dropWhile_eq_nil_iff.2 hdigits]
  simpa [Nat.toDigits_ne_nil] using hzero

/-- **A whole number is read back.** -/
theorem word?_toDigits (n : Nat) : word? (Nat.toDigits 10 n) = some (.number ⟨false, n, 0⟩) := by
  have hvalue : Numeral.decimal? false (Nat.toDigits 10 n) = some ⟨false, n, -(0 : Nat)⟩ :=
    (Decimal.spells_decimalDigits n).decimal? false
  have hplain := isPlainDecimal_toDigits n
  obtain ⟨c, cs, hcons⟩ := List.exists_cons_of_ne_nil (@Nat.toDigits_ne_nil n 10)
  have hc : c.isDigit = true :=
    Decimal.isDigit_of_mem_decimalDigits c (hcons ▸ List.mem_cons_self : c ∈ Nat.toDigits 10 n)
  rw [hcons] at hvalue hplain ⊢
  rw [word?_of_digit hc, if_pos hplain, hvalue]
  rfl

/-! ## Reading on -/

/-- What follows does not go on with a word. -/
def EndsWord (cs : List Char) : Prop := ∀ c ∈ cs.head?, isWordChar c = false

theorem endsWord_cons {c : Char} (h : isWordChar c = false) (cs : List Char) :
    EndsWord (c :: cs) := by
  intro d hd
  obtain rfl := Option.some.inj hd
  exact h

section

variable {place place' : Place} {up : List Frame} {c : Char} {cs rest : List Char}

theorem read?_nil (place : Place) : read? place [] = some place := by
  rw [read?, tokens?]
  rfl

theorem read?_space (hc : isSpace c = true) : read? place (c :: cs) = read? place cs := by
  rw [read?, tokens?, if_pos hc, read?]

/-- A token is taken, and the rest is read from where it leads. -/
theorem read?_of_tokens? {t : Token} (htokens : tokens? cs = (tokens? rest).map (t :: ·))
    (htake : place.take? t = some place') : read? place cs = read? place' rest := by
  rw [read?, read?, htokens]
  cases tokens? rest with
  | none => rfl
  | some ts =>
    rw [Option.map_some, Option.bind_some, Option.bind_some, List.foldlM_cons, htake]
    rfl

theorem read?_mark (m : Mark) (htake : place.take? (.mark m) = some place') (cs : List Char) :
    read? place (m.char :: cs) = read? place' cs := by
  have hchar : isSpace m.char = false ∧ m.char ≠ '"' ∧ isWordChar m.char = false ∧
      Mark.ofChar? m.char = some m := by
    cases m <;> decide
  obtain ⟨hspace, hquote, hword, hm⟩ := hchar
  refine read?_of_tokens? ?_ htake
  rw [tokens?, hspace, if_neg Bool.false_ne_true, if_neg hquote, hword,
    if_neg Bool.false_ne_true, hm]

theorem read?_string {s : String} (htake : place.take? (.text s) = some place')
    (rest : List Char) : read? place (Json.string s ++ rest) = read? place' rest := by
  refine read?_of_tokens? ?_ htake
  have htext := text?_escaped s rest
  rw [Json.string, List.cons_append, List.cons_append, List.append_assoc, List.singleton_append,
    tokens?, if_neg (by decide), if_pos rfl]
  split
  · rename_i heq
    cases heq.symm.trans htext
  · rename_i heq
    cases heq.symm.trans htext
    rfl

theorem isWordChar_of_isDigit (hc : c.isDigit = true) : isWordChar c = true := by
  rw [isWordChar, Char.isAlphanum, hc, Bool.or_true, Bool.true_or]

theorem ne_of_isDigit (hc : c.isDigit = true) {d : Char} (hd : d.isDigit = false) : c ≠ d := by
  rintro rfl
  rw [hd] at hc
  cases hc

theorem read?_number {n : Nat} (htake : place.take? (.word (.number ⟨false, n, 0⟩)) = some place')
    (hrest : EndsWord rest) : read? place (Nat.toDigits 10 n ++ rest) = read? place' rest := by
  refine read?_of_tokens? ?_ htake
  have hword := word?_toDigits n
  have hdigits : ∀ c ∈ Nat.toDigits 10 n, c.isDigit = true :=
    Decimal.isDigit_of_mem_decimalDigits
  obtain ⟨c, ds, hcons⟩ := List.exists_cons_of_ne_nil (@Nat.toDigits_ne_nil n 10)
  rw [hcons] at hword hdigits ⊢
  have hc := hdigits c List.mem_cons_self
  have hds : ∀ d ∈ ds, isWordChar d = true :=
    fun d hd => isWordChar_of_isDigit (hdigits d (List.mem_cons_of_mem c hd))
  have hspace : isSpace c = false := by
    simp [isSpace, ne_of_isDigit hc (show ' '.isDigit = false from rfl),
      ne_of_isDigit hc (show '\t'.isDigit = false from rfl),
      ne_of_isDigit hc (show '\n'.isDigit = false from rfl),
      ne_of_isDigit hc (show '\r'.isDigit = false from rfl)]
  have htaken : rest.takeWhile isWordChar = [] ∧ rest.dropWhile isWordChar = rest := by
    cases rest with
    | nil => exact ⟨rfl, rfl⟩
    | cons d rest =>
      have hd : ¬ isWordChar d = true := by simp [hrest d rfl]
      exact ⟨List.takeWhile_cons_of_neg hd, List.dropWhile_cons_of_neg hd⟩
  rw [List.cons_append, tokens?, hspace, if_neg Bool.false_ne_true,
    if_neg (ne_of_isDigit hc rfl), if_pos (isWordChar_of_isDigit hc),
    List.takeWhile_append_of_pos hds, htaken.1, List.append_nil, hword,
    List.dropWhile_append_of_pos hds, htaken.2]

theorem read?_newline (depth : Nat) (cs : List Char) :
    read? place (Json.newline depth ++ cs) = read? place cs := by
  rw [Json.newline, List.cons_append, read?_space (by decide)]
  induction 2 * depth with
  | zero => rfl
  | succ k ih => rw [List.replicate_succ, List.cons_append, read?_space (by decide), ih]

end

end StandardJson

/-! ## Rendered values -/

namespace Json

open StandardJson

mutual

/-- The value that a rendered value is read as. -/
def value : Json → Value
  | number n => .number ⟨false, n, 0⟩
  | text s => .text s
  | path p => .text p.text
  | list items => .list (values items)
  | object members => .object (memberValues members)

/-- The values of some items. -/
def values : List Json → List Value
  | [] => []
  | item :: rest => value item :: values rest

/-- The values of some members, with their names. -/
def memberValues : List (String × Json) → List (String × Value)
  | [] => []
  | (name, j) :: rest => (name, value j) :: memberValues rest

end

/-- A place where a value may stand that belongs to the frames `up`.  Behind the beginning of a list
the list may also end. -/
def MayStand (place : Place) (up : List Frame) : Prop :=
  ∀ t, t ≠ .mark .listEnd → place.take? t = Place.takeValue? up t

theorem mayStand_value (up : List Frame) : MayStand (.value up) up := fun _ _ => rfl

theorem mayStand_listStart (up : List Frame) : MayStand (.listStart up) (.item [] :: up) := by
  intro t ht
  cases t with
  | mark m =>
    cases m with
    | listEnd => exact absurd rfl ht
    | _ => rfl
  | _ => rfl

theorem endsWord_newline (depth : Nat) (cs : List Char) : EndsWord (newline depth ++ cs) :=
  endsWord_cons (by decide) _

theorem endsWord_renderItems {depth : Nat} {items : List Json} {rest : List Char}
    (h : (renderItems depth items).complete = true) (hrest : EndsWord rest) :
    EndsWord ((renderItems depth items).chars ++ rest) := by
  cases items with
  | nil => exact hrest
  | cons item items =>
    rw [chars_renderItems h]
    exact endsWord_cons (by decide) _

theorem endsWord_renderMembers {depth : Nat} {members : List (String × Json)} {rest : List Char}
    (h : (renderMembers depth members).complete = true) (hrest : EndsWord rest) :
    EndsWord ((renderMembers depth members).chars ++ rest) := by
  cases members with
  | nil => exact hrest
  | cons member members =>
    rw [chars_renderMembers h]
    exact endsWord_cons (by decide) _

/-- The name of a member and the colon behind it. -/
theorem read?_name {place : Place} {up : List Frame} {before : List (String × Value)}
    {name : String} (htake : place.take? (.text name) = some (.colon up before name))
    (cs : List Char) : read? place (string name ++ ':' :: ' ' :: cs)
      = read? (.value (.member before name :: up)) cs := by
  rw [read?_string htake]
  exact (read?_mark .colon rfl _).trans (read?_space (by decide))

mutual

/-- **A rendered value is read from any place where it may stand**, up to where it leads when it is
complete. -/
theorem read?_render : ∀ (j : Json) (depth : Nat) (place : Place) (up : List Frame)
    (rest : List Char), (render depth j).complete = true → MayStand place up → EndsWord rest →
      read? place ((render depth j).chars ++ rest) = read? (.deliver j.value up) rest
  | number n, depth, place, up, rest, hwhole, hplace, hrest => by
    rw [render, value]
    exact read?_number (hplace _ (by simp)) hrest
  | text s, depth, place, up, rest, hwhole, hplace, hrest => by
    rw [render, value]
    exact read?_string (hplace _ (by simp)) rest
  | path p, depth, place, up, rest, hwhole, hplace, hrest => by
    rw [render, Path.text?_of_isText (complete_path.1 hwhole), value]
    exact read?_string (hplace _ (by simp)) rest
  | list [], depth, place, up, rest, hwhole, hplace, hrest => by
    rw [render, value, values]
    exact (read?_mark .listStart (hplace _ (by simp)) _).trans (read?_mark .listEnd rfl rest)
  | list (item :: items), depth, place, up, rest, hwhole, hplace, hrest => by
    obtain ⟨hitem, hitems⟩ := List.forall_mem_cons.1 ((complete_list _).1 hwhole)
    rw [← complete_renderItems] at hitems
    rw [chars_list hwhole, value, values]
    simp only [List.cons_append, List.append_assoc, List.nil_append]
    refine (read?_mark .listStart (hplace _ (by simp)) _).trans ?_
    rw [read?_newline, read?_render item (depth + 1) _ _ _ hitem (mayStand_listStart up)
      (endsWord_renderItems hitems (endsWord_newline _ _))]
    refine (read?_renderItems items (depth + 1) up [item.value] _ hitems
      (endsWord_newline _ _)).trans ?_
    rw [read?_newline]
    exact read?_mark .listEnd rfl rest
  | object [], depth, place, up, rest, hwhole, hplace, hrest => by
    rw [render, value, memberValues]
    exact (read?_mark .objectStart (hplace _ (by simp)) _).trans (read?_mark .objectEnd rfl rest)
  | object ((name, j) :: members), depth, place, up, rest, hwhole, hplace, hrest => by
    obtain ⟨hvalue, hmembers⟩ := List.forall_mem_cons.1 ((complete_object _).1 hwhole)
    rw [← complete_renderMembers] at hmembers
    rw [chars_object hwhole, value, memberValues]
    simp only [List.cons_append, List.append_assoc, List.nil_append]
    refine (read?_mark .objectStart (hplace _ (by simp)) _).trans ?_
    rw [read?_newline, read?_name rfl, read?_render j (depth + 1) _ _ _ hvalue (mayStand_value _)
      (endsWord_renderMembers hmembers (endsWord_newline _ _))]
    refine (read?_renderMembers members (depth + 1) up [(name, j.value)] _ hmembers
      (endsWord_newline _ _)).trans ?_
    rw [read?_newline]
    exact read?_mark .objectEnd rfl rest

/-- The items behind the first are added to what has been read. -/
theorem read?_renderItems : ∀ (items : List Json) (depth : Nat) (up : List Frame)
    (before : List Value) (rest : List Char), (renderItems depth items).complete = true →
      EndsWord rest → read? (.listNext up before) ((renderItems depth items).chars ++ rest)
        = read? (.listNext up (before ++ values items)) rest
  | [], depth, up, before, rest, hwhole, hrest => by
    rw [renderItems, values, List.append_nil, Draft.chars_all, List.nil_append]
  | item :: items, depth, up, before, rest, hwhole, hrest => by
    obtain ⟨hitem, hitems⟩ := List.forall_mem_cons.1 ((complete_renderItems _).1 hwhole)
    rw [← complete_renderItems] at hitems
    rw [chars_renderItems hwhole, values]
    simp only [List.cons_append, List.append_assoc]
    refine (read?_mark .comma rfl _).trans ?_
    rw [read?_newline, read?_render item depth _ _ _ hitem (mayStand_value _)
      (endsWord_renderItems hitems hrest), Place.deliver,
      read?_renderItems items depth up _ rest hitems hrest, List.append_assoc,
      List.singleton_append]

/-- So are the members behind the first. -/
theorem read?_renderMembers : ∀ (members : List (String × Json)) (depth : Nat) (up : List Frame)
    (before : List (String × Value)) (rest : List Char),
      (renderMembers depth members).complete = true → EndsWord rest →
      read? (.objectNext up before) ((renderMembers depth members).chars ++ rest)
        = read? (.objectNext up (before ++ memberValues members)) rest
  | [], depth, up, before, rest, hwhole, hrest => by
    rw [renderMembers, memberValues, List.append_nil, Draft.chars_all, List.nil_append]
  | (name, j) :: members, depth, up, before, rest, hwhole, hrest => by
    obtain ⟨hvalue, hmembers⟩ := List.forall_mem_cons.1 ((complete_renderMembers _).1 hwhole)
    rw [← complete_renderMembers] at hmembers
    rw [chars_renderMembers hwhole, memberValues]
    simp only [List.cons_append, List.append_assoc]
    refine (read?_mark .comma rfl _).trans ?_
    rw [read?_newline, read?_name rfl, read?_render j depth _ _ _ hvalue (mayStand_value _)
      (endsWord_renderMembers hmembers hrest), Place.deliver,
      read?_renderMembers members depth up _ rest hmembers hrest, List.append_assoc,
      List.singleton_append]

end

/-- **A rendered value is decoded.** -/
theorem decode?_render {j : Json} (h : (render 0 j).complete = true) :
    decode? (render 0 j).text = some j.value := by
  have hread := read?_render j 0 (.value []) [] [] h (mayStand_value []) (fun c hc => nomatch hc)
  rw [List.append_nil, read?_nil, Place.deliver] at hread
  rw [decode?, Draft.text, String.toList_ofList, hread]

theorem values_map {α : Type} (f : α → Json) (xs : List α) :
    values (xs.map f) = xs.map fun x => (f x).value := by
  induction xs with
  | nil => rfl
  | cons x xs ih => rw [List.map_cons, values, ih, List.map_cons]

end Json

/-! ## Reports -/

open StandardJson

/-- The value of a whole number. -/
def StandardJson.Value.whole (n : Nat) : Value := .number ⟨false, n, 0⟩

/-- The object with the fields of a segment. -/
def SegmentReport.fields (s : SegmentReport) : Value :=
  .object [("index", .whole s.index), ("path", .text s.path.text),
    ("start_line", .whole s.startLine), ("end_line", .whole s.endLine), ("rows", .whole s.rows)]

/-- The object with the fields of a report. -/
def Report.fields (r : Report) : Value :=
  .object [("input", .text r.input.text), ("output_dir", .text r.outputDir.text),
    ("prefix", .text r.stem), ("header", .list (r.header.map .text)),
    ("conditions", .list (r.conditions.map .text)), ("or_connectives", .whole r.orConnectives),
    ("rows", .whole r.rows), ("matched_rows", .whole r.matchedRows),
    ("removed_files", .whole r.removedFiles),
    ("segments", .list (r.segments.map SegmentReport.fields))]

theorem SegmentReport.value_toJson (s : SegmentReport) : s.toJson.value = s.fields := by
  simp only [toJson, Json.value, Json.memberValues, fields, Value.whole]

theorem Report.value_toJson (r : Report) : r.toJson.value = r.fields := by
  simp only [toJson, Json.value, Json.memberValues, Json.values_map, SegmentReport.value_toJson,
    fields, Value.whole]

theorem SegmentReport.fields_inj {s s' : SegmentReport} (hs : s.path.IsText)
    (hs' : s'.path.IsText) (h : s.fields = s'.fields) : s = s' := by
  obtain ⟨index, path, startLine, endLine, rows⟩ := s
  obtain ⟨index', path', startLine', endLine', rows'⟩ := s'
  have hparts : index = index' ∧ path.text = path'.text ∧ startLine = startLine' ∧
      endLine = endLine' ∧ rows = rows' := by
    simpa [fields, Value.whole] using h
  obtain ⟨rfl, hpath, rfl, rfl, rfl⟩ := hparts
  obtain rfl := Path.IsText.eq_of_text_eq hs hs' hpath
  rfl

theorem SegmentReport.map_fields_inj {l l' : List SegmentReport} (hl : ∀ s ∈ l, s.path.IsText)
    (hl' : ∀ s ∈ l', s.path.IsText) (h : l.map fields = l'.map fields) : l = l' := by
  induction l generalizing l' with
  | nil => exact (List.map_eq_nil_iff.1 h.symm).symm
  | cons s l ih =>
    obtain ⟨s', rest, rfl, hs, hrest⟩ := List.map_eq_cons_iff.1 h.symm
    obtain ⟨hpath, hl⟩ := List.forall_mem_cons.1 hl
    obtain ⟨hpath', hl'⟩ := List.forall_mem_cons.1 hl'
    rw [fields_inj hpath hpath' hs.symm, ih hl hl' hrest.symm]

/-- The fields are all of a report. -/
theorem Report.fields_inj {r r' : Report} (hr : r.PathsAreText) (hr' : r'.PathsAreText)
    (h : r.fields = r'.fields) : r = r' := by
  obtain ⟨input, outputDir, stem, header, conditions, orConnectives, rows, matchedRows,
    removedFiles, segments⟩ := r
  obtain ⟨input', outputDir', stem', header', conditions', orConnectives', rows', matchedRows',
    removedFiles', segments'⟩ := r'
  have htext : Function.Injective Value.text := fun _ _ => Value.text.inj
  have hparts : input.text = input'.text ∧ outputDir.text = outputDir'.text ∧ stem = stem' ∧
      header = header' ∧ conditions = conditions' ∧ orConnectives = orConnectives' ∧
      rows = rows' ∧ matchedRows = matchedRows' ∧ removedFiles = removedFiles' ∧
      segments.map SegmentReport.fields = segments'.map SegmentReport.fields := by
    simpa [fields, Value.whole, htext.list_map.eq_iff] using h
  obtain ⟨hinput, hdir, rfl, rfl, rfl, rfl, rfl, rfl, rfl, hsegments⟩ := hparts
  obtain rfl := Path.IsText.eq_of_text_eq hr.input hr'.input hinput
  obtain rfl := Path.IsText.eq_of_text_eq hr.outputDir hr'.outputDir hdir
  obtain rfl := SegmentReport.map_fields_inj hr.segments hr'.segments hsegments
  rfl

/-- **The JSON report loses nothing.**  What is shown as JSON of a report whose paths are texts is
one document and one line end.  The document is decoded as an object with exactly the fields of the
report, so no other such report gives the same text. -/
theorem Report.json_lossless {r : Report} (h : r.PathsAreText) :
    (∃ document : String, r.json.text = document ++ "\n" ∧
      document.toList.head? = some '\x7b' ∧ document.toList.getLast? = some '\x7d' ∧
      decode? document = some (.object [("input", .text r.input.text),
        ("output_dir", .text r.outputDir.text), ("prefix", .text r.stem),
        ("header", .list (r.header.map .text)), ("conditions", .list (r.conditions.map .text)),
        ("or_connectives", .whole r.orConnectives), ("rows", .whole r.rows),
        ("matched_rows", .whole r.matchedRows), ("removed_files", .whole r.removedFiles),
        ("segments", .list (r.segments.map fun s => .object [("index", .whole s.index),
          ("path", .text s.path.text), ("start_line", .whole s.startLine),
          ("end_line", .whole s.endLine), ("rows", .whole s.rows)]))])) ∧
    (∀ colors host, host.Fits (Utf8.encode r.json.text) → (r.print .json colors : OnHost _) host
      = (.ok (), { host with output := host.output ++ Utf8.encode r.json.text })) ∧
    ∀ r' : Report, r'.PathsAreText → r'.json.text = r.json.text → r' = r := by
  have hjson : ∀ {r : Report}, r.PathsAreText →
      r.json.text = (r.toJson.render 0).text ++ "\n" := by
    intro r hr
    rw [json, Json.document, Draft.text, Draft.chars_append ((r.complete_toJson 0).2 hr),
      Draft.chars_all, String.ofList_append]
    rfl
  have hdecode : ∀ {r : Report}, r.PathsAreText →
      decode? (r.toJson.render 0).text = some r.fields := fun {r} hr => by
    rw [Json.decode?_render ((r.complete_toJson 0).2 hr), value_toJson]
  have hchars := Json.chars_object ((r.complete_toJson 0).2 h)
  refine ⟨⟨_, hjson h, ?_, ?_, hdecode h⟩, fun colors host hfits => ?_, fun r' hr' heq => ?_⟩
  · rw [Draft.text, String.toList_ofList, toJson, hchars]
    rfl
  · rw [Draft.text, String.toList_ofList, toJson, hchars]
    simp only [← List.append_assoc, ← List.cons_append]
    exact List.getLast?_concat
  · rw [print_onHost, Report.shownAtEnd, if_pos hfits, Report.showsAs, if_neg, Host.showing, hfits]
    exact fun hstopped => by simp [r.complete_json_iff.2 h] at hstopped
  · rw [hjson h, hjson hr', String.append_left_inj] at heq
    have hfields := hdecode hr'
    rw [heq, hdecode h] at hfields
    exact (fields_inj h hr' (Option.some.inj hfields)).symm

/-- A report with quotes, a backslash, control characters and letters beyond ASCII. -/
def oddReport : Report where
  input := "a \"b\".txt"
  outputDir := "ä\n"
  stem := "back\\slash"
  header := ["t", "\x01"]
  conditions := []
  orConnectives := 0
  rows := 3
  matchedRows := 1
  removedFiles := 0
  segments := [⟨1, "ä\n/back\\slash-1.txt", 2, 2, 1⟩]

theorem json_lossless_odd : oddReport.PathsAreText ∧
    (∃ document : String, oddReport.json.text = document ++ "\n" ∧
      decode? document = some (.object [("input", .text "a \"b\".txt"),
        ("output_dir", .text "ä\n"), ("prefix", .text "back\\slash"),
        ("header", .list [.text "t", .text "\x01"]), ("conditions", .list []),
        ("or_connectives", .whole 0), ("rows", .whole 3), ("matched_rows", .whole 1),
        ("removed_files", .whole 0),
        ("segments", .list [.object [("index", .whole 1),
          ("path", .text "ä\n/back\\slash-1.txt"), ("start_line", .whole 2),
          ("end_line", .whole 2), ("rows", .whole 1)]])])) ∧
    ∀ r : Report, r.PathsAreText → r.json.text = oddReport.json.text → r = oddReport := by
  have htexts : oddReport.PathsAreText :=
    ⟨Path.isText_encode _, Path.isText_encode _, fun s hs => by
      rw [List.mem_singleton.1 hs]
      exact Path.isText_encode _⟩
  obtain ⟨⟨document, hdocument, -, -, hdecode⟩, -, hinj⟩ := Report.json_lossless htexts
  refine ⟨htexts, ⟨document, hdocument, hdecode.trans ?_⟩, hinj⟩
  simp [oddReport]

end LogSplit
