import LogSplit.Proofs.Text.Encoding
import LogSplit.Report.Json

/-!
# Reports that can be written as JSON

The document for a report is written from the front on, and a path without a text ends it there.
So the document is whole if and only if all paths of the report are texts
(`Report.complete_json_iff`).
-/

set_option autoImplicit false

namespace LogSplit

/-! ## Paths that are texts -/

namespace Path

variable {p p' : Path} {s : String}

/-- The bytes of the path are those of a text. -/
def IsText (p : Path) : Prop := ∃ text : String, p.bytes = Utf8.encode text

/-- The text of a path; of one that has none, the empty text. -/
def text (p : Path) : String := p.text?.getD ""

theorem text?_eq_some_iff : p.text? = some s ↔ p.bytes = Utf8.encode s := by
  rw [text?]
  constructor
  · intro h
    cases hdecode : Utf8.decode p.bytes with
    | error e =>
      rw [hdecode] at h
      cases h
    | ok text =>
      rw [hdecode] at h
      cases h
      exact (Utf8.encode_of_decode hdecode).symm
  · intro h
    rw [h, Utf8.decode_encode]
    rfl

theorem text?_of_isText (h : p.IsText) : p.text? = some p.text := by
  obtain ⟨text, htext⟩ := h
  rw [Path.text, text?_eq_some_iff.2 htext]
  rfl

theorem isText_encode (s : String) : IsText ⟨Utf8.encode s⟩ := ⟨s, rfl⟩

@[simp] theorem text_encode (s : String) : text ⟨Utf8.encode s⟩ = s := by
  have hs := text?_of_isText (isText_encode s)
  exact Utf8.encode_inj.1 (text?_eq_some_iff.1 hs).symm

theorem isSome_text?_iff : p.text?.isSome = true ↔ p.IsText := by
  simp only [Option.isSome_iff_exists, text?_eq_some_iff, IsText]

/-- A path that is a text, joined with a name that is one. -/
theorem IsText.join {base : Path} (h : base.IsText) (name : String) :
    (base.join (Utf8.encode name)).IsText := by
  obtain ⟨text, htext⟩ := h
  rw [Path.join]
  split
  · exact ⟨name, rfl⟩
  split
  · exact ⟨text ++ name, by rw [Utf8.encode_append, ← htext]⟩
  · exact ⟨text ++ "/" ++ name, by rw [Utf8.encode_append, Utf8.encode_append, ← htext]; rfl⟩

/-- The text is all of such a path. -/
theorem IsText.eq_of_text_eq (h : p.IsText) (h' : p'.IsText) (heq : p.text = p'.text) : p = p' := by
  have hbytes := text?_eq_some_iff.1 (text?_of_isText h)
  rw [heq, ← text?_eq_some_iff.1 (text?_of_isText h')] at hbytes
  exact congrArg Path.mk hbytes

end Path

/-! ## Drafts -/

namespace Draft

variable {d e : Draft} {cs : List Char}

@[simp] theorem complete_all : (all cs).complete = true := rfl

@[simp] theorem chars_all : (all cs).chars = cs := rfl

@[simp] theorem complete_append : (d ++ e).complete = (d.complete && e.complete) := by
  change (if d.complete then _ else _ : Draft).complete = _
  split <;> simp_all

@[simp] theorem chars_all_append : (all cs ++ d).chars = cs ++ d.chars := rfl

theorem chars_append (h : d.complete = true) : (d ++ e).chars = d.chars ++ e.chars :=
  congrArg chars (if_pos h)

end Draft

/-! ## Documents -/

namespace Json

variable {depth : Nat}

@[simp] theorem complete_number (n : Nat) : (render depth (number n)).complete = true := by
  rw [render, Draft.complete_all]

@[simp] theorem complete_text (s : String) : (render depth (text s)).complete = true := by
  rw [render, Draft.complete_all]

@[simp] theorem complete_path {p : Path} : (render depth (path p)).complete = true ↔ p.IsText := by
  rw [← Path.isSome_text?_iff, render]
  cases p.text? with
  | none => decide
  | some s => exact ⟨fun _ => rfl, fun _ => rfl⟩

theorem complete_renderItems (items : List Json) : (renderItems depth items).complete = true ↔
    ∀ item ∈ items, (render depth item).complete = true := by
  induction items with
  | nil => simp [renderItems]
  | cons item rest ih => simp [renderItems, ih]

theorem complete_renderMembers (members : List (String × Json)) :
    (renderMembers depth members).complete = true ↔
      ∀ member ∈ members, (render depth member.2).complete = true := by
  induction members with
  | nil => simp [renderMembers]
  | cons member rest ih => simp [renderMembers, ih]

/-- A list is whole if its items are. -/
@[simp] theorem complete_list (items : List Json) : (render depth (list items)).complete = true ↔
    ∀ item ∈ items, (render (depth + 1) item).complete = true := by
  cases items with
  | nil => simp [render]
  | cons item rest => simp [render, complete_renderItems]

/-- An object is whole if the values of its members are. -/
@[simp] theorem complete_object (members : List (String × Json)) :
    (render depth (object members)).complete = true ↔
      ∀ member ∈ members, (render (depth + 1) member.2).complete = true := by
  cases members with
  | nil => simp [render]
  | cons member rest => simp [render, complete_renderMembers]

/-! What is written of values that are whole. -/

theorem chars_list {item : Json} {rest : List Json}
    (h : (render depth (list (item :: rest))).complete = true) :
    (render depth (list (item :: rest))).chars
      = '[' :: (newline (depth + 1) ++ ((render (depth + 1) item).chars
          ++ ((renderItems (depth + 1) rest).chars ++ (newline depth ++ [']'])))) := by
  obtain ⟨hitem, hrest⟩ := List.forall_mem_cons.1 ((complete_list _).1 h)
  simp [render, Draft.chars_append, hitem, (complete_renderItems rest).2 hrest]

theorem chars_renderItems {item : Json} {rest : List Json}
    (h : (renderItems depth (item :: rest)).complete = true) :
    (renderItems depth (item :: rest)).chars
      = ',' :: (newline depth ++ ((render depth item).chars ++ (renderItems depth rest).chars)) := by
  obtain ⟨hitem, hrest⟩ := List.forall_mem_cons.1 ((complete_renderItems _).1 h)
  simp [renderItems, Draft.chars_append, hitem]

theorem chars_object {name : String} {value : Json} {rest : List (String × Json)}
    (h : (render depth (object ((name, value) :: rest))).complete = true) :
    (render depth (object ((name, value) :: rest))).chars
      = '\x7b' :: (newline (depth + 1) ++ (string name ++ ':' :: ' ' ::
          ((render (depth + 1) value).chars
            ++ ((renderMembers (depth + 1) rest).chars ++ (newline depth ++ ['\x7d']))))) := by
  obtain ⟨hvalue, hrest⟩ := List.forall_mem_cons.1 ((complete_object _).1 h)
  simp [render, Draft.chars_append, hvalue, (complete_renderMembers rest).2 hrest]

theorem chars_renderMembers {name : String} {value : Json} {rest : List (String × Json)}
    (h : (renderMembers depth ((name, value) :: rest)).complete = true) :
    (renderMembers depth ((name, value) :: rest)).chars
      = ',' :: (newline depth ++ (string name ++ ':' :: ' ' ::
          ((render depth value).chars ++ (renderMembers depth rest).chars))) := by
  obtain ⟨hvalue, hrest⟩ := List.forall_mem_cons.1 ((complete_renderMembers _).1 h)
  simp [renderMembers, Draft.chars_append, hvalue]

end Json

/-! ## Reports -/

/-- All paths of a report are texts. -/
structure Report.PathsAreText (r : Report) : Prop where
  /-- The log that was read. -/
  input : r.input.IsText
  /-- The directory that was written to. -/
  outputDir : r.outputDir.IsText
  /-- The files of the segments. -/
  segments : ∀ s ∈ r.segments, s.path.IsText

theorem SegmentReport.complete_toJson (s : SegmentReport) {depth : Nat} :
    (s.toJson.render depth).complete = true ↔ s.path.IsText := by
  simp [toJson]

theorem Report.complete_toJson (r : Report) (depth : Nat) :
    (r.toJson.render depth).complete = true ↔ r.PathsAreText := by
  have hparts : (r.toJson.render depth).complete = true ↔
      r.input.IsText ∧ r.outputDir.IsText ∧ ∀ s ∈ r.segments, s.path.IsText := by
    simp [toJson, SegmentReport.complete_toJson]
  rw [hparts]
  exact ⟨fun ⟨hinput, hdir, hpaths⟩ => ⟨hinput, hdir, hpaths⟩,
    fun h => ⟨h.input, h.outputDir, h.segments⟩⟩

/-- **Which reports are written in full.** -/
theorem Report.complete_json_iff (r : Report) : r.json.complete = true ↔ r.PathsAreText := by
  rw [json, Json.document, Draft.complete_append, Draft.complete_all, Bool.and_true,
    complete_toJson]

/-- What is left of the document when the path of the log is no text. -/
example : (Report.json ⟨⟨[0xFF]⟩, "out", "flight", [], [], 0, 0, 0, 0, []⟩)
    = ⟨"\x7b\n  \"input\": ".toList, false⟩ := by
  decide

end LogSplit
