import LogSplit.Journal
import LogSplit.Number.Numeral
import LogSplit.Text.Alphanumeric
import LogSplit.Text.Blank
import LogSplit.Text.Case
import LogSplit.Text.Pattern

/-!
# Filters of the journal

Which entries are shown.  A filter is a list of directives, each of which sets the least severe
level that is shown of the entries it fits: those whose topic starts with a given text and which
have a given field.  Of several directives that fit an entry the most specific one decides, and
an entry that none fits is not shown.

A directive is written as a level, as a topic, or as a topic with its level behind an equals
sign.  Behind the topic a span and a field may stand in brackets, as in `topic[span{field}]`.
Entries lie in no span, and values of fields are compared in spans only, so that a directive
with a span or a value fits nothing.
-/

set_option autoImplicit false

namespace LogSplit

/-- What is shown of some entries. -/
structure Directive where
  /-- What the topics start with. -/
  topic : String
  /-- The span that the entries have to lie in. -/
  span : Option String
  /-- The field that the entries have to have, and the value it has to have there. -/
  field : Option (String × Option String)
  /-- The rank of the least severe level shown; zero shows nothing. -/
  limit : Nat
  deriving DecidableEq, Repr

namespace Directive

/-- What is shown of all entries whose topic starts with a text. -/
def ofTopic (topic : String) (limit : Nat) : Directive := ⟨topic, none, none, limit⟩

/-! ## Reading -/

/-- The rank of a level by its number, in front of which a plus sign may stand. -/
def numberedLimit? (text : List Char) : Option Nat :=
  let digits := if text.head? = some '+' then text.tail else text
  if !digits.isEmpty && digits.all Char.isDigit && digitsValue digits ≤ Level.trace.rank then
    some (digitsValue digits)
  else none

/-- The rank of a level by its name, in any case. -/
def namedLimit? (text : String) : Option Nat :=
  match Text.lower text with
  | "off" => some 0
  | "error" => some Level.error.rank
  | "warn" => some Level.warn.rank
  | "info" => some Level.info.rank
  | "debug" => some Level.debug.rank
  | "trace" => some Level.trace.rank
  | _ => none

/-- The rank of a level by its number or its name. -/
def limit? (text : List Char) : Option Nat :=
  numberedLimit? text <|> namedLimit? (String.ofList text)

/-- The rank of a level behind an equals sign.  A level that is left out is the least severe. -/
def limitBehind? (text : List Char) : Option Nat :=
  if text.isEmpty then some Level.trace.rank else limit? text

/-- A character that a directive may start with. -/
def isStart (c : Char) : Bool :=
  c == '[' || c == '-' || c == ':' || c == '_' || Text.isAlphanumeric c

/-- Whether a field can be asked to have a value: a number or a pattern. -/
def isValue (text : List Char) : Bool := (Numeral.parse? text).isSome || Text.isPattern text

/-- Reads a field, with a value behind an equals sign. -/
def field? (text : List Char) : Option (String × Option String) :=
  let name := String.ofList (text.takeWhile (· ≠ '='))
  match text.dropWhile (· ≠ '=') with
  | [] => some (name, none)
  | _ :: value =>
    let value := value.takeWhile (· ≠ '=')
    if isValue value then some (name, some (String.ofList value)) else none

/-- Reads what stands behind an opening bracket: a span, or a field in braces with or without a
span, and what follows the closing bracket. -/
def bracketed? (text : List Char) :
    Option (Option String × Option (String × Option String) × List Char) :=
  let span := text.takeWhile fun c => c ≠ ']' && c ≠ '\x7b'
  match text.drop span.length with
  | ']' :: rest => some (some (String.ofList span), none, rest)
  | '\x7b' :: rest =>
    let text := rest.takeWhile (· ≠ '\x7d')
    match text, rest.drop text.length with
    | _ :: _, '\x7d' :: ']' :: rest =>
      (field? text).map fun field =>
        (if span.isEmpty then none else some (String.ofList span), some field, rest)
    | _, _ => none
  | _ => none

/-- A directive of a single word: a level for everything, or a topic of which everything is
shown. -/
def ofWord (word : List Char) : Directive :=
  match limit? word with
  | some limit => ofTopic "" limit
  | none => ofTopic (String.ofList word) Level.trace.rank

/-- Reads a directive.  Blanks in front belong to the topic, and then no level may follow; blanks
behind belong to the level. -/
def ofText? (text : List Char) : Option Directive :=
  let front := text.takeWhile Text.isBlank
  let core := Text.trimChars text
  let behind := text.drop (front.length + core.length)
  let level? (level : List Char) := if front.isEmpty then limitBehind? (level ++ behind) else none
  let topic := core.takeWhile fun c => c ≠ '=' && c ≠ '['
  let fullTopic := String.ofList (front ++ topic)
  if !core.head?.any isStart then none
  else match core.drop topic.length with
    | [] => some (ofWord text)
    | '=' :: level => (level? level).map (ofTopic fullTopic)
    | _ :: rest => do
      let (span, field, rest) ← bracketed? rest
      let limit ← match rest with
        | [] => some Level.trace.rank
        | '=' :: level => level? level
        | _ => none
      some ⟨fullTopic, span, field, limit⟩

/-! ## Meaning -/

/-- Whether an entry has what a directive asks for.  Its message counts as a field. -/
def fits (d : Directive) (e : Entry) : Bool :=
  d.topic.toList.isPrefixOf e.topic.toList && d.span.isNone
    && match d.field with
      | none => true
      | some (name, none) => name == "message" || e.fields.any fun field => field.1 == name
      | some (_, some _) => false

/-- Whether a directive is at least as specific as another one: its topic is longer, or it has a
field and the other one has none, or the name of its field comes later. -/
def isAtLeast (d other : Directive) : Bool :=
  let length := d.topic.utf8ByteSize
  let otherLength := other.topic.utf8ByteSize
  otherLength < length || (otherLength == length
    && match other.field, d.field with
      | none, _ => true
      | some _, none => false
      | some (otherName, _), some (name, _) => !(name < otherName))

/-- The more specific one of two directives, the later one if none is. -/
def better (best : Option Directive) (d : Directive) : Option Directive :=
  match best with
  | none => some d
  | some other => if d.isAtLeast other then some d else some other

end Directive

/-- Which entries are shown. -/
structure Filter where
  /-- The directives. -/
  directives : List Directive
  deriving DecidableEq, Repr

namespace Filter

/-- Warnings and worse. -/
def standard : Filter :=
  ⟨[.ofTopic "seglog" Level.warn.rank, .ofTopic "seglog_tsv" Level.warn.rank]⟩

/-- Reads directives separated by commas.  Without any, errors are shown; with one that cannot
be read the filter is the standard one. -/
def ofText (text : String) : Filter :=
  let words := (text.toList.splitOn ',').filter fun word => !word.isEmpty
  match words.mapM Directive.ofText? with
  | none => standard
  | some [] => ⟨[.ofTopic "" Level.error.rank]⟩
  | some directives => ⟨directives⟩

/-- The filter that the environment asks for. -/
def ofSetting : Option String → Filter
  | none => standard
  | some text => ofText text

/-- Whether an entry is shown. -/
def shows (f : Filter) (e : Entry) : Bool :=
  match (f.directives.filter fun d => d.fits e).foldl Directive.better none with
  | none => false
  | some d => e.level.rank ≤ d.limit

/-- The line of an event, if it is shown. -/
def line? (f : Filter) (event : Event) : Option String :=
  match event.entry? with
  | none => none
  | some e => if f.shows e then some e.line else none

end Filter

end LogSplit
