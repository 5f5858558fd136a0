import LogSplit.Text.Paint
import LogSplit.Text.Terminal

/-!
# Messages with styles

A message whose parts are set off from each other.  Where it is not painted, it is shown as a
terminal would show it, so that control sequences that came into it with the words of the user
are left out too.
-/

set_option autoImplicit false

namespace LogSplit

/-- A part of a message. -/
structure Span where
  /-- How it is set off. -/
  paints : List Paint
  /-- The text. -/
  text : String
  deriving DecidableEq, Repr

namespace Span

/-- A part that is not set off. -/
def plain (text : String) : Span := ⟨[], text⟩

/-- The kind of a message. -/
def kind (text : String) : Span := ⟨[.bold, .red], text⟩

/-- Something that is wrong. -/
def wrong (text : String) : Span := ⟨[.yellow], text⟩

/-- Something that would be right. -/
def right (text : String) : Span := ⟨[.green], text⟩

/-- Something to be typed as it is. -/
def literal (text : String) : Span := ⟨[.bold], text⟩

/-- The name of a section. -/
def heading (text : String) : Span := ⟨[.bold, .underlined], text⟩

/-- The characters of a part with its control sequences. -/
def painted (s : Span) : List Char :=
  if s.paints = [] then s.text.toList
  else s.paints.flatMap Paint.code ++ s.text.toList ++ Paint.reset

end Span

/-- A message in parts. -/
abbrev Styled := List Span

/-- The message as it is shown, painted or not. -/
def Styled.shown (message : Styled) (colors : Bool) : String :=
  let painted := String.ofList (message.flatMap Span.painted)
  if colors then painted else Text.visible painted

end LogSplit
