import LogSplit.Number.Shortest
import LogSplit.Predicate.Operator

/-!
# Conditions

A condition compares one field with a threshold, and a set of conditions holds where all of
them do.  The threshold is kept twice: as the number that is compared, and as the literal it
is shown with.
-/

set_option autoImplicit false

namespace LogSplit

/-- One comparison of a field with a threshold. -/
structure Condition where
  /-- The name of the field that is compared. -/
  field : String
  /-- The comparison. -/
  op : Operator
  /-- The number that the field is compared with. -/
  threshold : Binary64
  /-- How the threshold is written. -/
  literal : String
  deriving DecidableEq

namespace Condition

/-- The condition on a computed threshold, which is written in its shortest form. -/
def ofThreshold (field : String) (op : Operator) (threshold : Binary64) : Condition :=
  ⟨field, op, threshold, threshold.toText⟩

/-- Field, operator and literal, with a space between. -/
def text (c : Condition) : String := c.field ++ " " ++ c.op.text ++ " " ++ c.literal

end Condition

/-- Conditions that have to hold together, in the order they were written. -/
structure ConditionSet where
  /-- The conditions. -/
  conditions : List Condition
  /-- How many of the connectives between them were written with a bar. -/
  orConnectives : Nat
  deriving DecidableEq

namespace ConditionSet

/-- A set that was not read from a text has no connectives. -/
def ofConditions (conditions : List Condition) : ConditionSet := ⟨conditions, 0⟩

/-- No condition at all: such a set holds everywhere. -/
def isEmpty (s : ConditionSet) : Bool := s.conditions.isEmpty

/-- The text of each condition. -/
def texts (s : ConditionSet) : List String := s.conditions.map Condition.text

/-- The conditions joined with the conjunction sign. -/
def text (s : ConditionSet) : String := " && ".intercalate s.texts

end ConditionSet

end LogSplit
