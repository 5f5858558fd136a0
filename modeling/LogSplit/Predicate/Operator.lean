import LogSplit.Number.Binary64

/-!
# Comparison operators

The six comparisons a condition can make, their spelling, and what they decide about two
binary64 numbers.  With a not-a-number on either side every comparison is false but `!=`.
-/

set_option autoImplicit false

namespace LogSplit

/-- A comparison of a cell with a threshold. -/
inductive Operator where
  /-- `<` -/
  | lt
  /-- `<=` -/
  | le
  /-- `>` -/
  | gt
  /-- `>=` -/
  | ge
  /-- `==` -/
  | eq
  /-- `!=` -/
  | ne
  deriving DecidableEq, Repr

namespace Operator

/-- Whether `x` stands in the relation to `y`. -/
def apply (op : Operator) (x y : Binary64) : Bool :=
  match op with
  | lt => x.lt y
  | le => x.le y
  | gt => y.lt x
  | ge => y.le x
  | eq => x.equal y
  | ne => !x.equal y

/-- How an operator is written. -/
def text : Operator → String
  | lt => "<"
  | le => "<="
  | gt => ">"
  | ge => ">="
  | eq => "=="
  | ne => "!="

/-- Every operator. -/
def all : List Operator := [lt, le, gt, ge, eq, ne]

/-- The operator with the given spelling. -/
def ofText? (spelling : String) : Option Operator := all.find? fun op => op.text == spelling

theorem ofText?_text (op : Operator) : ofText? op.text = some op := by
  cases op <;> decide

/-- The message about a spelling that no operator has. -/
def unknownMessage (spelling : String) : String := "unknown operator '" ++ spelling ++ "'"

end Operator

end LogSplit
