import LogSplit.Error
import LogSplit.Text.Blank

/-!
# Conditions on columns

Before rows are tested every condition is bound to the column its field names, the first one
where a name occurs more than once.  A row passes when every bound condition holds.  All of
them are looked at, also behind one that has failed, so that a cell that is missing or is no
number is always reported; the first such cell, in the order of the conditions, decides.
-/

set_option autoImplicit false

namespace LogSplit

/-- A condition and the column it reads. -/
structure BoundCondition where
  /-- The condition. -/
  condition : Condition
  /-- The column of its field. -/
  column : Nat
  deriving DecidableEq

/-- Conditions bound to the columns of a header. -/
structure CompiledPredicate where
  /-- The bound conditions, in order. -/
  conditions : List BoundCondition
  deriving DecidableEq

namespace BoundCondition

/-- The number in the cell that a condition reads, blanks around it aside. -/
def value (b : BoundCondition) (r : NumberedRow) : Except RowError Binary64 :=
  match r.row.get? b.column with
  | none => .error (.missingCell r.line b.condition.field)
  | some cell =>
    match Binary64.ofText? (Text.trim cell) with
    | none => .error (.notNumeric r.line b.condition.field cell)
    | some x => .ok x

/-- Whether a condition holds of a row. -/
def holds (b : BoundCondition) (r : NumberedRow) : Except RowError Bool :=
  (b.value r).map fun x => b.condition.op.apply x b.condition.threshold

end BoundCondition

namespace CompiledPredicate

/-- Binds conditions to columns, in order, up to the first whose field is no column. -/
def bindAll (header : Header) : List Condition → List BoundCondition × Option Condition
  | [] => ([], none)
  | c :: rest =>
    match header.indexOf? c.field with
    | none => ([], some c)
    | some column =>
      let (bound, unknown) := bindAll header rest
      (⟨c, column⟩ :: bound, unknown)

/-- Binds every condition of a set, or reports the first field that is no column. -/
def compile (header : Header) (s : ConditionSet) : Except SplitError CompiledPredicate :=
  match bindAll header s.conditions with
  | (bound, none) => .ok ⟨bound⟩
  | (_, some c) => .error (.fieldNotFound c.field header.names)

/-- Tests bound conditions one after the other; `sofar` tells whether all before them held. -/
def testFrom (r : NumberedRow) : (sofar : Bool) → List BoundCondition → Except RowError Bool
  | sofar, [] => .ok sofar
  | sofar, b :: rest =>
    match b.holds r with
    | .error e => .error e
    | .ok holds => testFrom r (sofar && holds) rest

/-- Whether a row passes. -/
def test (p : CompiledPredicate) (r : NumberedRow) : Except RowError Bool :=
  testFrom r true p.conditions

/-- The field and the column of each condition. -/
def columns (p : CompiledPredicate) : List (String × Nat) :=
  p.conditions.map fun b => (b.condition.field, b.column)

end CompiledPredicate

end LogSplit
