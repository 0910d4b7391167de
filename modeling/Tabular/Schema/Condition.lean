import Tabular.Schema.Cell
import Tabular.Schema.TableError

/-!
# Conditions on cells

A condition compares a cell with a value (`Condition.test`): numbers as integers, texts by their code points. Null
satisfies no condition, and a cell is never compared with a value of the other kind.
-/

namespace Tabular

/-- A way to compare a cell with a value. -/
inductive Operator where
  | equal
  | greater
  | less
deriving DecidableEq, Repr, Inhabited

namespace Operator

/-- The operator that a token stands for. -/
def ofToken (t : Token) : Except TableError Operator :=
  if t.kind == .symbol && t.value == "==" then .ok equal
  else if t.kind == .symbol && t.value == ">" then .ok greater
  else if t.kind == .symbol && t.value == "<" then .ok less
  else .error (.unknownOperator t.value)

/-- Whether a cell that compares so with the value satisfies the operator. -/
def allows : Operator → Ordering → Bool
  | equal, o => o == .eq
  | greater, o => o == .gt
  | less, o => o == .lt

end Operator

/-- Whether a cell satisfies a condition. -/
def Condition.test (c : Condition) (cell : Cell) : Except TableError Bool := do
  let operator ← Operator.ofToken c.operator
  match cell, c.value.kind with
  | .null, _ => pure false
  | .number n, .number =>
    match Text.readInteger? c.value.value with
    | some m => pure (operator.allows (compare n m))
    | none => .error (.incomparable c .number)
  | .text s, .identifier => pure (operator.allows (compare s c.value.value))
  | cell, _ => .error (.incomparable c cell.kind)

end Tabular
