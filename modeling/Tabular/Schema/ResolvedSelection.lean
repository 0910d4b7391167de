import Tabular.Schema.Condition
import Tabular.Schema.InsertedRows

/-!
# Resolved selections

A selection is checked against a schema before any row is read (`Schema.resolve`): every column it names has to exist,
and every condition has to have an operator and a value of the kind of its column. What results decides on rows and
cuts the wanted cells out of them (`ResolvedSelection.output?`).
-/

namespace Tabular

/-- A condition together with the place of its column. -/
structure Filter where
  index : Nat
  condition : Condition
deriving DecidableEq, Repr

/-- A selection whose columns have been found. -/
structure ResolvedSelection where
  projection : List Slot
  filters : List Filter
deriving DecidableEq, Repr

namespace Schema

/-- The slots of the columns that a selection asks for. -/
def project (s : Schema) : Projection → Except TableError (List Slot)
  | .all => .ok s.slots
  | .columns names => names.mapM s.slotOf

/-- The filter for a condition. -/
def filter (s : Schema) (c : Condition) : Except TableError Filter := do
  let slot ← s.slotOf c.column
  let _ ← Operator.ofToken c.operator
  if c.value.kind = slot.column.type.kind then pure ⟨slot.index, c⟩
  else .error (.incomparable c slot.column.type.kind)

/-- Finds the columns of a selection: first those it asks for, then those of its conditions. -/
def resolve (s : Schema) (q : Selection) : Except TableError ResolvedSelection := do
  let projection ← s.project q.projection
  let filters ← q.conditions.mapM s.filter
  pure ⟨projection, filters⟩

end Schema

/-- The cell of a row at a place. -/
def Row.cell (r : Row) (index : Nat) : Cell :=
  r.getD index .null

/-- Whether a row passes all filters, which are tried in order until one does not let it through. -/
def Row.passes (r : Row) : List Filter → Except TableError Bool
  | [] => .ok true
  | f :: fs => do
    if ← f.condition.test (r.cell f.index) then r.passes fs else pure false

namespace ResolvedSelection

/-- The names of the columns that are asked for. -/
def header (q : ResolvedSelection) : List String :=
  q.projection.map (·.column.name)

/-- Whether a row is found. -/
def finds (q : ResolvedSelection) (r : Row) : Except TableError Bool :=
  r.passes q.filters

/-- The cells of a row that are asked for. -/
def output (q : ResolvedSelection) (r : Row) : Row :=
  q.projection.map fun slot => r.cell slot.index

/-- The cells of a row that are asked for if it is found. -/
def output? (q : ResolvedSelection) (r : Row) : Except TableError (Option Row) := do
  if ← q.finds r then pure (some (q.output r)) else pure none

end ResolvedSelection

/-- The result of a selection: the names of the columns and the cells of the rows found. -/
structure Selected where
  header : List String
  rows : List Row
deriving DecidableEq, Repr

/-- The result as lines of texts, the names first. -/
def Selected.lines (s : Selected) : List (List String) :=
  s.header :: s.rows.map (·.map Cell.display)

end Tabular
