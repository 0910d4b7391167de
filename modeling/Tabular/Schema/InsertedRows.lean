import Tabular.Schema.Cell
import Tabular.Schema.TableError

/-!
# Rows of an insertion

Turns the value sets of an insertion into whole rows (`Schema.rowsOf`). The columns that the insertion names have to
stand in the order of the schema; without names the values are for all columns. Each value has to fit its column, and
columns that get no value are null. All rows are made before any of them is used, so an insertion is carried out as a
whole or not at all.
-/

namespace Tabular

namespace Schema

/-- The slot that a token names. -/
def slotOf (s : Schema) (name : Token) : Except TableError Slot :=
  match s.slot? name.value with
  | some slot => .ok slot
  | none => .error (.unknownColumn s name.value)

/-- The slots of names, each of which has to lie at `least` or later and behind its predecessor; `requested` is the
whole list of names, for the message. -/
def slotsFrom (s : Schema) (requested : List Token) (least : Nat) : List Token → Except TableError (List Slot)
  | [] => .ok []
  | name :: names => do
    let slot ← s.slotOf name
    if slot.index < least then .error (.outOfOrder s requested)
    else do
      let slots ← s.slotsFrom requested (slot.index + 1) names
      pure (slot :: slots)

/-- The slots for which an insertion gives values. -/
def targets (s : Schema) (names : List Token) : Except TableError (List Slot) :=
  if names.isEmpty then .ok s.slots else s.slotsFrom names 0 names

end Schema

/-- The cell for a value in a column, if the value fits. -/
def Column.cellOf (c : Column) (value : Token) : Except TableError Cell :=
  match Cell.ofToken? value with
  | some cell => if cell.fits c.type then .ok cell else .error (.unfitValue c value)
  | none => .error (.unfitValue c value)

/-- The cell for a value in a slot, with its place. -/
def Slot.cellOf (slot : Slot) (value : Token) : Except TableError (Nat × Cell) := do
  pure (slot.index, ← slot.column.cellOf value)

/-- The row of `width` cells that has the given cells at their places and is null elsewhere. -/
def Row.ofCells (width : Nat) (cells : List (Nat × Cell)) : Row :=
  (List.range width).map fun i => (cells.lookup i).getD .null

namespace Schema

/-- The row for one value set. -/
def rowOf (s : Schema) (targets : List Slot) (values : List Token) : Except TableError Row := do
  if values.length = targets.length then
    let cells ← (targets.zip values).mapM fun (slot, value) => slot.cellOf value
    pure (Row.ofCells s.width cells)
  else .error (.wrongCount values targets.length)

/-- The rows that an insertion adds to a table of this layout. -/
def rowsOf (s : Schema) (i : Insertion) : Except TableError (List Row) := do
  let targets ← s.targets i.columns
  i.valueSets.mapM (s.rowOf targets)

end Schema
end Tabular
