import Tabular.Schema.Cell

/-!
# Column vectors

The values of one column, kept together in a vector of the column's type, in which a null is a missing value. A vector
can only hold values of its type: any other cell is kept as a null. Reading past the end gives a null as well.

Several vectors side by side take a row from left to right (`pushRow`): a row that is too short leaves the last
vectors as they are, and cells for which there is no vector are dropped.
-/

namespace Tabular

/-- The values of a column in the order in which they were added. -/
inductive ColumnVector where
  | numbers (values : Array (Option Int64))
  | texts (values : Array (Option String))
deriving DecidableEq, Repr, Inhabited

namespace ColumnVector

/-- The empty vector for a type. -/
def empty : ColumnType → ColumnVector
  | .int => numbers #[]
  | .text => texts #[]

/-- The vector with one more cell. -/
def push : ColumnVector → Cell → ColumnVector
  | numbers values, .number n => numbers (values.push (some n))
  | numbers values, _ => numbers (values.push none)
  | texts values, .text s => texts (values.push (some s))
  | texts values, _ => texts (values.push none)

/-- The cell at a place. -/
def cell (i : Nat) : ColumnVector → Cell
  | numbers values =>
    match values[i]? with
    | some (some n) => .number n
    | _ => .null
  | texts values =>
    match values[i]? with
    | some (some s) => .text s
    | _ => .null

/-- Adds the cells of a row to the vectors, one to each. -/
def pushRow : List ColumnVector → Row → List ColumnVector
  | v :: vs, c :: cs => v.push c :: pushRow vs cs
  | vs, _ => vs

/-- The number of vectors stays the same. -/
theorem length_pushRow (vs : List ColumnVector) (r : Row) : (pushRow vs r).length = vs.length := by
  induction vs generalizing r with
  | nil => cases r <;> rfl
  | cons v vs ih =>
    cases r with
    | nil => rfl
    | cons c cs => rw [pushRow, List.length_cons, ih, List.length_cons]

/-- The cells at a place of all vectors. -/
def row (vs : List ColumnVector) (i : Nat) : Row :=
  vs.map (·.cell i)

end ColumnVector
end Tabular
