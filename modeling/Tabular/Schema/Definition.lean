import Tabular.Schema.TableError
import Tabular.Text.Lowercase

/-!
# Schemas from definitions

Reads the layout and the engine of a table off its definition. Names of types and engines count in any case. The
columns are checked from left to right, and a repeated name is reported before an unsupported type.
-/

namespace Tabular

/-- The type that a token names. -/
def ColumnType.ofToken (t : Token) : Except TableError ColumnType :=
  let name := Text.lowercase t.value
  if name == "int" then .ok .int
  else if name == "text" then .ok .text
  else .error (.unknownType t.value)

/-- The engine that a token names. -/
def Engine.ofToken (t : Token) : Except TableError Engine :=
  let name := Text.lowercase t.value
  if name == "linear" then .ok .linear
  else if name == "column" then .ok .column
  else .error (.unknownEngine t.value)

namespace Schema

/-- The schema with one more column at its end. -/
def addColumn (s : Schema) (c : ColumnDefinition) : Except TableError Schema :=
  if s.names.contains c.name.value then .error (.repeatedColumn s.table c.name.value)
  else do
    let type ← ColumnType.ofToken c.datatype
    pure { s with columns := s.columns ++ [⟨c.name.value, type⟩] }

/-- The layout that a definition describes. -/
def ofDefinition (d : TableDefinition) : Except TableError Schema :=
  d.columns.foldlM addColumn ⟨d.name.value, []⟩

end Schema
end Tabular
