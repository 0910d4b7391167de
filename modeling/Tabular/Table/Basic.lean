import Tabular.Schema.Definition
import Tabular.Schema.ResolvedSelection
import Tabular.Table.Storage

/-!
# Tables

A table is a schema with rows behind it. Rows are made from an insertion by the schema (`Table.insert`) and found by a
selection that the schema has resolved (`Table.select`); the storage has no part in either.
-/

namespace Tabular

/-- A schema and the rows stored under it. -/
structure Table where
  schema : Schema
  storage : Storage
deriving DecidableEq, Repr

namespace Table

/-- A table without rows. -/
def empty (schema : Schema) (engine : Engine) : Table :=
  ⟨schema, .empty engine schema.columns⟩

/-- The empty table that a definition stands for. Its engine is looked at before its columns. -/
def ofDefinition (d : TableDefinition) : Except TableError Table := do
  let engine ← Engine.ofToken d.engine
  let schema ← Schema.ofDefinition d
  pure (empty schema engine)

/-- The name of the table. -/
def name (t : Table) : String :=
  t.schema.table

/-- The engine that keeps the rows. -/
def engine (t : Table) : Engine :=
  t.storage.engine

/-- The number of rows. -/
def rowCount (t : Table) : Nat :=
  t.storage.rowCount

/-- The rows in the order of insertion. -/
def rows (t : Table) : List Row :=
  t.storage.rows

/-- Visits the rows in the order of insertion until a visit fails. -/
def forRows {m : Type → Type} [Monad m] (t : Table) (visit : Row → m Unit) : m Unit :=
  t.storage.forRows visit

/-- The table with more rows, which are not checked. -/
def append (t : Table) (rows : List Row) : Table :=
  { t with storage := t.storage.append rows }

/-- The table with the rows of an insertion, and how many these are. -/
def insert (t : Table) (i : Insertion) : Except TableError (Table × Nat) := do
  let rows ← t.schema.rowsOf i
  pure (t.append rows, rows.length)

/-- The rows that a selection finds. -/
def select (t : Table) (q : Selection) : Except TableError Selected := do
  let q ← t.schema.resolve q
  let rows ← t.rows.filterMapM q.output?
  pure ⟨q.header, rows⟩

/-- The definition of the table. -/
def definition (t : Table) : TableDefinition :=
  t.schema.definition t.engine

/-- The statement that makes a table like this one, as text. -/
def showCreate (t : Table) : String :=
  t.definition.text

end Table
end Tabular
