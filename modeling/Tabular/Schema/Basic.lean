import Tabular.Statement.Basic

/-!
# Schemas

The layout of a table: its name and its columns, each with a type. A column is addressed by its name or by its place
in the schema; a `Slot` is a column together with its place. The engine says how the rows of a table are kept.
-/

namespace Tabular

/-- The type of the values of a column. -/
inductive ColumnType where
  | int
  | text
deriving DecidableEq, Repr, Inhabited

namespace ColumnType

/-- The name of a type. -/
def name : ColumnType → String
  | int => "int"
  | text => "text"

/-- The kind that a token has to have for its value to be of the type. -/
def kind : ColumnType → TokenKind
  | int => .number
  | text => .identifier

end ColumnType

/-- How the rows of a table are kept. -/
inductive Engine where
  /-- Row by row. -/
  | linear
  /-- Column by column. -/
  | column
deriving DecidableEq, Repr, Inhabited

/-- The name of an engine. -/
def Engine.name : Engine → String
  | linear => "linear"
  | column => "column"

/-- A column of a table. -/
structure Column where
  name : String
  type : ColumnType
deriving DecidableEq, Repr, Inhabited

/-- The layout of a table. -/
structure Schema where
  table : String
  columns : List Column
deriving DecidableEq, Repr, Inhabited

/-- A column with its place in the schema, counted from zero. -/
structure Slot where
  index : Nat
  column : Column
deriving DecidableEq, Repr, Inhabited

namespace Schema

/-- The number of columns. -/
def width (s : Schema) : Nat :=
  s.columns.length

/-- The names of the columns in order. -/
def names (s : Schema) : List String :=
  s.columns.map (·.name)

/-- The columns with their types, as messages list them. -/
def columnList (s : Schema) : String :=
  ", ".intercalate (s.columns.map fun c => "(" ++ c.name ++ ", " ++ c.type.name ++ ")")

/-- The columns with their places in order. -/
def slots (s : Schema) : List Slot :=
  s.columns.mapIdx Slot.mk

/-- The first column of a name, with its place. -/
def slot? (s : Schema) (name : String) : Option Slot :=
  s.slots.find? (·.column.name == name)

/-- The place of the first column of a name. -/
def indexOf? (s : Schema) (name : String) : Option Nat :=
  (s.slot? name).map (·.index)

/-- The definition that makes a table of this layout with the given engine. -/
def definition (s : Schema) (engine : Engine) : TableDefinition where
  name := .fresh s.table .identifier
  columns := s.columns.map fun c => ⟨.fresh c.name .identifier, .fresh c.type.name .datatype⟩
  engine := .fresh engine.name .engine

end Schema
end Tabular
