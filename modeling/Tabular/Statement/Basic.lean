import Tabular.Token.Basic

/-!
# Statements

The four statements of the language as data: a table is defined, rows are inserted, rows are selected, and the
definition of a table is shown. Names, types, engines, operators and values are kept as the tokens they were read
from, so a statement can be printed as it was meant and an error can say what was found.

Statements that differ only in the places of their tokens are the same (`Statement.Same`).
-/

namespace Tabular

/-- A column of a table definition: its name and its type. -/
structure ColumnDefinition where
  name : Token
  datatype : Token
deriving DecidableEq, Repr

/-- `CREATE TABLE`: the name, the columns and the engine of a new table. -/
structure TableDefinition where
  name : Token
  columns : List ColumnDefinition
  engine : Token
deriving DecidableEq, Repr

/-- `INSERT INTO`: value sets for the columns named, or for all columns if none is named. -/
structure Insertion where
  table : Token
  columns : List Token
  valueSets : List (List Token)
deriving DecidableEq, Repr

/-- A comparison of a column with a value. -/
structure Condition where
  column : Token
  operator : Token
  value : Token
deriving DecidableEq, Repr

/-- The columns that a selection asks for. -/
inductive Projection where
  /-- Every column of the table, in the order of the schema. -/
  | all
  /-- The columns named, in the order given. -/
  | columns (names : List Token)
deriving DecidableEq, Repr

/-- `SELECT`: columns of the rows that satisfy every condition. -/
structure Selection where
  projection : Projection
  table : Token
  conditions : List Condition
deriving DecidableEq, Repr

/-- A request as data. -/
inductive Statement where
  | create (definition : TableDefinition)
  | insert (insertion : Insertion)
  | select (selection : Selection)
  | showCreate (table : Token)
deriving DecidableEq, Repr

/-! ## Changing every token -/

/-- Applies `f` to the tokens of a column definition. -/
def ColumnDefinition.mapTokens (f : Token → Token) (c : ColumnDefinition) : ColumnDefinition :=
  ⟨f c.name, f c.datatype⟩

/-- Applies `f` to the tokens of a condition. -/
def Condition.mapTokens (f : Token → Token) (c : Condition) : Condition :=
  ⟨f c.column, f c.operator, f c.value⟩

/-- Applies `f` to the names of a projection. -/
def Projection.mapTokens (f : Token → Token) : Projection → Projection
  | all => all
  | columns names => columns (names.map f)

namespace Statement

/-- Applies `f` to every token of a statement. -/
def mapTokens (f : Token → Token) : Statement → Statement
  | create d => create ⟨f d.name, d.columns.map (·.mapTokens f), f d.engine⟩
  | insert i => insert ⟨f i.table, i.columns.map f, i.valueSets.map (·.map f)⟩
  | select s => select ⟨s.projection.mapTokens f, f s.table, s.conditions.map (·.mapTokens f)⟩
  | showCreate table => showCreate (f table)

/-- The same statement, wherever its tokens stand. -/
def Same (s t : Statement) : Prop :=
  s.mapTokens Token.unplaced = t.mapTokens Token.unplaced

instance (s t : Statement) : Decidable (Same s t) :=
  inferInstanceAs (Decidable (_ = _))

/-! ## What a statement is about -/

/-- The verb of a statement. -/
def verb : Statement → String
  | create _ => "CREATE TABLE"
  | insert _ => "INSERT INTO"
  | select _ => "SELECT"
  | showCreate _ => "SHOW CREATE"

/-- The name of the table that a statement is about. -/
def table : Statement → String
  | create definition => definition.name.value
  | insert insertion => insertion.table.value
  | select selection => selection.table.value
  | showCreate table => table.value

end Statement
end Tabular
