import Tabular.Schema.Basic
import Tabular.Statement.Printer

/-!
# Errors of tables

The reasons for which a statement that can be read cannot be carried out (`TableError`), and their messages. A reason
holds what its message tells: the names, the values or the condition at fault, and the layout of the table.
-/

namespace Tabular

/-- Why a statement cannot be carried out. -/
inductive TableError where
  /-- There is no table of this name. -/
  | unknownTable (name : String)
  /-- There already is a table of this name. -/
  | existingTable (name : String)
  /-- The table has no column of this name. -/
  | unknownColumn (schema : Schema) (column : String)
  /-- A definition names a column twice. -/
  | repeatedColumn (table column : String)
  /-- No type has this name. -/
  | unknownType (name : String)
  /-- No engine has this name. -/
  | unknownEngine (name : String)
  /-- This is no operator of conditions. -/
  | unknownOperator (operator : String)
  /-- The columns named do not stand in the order of the schema. -/
  | outOfOrder (schema : Schema) (requested : List Token)
  /-- A value does not fit its column. -/
  | unfitValue (column : Column) (value : Token)
  /-- A value set has more or fewer values than there are columns for them. -/
  | wrongCount (values : List Token) (expected : Nat)
  /-- A condition compares with a value of another kind. -/
  | incomparable (condition : Condition) (expected : TokenKind)
deriving DecidableEq, Repr

/-- The message of an error. -/
def TableError.message : TableError → String
  | .unknownTable name => "table " ++ name ++ " does not exist"
  | .existingTable name => "table " ++ name ++ " already exists"
  | .unknownColumn schema column =>
    "column " ++ column ++ " is not represented inside table " ++ schema.table ++ " (actual columns: " ++
      schema.columnList ++ ")"
  | .repeatedColumn table column => "column " ++ column ++ " is defined more than once in table " ++ table
  | .unknownType name => "type " ++ name ++ " is not supported"
  | .unknownEngine name => "engine " ++ name ++ " is not supported"
  | .unknownOperator operator => "operator " ++ operator ++ " is not supported"
  | .outOfOrder schema requested =>
    "columns in request " ++ bracketed requested ++ " are in incorrect order (desired: (" ++
      ", ".intercalate schema.names ++ "))"
  | .unfitValue column value =>
    "value " ++ value.value ++ " for column " ++ column.name ++ " has unsupported type (expected " ++
      column.type.kind.text ++ ", got " ++ value.kind.text ++ ")"
  | .wrongCount values expected =>
    "value set " ++ bracketed values ++ " has incorrect number of values (expected " ++ expected.repr ++ ", got " ++
      values.length.repr ++ ")"
  | .incomparable condition expected =>
    "condition " ++ condition.text ++ " compares " ++ condition.value.kind.text ++ " with a column holding " ++
      expected.text

end Tabular
