import Tabular.Statement.Basic
import Tabular.Text.Uppercase

/-!
# The text of a statement

Every statement has one canonical text: reserved words and types in upper case, lists in parentheses with a comma and
a blank between the items, one blank between all other parts, and a semicolon at the end.
-/

namespace Tabular

/-- A column of a definition: its name and its type in upper case. -/
def ColumnDefinition.text (c : ColumnDefinition) : String :=
  c.name.value ++ " " ++ Text.uppercase c.datatype.value

/-- The text of a table definition. -/
def TableDefinition.text (d : TableDefinition) : String :=
  "CREATE TABLE " ++ d.name.value ++ " (" ++ ", ".intercalate (d.columns.map (·.text)) ++ ") ENGINE " ++
    d.engine.value ++ ";"

/-- The text of an insertion. Without names no parentheses stand for them. -/
def Insertion.text (i : Insertion) : String :=
  "INSERT INTO " ++ i.table.value ++ (if i.columns.isEmpty then "" else " " ++ bracketed i.columns) ++ " VALUES " ++
    ", ".intercalate (i.valueSets.map bracketed) ++ ";"

/-- The text of a condition. -/
def Condition.text (c : Condition) : String :=
  c.column.value ++ " " ++ c.operator.value ++ " " ++ c.value.value

/-- The text of a projection. -/
def Projection.text : Projection → String
  | .all => "*"
  | .columns names => bracketed names

/-- The text of a selection. -/
def Selection.text (s : Selection) : String :=
  "SELECT " ++ s.projection.text ++ " FROM " ++ s.table.value ++
    (if s.conditions.isEmpty then "" else " WHERE " ++ " AND ".intercalate (s.conditions.map (·.text))) ++ ";"

/-- The text of a statement. -/
def Statement.text : Statement → String
  | .create definition => definition.text
  | .insert insertion => insertion.text
  | .select selection => selection.text
  | .showCreate table => "SHOW CREATE (" ++ table.value ++ ");"

end Tabular
