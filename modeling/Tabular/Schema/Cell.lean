import Tabular.Schema.Basic
import Tabular.Text.Integer

/-!
# Cells

What a table holds at one place: a number, a text, or nothing. A row is a list of cells. `Cell.ofToken?` reads the
value that a token stands for; the identifier `null`, in any case, stands for nothing.
-/

namespace Tabular

/-- What a row holds in one column. -/
inductive Cell where
  | null
  | number (value : Int64)
  | text (value : String)
deriving DecidableEq, Repr, Inhabited

/-- The cells of a row, one for each column. -/
abbrev Row := List Cell

namespace Cell

/-- Whether the word is `null`, written with small or capital letters of ASCII. -/
def spellsNull (word : String) : Bool :=
  word.toList.map Char.toLower == ['n', 'u', 'l', 'l']

/-- The cell that a value token stands for: numbers and identifiers have one. -/
def ofToken? (t : Token) : Option Cell :=
  match t.kind with
  | .number => (Text.readInteger? t.value).map number
  | .identifier => some (if spellsNull t.value then null else text t.value)
  | _ => none

/-- The kind that a token for the cell has. -/
def kind : Cell → TokenKind
  | null => .identifier
  | number _ => .number
  | text _ => .identifier

/-- Whether the cell may stand in a column of the type: it is null or has the kind of the type. -/
def fits (type : ColumnType) (c : Cell) : Bool :=
  c == null || c.kind == type.kind

/-- The cell in an answer. -/
def display : Cell → String
  | null => "null"
  | number value => Text.integerText value
  | text value => value

end Cell
end Tabular
