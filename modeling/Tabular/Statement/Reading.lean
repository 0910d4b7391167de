import Tabular.Statement.Basic
import Tabular.Token.Reading

/-!
# Reading statements

The grammar of the four statements is regular, so a statement is read by an automaton that sees every token once:

    CREATE TABLE name ( name type {, name type} ) ENGINE engine ;
    INSERT INTO name [( name {, name} )] VALUES ( value {, value} ) {, ( value {, value} )} ;
    SELECT * FROM name [WHERE condition {AND condition}] ;
    SELECT ( name {, name} ) FROM name [WHERE condition {AND condition}] ;
    SHOW CREATE ( name ) ;

A state (`Progress`) says where in the grammar the reader is and holds what it has read so far. `Progress.expected` is
what the state waits for, `Progress.admits` decides whether a token may come next, and `Progress.next` is the state
after it. The first token that is not admitted ends the reading with an error that names what was expected there.
-/

namespace Tabular

/-- How far a statement has been read, with the parts that are complete. -/
inductive Progress where
  /-- Nothing has been read. -/
  | start
  /-- After `CREATE`. -/
  | createVerb
  /-- After `CREATE TABLE`. -/
  | createTable
  /-- After the name of the new table. -/
  | createName (name : Token)
  /-- Before a column, after `(` or a comma. -/
  | createColumns (name : Token) (columns : List ColumnDefinition)
  /-- After the name of a column. -/
  | createColumn (name : Token) (columns : List ColumnDefinition) (column : Token)
  /-- After the type of a column. -/
  | createType (name : Token) (columns : List ColumnDefinition)
  /-- After the `)` behind the columns. -/
  | createBody (name : Token) (columns : List ColumnDefinition)
  /-- After `ENGINE`. -/
  | createEngine (name : Token) (columns : List ColumnDefinition)
  /-- After the engine. -/
  | createEnd (name : Token) (columns : List ColumnDefinition) (engine : Token)
  /-- After `INSERT`. -/
  | insertVerb
  /-- After `INSERT INTO`. -/
  | insertInto
  /-- After the name of the table. -/
  | insertTable (table : Token)
  /-- Before the name of a column, after `(` or a comma. -/
  | insertColumns (table : Token) (columns : List Token)
  /-- After the name of a column. -/
  | insertColumn (table : Token) (columns : List Token)
  /-- After the `)` behind the names. -/
  | insertNamed (table : Token) (columns : List Token)
  /-- Before a value set, after `VALUES` or a comma. -/
  | insertValues (table : Token) (columns : List Token) (sets : List (List Token))
  /-- Before a value, after `(` or a comma. -/
  | insertSet (table : Token) (columns : List Token) (sets : List (List Token)) (set : List Token)
  /-- After a value. -/
  | insertValue (table : Token) (columns : List Token) (sets : List (List Token)) (set : List Token)
  /-- After the `)` behind a value set. -/
  | insertSets (table : Token) (columns : List Token) (sets : List (List Token))
  /-- After `SELECT`. -/
  | selectVerb
  /-- Before the name of a column, after `(` or a comma. -/
  | selectColumns (columns : List Token)
  /-- After the name of a column. -/
  | selectColumn (columns : List Token)
  /-- After `*` or the `)` behind the names. -/
  | selectProjection (projection : Projection)
  /-- After `FROM`. -/
  | selectFrom (projection : Projection)
  /-- After the name of the table. -/
  | selectTable (projection : Projection) (table : Token)
  /-- Before a condition, after `WHERE` or `AND`. -/
  | selectWhere (projection : Projection) (table : Token) (conditions : List Condition)
  /-- After the column of a condition. -/
  | selectLeft (projection : Projection) (table : Token) (conditions : List Condition) (column : Token)
  /-- After the operator of a condition. -/
  | selectOperator (projection : Projection) (table : Token) (conditions : List Condition) (column operator : Token)
  /-- After the value of a condition. -/
  | selectConditions (projection : Projection) (table : Token) (conditions : List Condition)
  /-- After `SHOW`. -/
  | showVerb
  /-- After `SHOW CREATE`. -/
  | showCreate
  /-- After the `(` before the name. -/
  | showOpen
  /-- After the name of the table. -/
  | showTable (table : Token)
  /-- After the `)` behind the name. -/
  | showEnd (table : Token)
  /-- After the semicolon. -/
  | complete (statement : Statement)

namespace Progress

/-- The words that start a statement. -/
def verbs : List String := ["create", "insert", "select", "show"]

/-- The operators of conditions. -/
def operators : List String := ["==", ">", "<"]

/-- The kinds that a value may have. -/
def valueKinds : List TokenKind := [.identifier, .number]

/-- What a state waits for, as its error message names it. -/
def expected : Progress → Expectation
  | start => .anyWord verbs
  | createVerb => .word "table"
  | createTable => .ofKind .identifier
  | createName _ => .word "("
  | createColumns _ _ => .ofKind .identifier
  | createColumn _ _ _ => .ofKind .datatype
  | createType _ _ => .anyWord [",", ")"]
  | createBody _ _ => .word "engine"
  | createEngine _ _ => .ofKind .engine
  | createEnd _ _ _ => .word ";"
  | insertVerb => .word "into"
  | insertInto => .ofKind .identifier
  | insertTable _ => .word "values"
  | insertColumns _ _ => .ofKind .identifier
  | insertColumn _ _ => .anyWord [",", ")"]
  | insertNamed _ _ => .word "values"
  | insertValues _ _ _ => .word "("
  | insertSet _ _ _ _ => .anyKind valueKinds
  | insertValue _ _ _ _ => .anyWord [",", ")"]
  | insertSets _ _ _ => .anyWord [",", ";"]
  | selectVerb => .word "("
  | selectColumns _ => .ofKind .identifier
  | selectColumn _ => .anyWord [",", ")"]
  | selectProjection _ => .word "from"
  | selectFrom _ => .ofKind .identifier
  | selectTable _ _ => .anyWord ["where", ";"]
  | selectWhere _ _ _ => .ofKind .identifier
  | selectLeft _ _ _ _ => .anyWord operators
  | selectOperator _ _ _ _ _ => .anyKind valueKinds
  | selectConditions _ _ _ => .anyWord ["and", ";"]
  | showVerb => .word "create"
  | showCreate => .word "("
  | showOpen => .ofKind .identifier
  | showTable _ => .word ")"
  | showEnd _ => .word ";"
  | complete _ => .nothing

/-- Whether a token may come next. Two states take a token besides what they announce: names may come before the
values of an insertion, and `*` may stand for the names of a selection. The verb has to be a keyword. -/
def admits : Progress → Token → Bool
  | start, t => t.kind == .keyword && verbs.contains t.value
  | insertTable _, t => t.spells "(" || t.spells "values"
  | selectVerb, t => t.spells "*" || t.spells "("
  | p, t => p.expected.admits t

/-- The state after a token that may come next. -/
def next : Progress → Token → Progress
  | start, t =>
    if t.value == "create" then createVerb
    else if t.value == "insert" then insertVerb
    else if t.value == "select" then selectVerb
    else showVerb
  | createVerb, _ => createTable
  | createTable, t => createName t
  | createName name, _ => createColumns name []
  | createColumns name columns, t => createColumn name columns t
  | createColumn name columns column, t => createType name (columns ++ [⟨column, t⟩])
  | createType name columns, t => if t.value == ")" then createBody name columns else createColumns name columns
  | createBody name columns, _ => createEngine name columns
  | createEngine name columns, t => createEnd name columns t
  | createEnd name columns engine, _ => complete (.create ⟨name, columns, engine⟩)
  | insertVerb, _ => insertInto
  | insertInto, t => insertTable t
  | insertTable table, t => if t.value == "(" then insertColumns table [] else insertValues table [] []
  | insertColumns table columns, t => insertColumn table (columns ++ [t])
  | insertColumn table columns, t => if t.value == ")" then insertNamed table columns else insertColumns table columns
  | insertNamed table columns, _ => insertValues table columns []
  | insertValues table columns sets, _ => insertSet table columns sets []
  | insertSet table columns sets set, t => insertValue table columns sets (set ++ [t])
  | insertValue table columns sets set, t =>
    if t.value == ")" then insertSets table columns (sets ++ [set]) else insertSet table columns sets set
  | insertSets table columns sets, t =>
    if t.value == ";" then complete (.insert ⟨table, columns, sets⟩) else insertValues table columns sets
  | selectVerb, t => if t.value == "*" then selectProjection .all else selectColumns []
  | selectColumns columns, t => selectColumn (columns ++ [t])
  | selectColumn columns, t =>
    if t.value == ")" then selectProjection (.columns columns) else selectColumns columns
  | selectProjection projection, _ => selectFrom projection
  | selectFrom projection, t => selectTable projection t
  | selectTable projection table, t =>
    if t.value == ";" then complete (.select ⟨projection, table, []⟩) else selectWhere projection table []
  | selectWhere projection table conditions, t => selectLeft projection table conditions t
  | selectLeft projection table conditions column, t => selectOperator projection table conditions column t
  | selectOperator projection table conditions column operator, t =>
    selectConditions projection table (conditions ++ [⟨column, operator, t⟩])
  | selectConditions projection table conditions, t =>
    if t.value == ";" then complete (.select ⟨projection, table, conditions⟩)
    else selectWhere projection table conditions
  | showVerb, _ => showCreate
  | showCreate, _ => showOpen
  | showOpen, t => showTable t
  | showTable table, _ => showEnd table
  | showEnd table, _ => complete (.showCreate table)
  | complete statement, _ => complete statement

/-- The error for a token that may not come next. -/
def refusal : Progress → Token → SyntaxError
  | start, t => .unknownVerb t.value t.position
  | p, t => .unexpectedToken p.expected t.value t.position

/-- Reads one token. -/
def step (p : Progress) (t : Token) : Except SyntaxError Progress :=
  if p.admits t then .ok (p.next t) else .error (p.refusal t)

/-- The statement that has been read when the tokens end, at the byte offset `stop`. -/
def finish (stop : Nat) : Progress → Except SyntaxError Statement
  | complete statement => .ok statement
  | p => .error (.unexpectedEnd p.expected stop)

end Progress

namespace Statement

/-- The statement that the tokens of a text of `stop` bytes make up. -/
def ofTokens (tokens : List Token) (stop : Nat) : Except SyntaxError Statement := do
  (← tokens.foldlM Progress.step .start).finish stop

/-- The statement that a text makes up. -/
def ofText (text : String) : Except SyntaxError Statement := do
  ofTokens (← Token.ofText text) text.utf8ByteSize

end Statement
end Tabular
