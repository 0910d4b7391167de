import Tabular.Session.Answer
import Tabular.Session.Basic
import Tabular.Statement.Reading

/-!
# Carrying out requests

Each statement has an outcome, an answer or an error, and leaves a session behind (`Outcome`). Selections and shown
definitions leave the session as it is; a definition adds a table and a row of the catalog, and an insertion changes
the rows of one table. The catalog takes no insertions. `Session.run` carries out a request given as text.
-/

namespace Tabular

/-- What a request comes to, and the session after it. -/
abbrev Outcome := Except RequestError Answer × Session

namespace Session

/-- A request that fails and changes nothing. -/
def fail (s : Session) (e : TableError) : Outcome :=
  (.error (.tableError e), s)

/-- Adds a row to the catalog. -/
def register (s : Session) (name : String) (engine : Engine) : Session :=
  match s.table? catalogName with
  | some catalog => s.put catalogName (catalog.append [catalogRow name engine])
  | none => s

/-- Creates a table and enters it into the catalog. -/
def create (s : Session) (d : TableDefinition) : Outcome :=
  let name := d.name.value
  if (s.table? name).isSome then s.fail (.existingTable name)
  else
    match Table.ofDefinition d with
    | .ok t => (.ok .done, (s.add name t).register name t.engine)
    | .error e => s.fail e

/-- Inserts rows into a table other than the catalog. -/
def insert (s : Session) (i : Insertion) : Outcome :=
  let name := i.table.value
  if name = catalogName then (.error (.readOnly name), s)
  else
    match s.table? name with
    | some t =>
      match t.insert i with
      | .ok (t, _) => (.ok .done, s.put name t)
      | .error e => s.fail e
    | none => s.fail (.unknownTable name)

/-- Selects rows of a table. -/
def select (s : Session) (q : Selection) : Outcome :=
  match s.table? q.table.value with
  | some t =>
    match t.select q with
    | .ok selected => (.ok (.rows selected.lines), s)
    | .error e => s.fail e
  | none => s.fail (.unknownTable q.table.value)

/-- Shows the statement that makes a table. -/
def showCreate (s : Session) (name : Token) : Outcome :=
  match s.table? name.value with
  | some t => (.ok (.text t.showCreate), s)
  | none => s.fail (.unknownTable name.value)

/-- Carries out a statement. -/
def perform (s : Session) : Statement → Outcome
  | .create definition => s.create definition
  | .insert insertion => s.insert insertion
  | .select selection => s.select selection
  | .showCreate table => s.showCreate table

/-- Carries out the statement that a text makes up. -/
def run (s : Session) (request : String) : Outcome :=
  match Statement.ofText request with
  | .ok statement => s.perform statement
  | .error e => (.error (.syntaxError e), s)

end Session
end Tabular
