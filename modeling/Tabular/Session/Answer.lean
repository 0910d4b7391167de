import Tabular.Schema.TableError
import Tabular.Token.SyntaxError

/-!
# Answers

What becomes of a request: it succeeds with an `Answer` or fails with a `RequestError`. Either way there is a reply
(`reply`) that consists of whole lines.
-/

namespace Tabular

/-- Why a request fails. -/
inductive RequestError where
  /-- The request is not a statement. -/
  | syntaxError (e : SyntaxError)
  /-- The statement cannot be carried out. -/
  | tableError (e : TableError)
  /-- The table takes no insertions. -/
  | readOnly (name : String)
deriving DecidableEq, Repr

namespace RequestError

/-- The message of an error. -/
def message : RequestError → String
  | .syntaxError e => e.message
  | .tableError e => e.message
  | .readOnly name => "table " ++ name ++ " is read-only"

/-- The byte offset of a syntax error in the request. -/
def position? : RequestError → Option Nat
  | .syntaxError e => some e.position
  | .tableError _ => none
  | .readOnly _ => none

end RequestError

/-- What a request that succeeds answers. -/
inductive Answer where
  /-- The lines of a selection, the names of the columns first. -/
  | rows (lines : List (List String))
  /-- A text. -/
  | text (text : String)
  /-- Nothing but that it succeeded. -/
  | done
deriving DecidableEq, Repr

/-- A line of the given pieces, with a comma between two of them and a newline at its end. -/
def csvLine (pieces : List String) : String :=
  ",".intercalate pieces ++ "\n"

/-- An answer as lines of text. -/
def Answer.display : Answer → String
  | .rows lines => String.join (lines.map csvLine)
  | .text t => t ++ "\n"
  | .done => "ok\n"

/-- The reply to a request: its answer, or the message of its error on a line. -/
def reply : Except RequestError Answer → String
  | .ok answer => answer.display
  | .error e => e.message ++ "\n"

end Tabular
