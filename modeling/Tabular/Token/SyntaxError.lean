import Tabular.Token.Basic

/-!
# Syntax errors

What may stand next in a request (`Expectation`), which tokens satisfy that (`Expectation.admits`), and the ways in
which a request can fail to be a statement (`SyntaxError`), each with the byte offset of the failure and its message.
-/

namespace Tabular

/-- What may stand next in a request. -/
inductive Expectation where
  /-- One reserved word or symbol. -/
  | word (word : String)
  /-- Any token of a kind. -/
  | ofKind (kind : TokenKind)
  /-- One of several reserved words or symbols. -/
  | anyWord (words : List String)
  /-- Any token of one of several kinds. -/
  | anyKind (kinds : List TokenKind)
  /-- Nothing more. -/
  | nothing
deriving DecidableEq, Repr

/-- The text in quotation marks. -/
def quoted (text : String) : String :=
  "\"" ++ text ++ "\""

namespace Expectation

/-- The wording of an expectation in messages. -/
def text : Expectation → String
  | .word w => quoted w
  | .ofKind kind => kind.text
  | .anyWord words => "one of " ++ ", ".intercalate (words.map quoted)
  | .anyKind kinds => " or ".intercalate (kinds.map TokenKind.text)
  | .nothing => "end of input"

/-- Whether a token satisfies an expectation. -/
def admits : Expectation → Token → Bool
  | .word w, t => t.spells w
  | .ofKind kind, t => t.kind == kind
  | .anyWord words, t => words.any t.spells
  | .anyKind kinds, t => kinds.contains t.kind
  | .nothing, _ => false

end Expectation

/-- Why a request is not a statement. -/
inductive SyntaxError where
  /-- A fragment that is no token of any kind. -/
  | noToken (fragment : String) (position : Nat)
  /-- A token that cannot stand where it stands. -/
  | unexpectedToken (expected : Expectation) (found : String) (position : Nat)
  /-- The request ends too early. -/
  | unexpectedEnd (expected : Expectation) (position : Nat)
  /-- The first token starts no statement. -/
  | unknownVerb (found : String) (position : Nat)
deriving DecidableEq, Repr

namespace SyntaxError

/-- The byte offset in the request at which the failure was seen. -/
def position : SyntaxError → Nat
  | .noToken _ position => position
  | .unexpectedToken _ _ position => position
  | .unexpectedEnd _ position => position
  | .unknownVerb _ position => position

/-- The message of a syntax error. -/
def message : SyntaxError → String
  | .noToken fragment position => "unsupported token " ++ quoted fragment ++ " at " ++ position.repr
  | .unexpectedToken expected found position =>
    "syntax error at " ++ position.repr ++ ": expected " ++ expected.text ++ ", found " ++ quoted found
  | .unexpectedEnd expected position =>
    "syntax error at " ++ position.repr ++ ": expected " ++ expected.text ++ ", found end of input"
  | .unknownVerb found position =>
    "unsupported operation " ++ quoted found ++ " at " ++ position.repr ++
      ": only CREATE TABLE, INSERT INTO, SELECT and SHOW CREATE are supported"

end SyntaxError
end Tabular
