import Tabular.Text.Integer
import Tabular.Text.Lowercase
import Tabular.Token.Lexeme
import Tabular.Token.SyntaxError

/-!
# Reading tokens

`Token.recognize` decides what a piece of text is. Numbers come first, then the names of types, keywords, symbols and
the names of engines; what is none of these is an identifier. Reserved words are found in any case and are kept in
lower case, all else is kept as it is written. `Token.ofText` does this for every lexeme of a text.
-/

namespace Tabular.Token

/-- The value and the kind of a piece of text that is not empty. -/
def recognize (fragment : String) : String × TokenKind :=
  let folded := Text.lowercase fragment
  if (Text.readInteger? fragment).isSome then (fragment, .number)
  else if TokenKind.datatype.reserves folded then (folded, .datatype)
  else if TokenKind.keyword.reserves folded then (folded, .keyword)
  else if TokenKind.symbol.reserves fragment then (fragment, .symbol)
  else if TokenKind.engine.reserves folded then (folded, .engine)
  else (fragment, .identifier)

/-- The token that a piece of text is. Only the empty text is none. -/
def ofFragment (fragment : String) (position : Nat) : Except SyntaxError Token :=
  if fragment.isEmpty then .error (.noToken fragment position)
  else
    let (value, kind) := recognize fragment
    .ok ⟨value, kind, position⟩

/-- The token that a lexeme is. -/
def ofLexeme (lexeme : Lexeme) : Except SyntaxError Token :=
  ofFragment (String.ofList lexeme.text) lexeme.start

/-- The tokens of a text in order. -/
def ofText (text : String) : Except SyntaxError (List Token) :=
  (Lexeme.split 0 text.toList).mapM ofLexeme

end Tabular.Token
