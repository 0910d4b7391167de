/-!
# Tokens

A request is a sequence of tokens: a value, the kind of the value and the place where it starts. Two tokens are the
same (`Token.Same`) when they differ at most in their place. The reserved words of each kind are listed here
(`TokenKind.reserved`), as the lexer, the parser and the printer have to agree on them.
-/

namespace Tabular

/-- What a token is. -/
inductive TokenKind where
  | number
  | keyword
  | symbol
  | identifier
  | datatype
  | engine
deriving DecidableEq, Repr, Inhabited

namespace TokenKind

/-- The name of a kind in messages. -/
def text : TokenKind → String
  | number => "number"
  | keyword => "keyword"
  | symbol => "symbol"
  | identifier => "identifier"
  | datatype => "type"
  | engine => "engine"

/-- The words that belong to a kind wherever they stand. Numbers and identifiers have none. -/
def reserved : TokenKind → List String
  | number => []
  | keyword =>
    ["select", "from", "as", "table", "create", "insert", "into", "values", "show", "engine", "settings", "where",
      "order", "by", "and"]
  | symbol => [";", "*", ",", "(", ")", "==", ">", "<"]
  | identifier => []
  | datatype => ["int", "text"]
  | engine => ["linear", "column"]

/-- Whether the word, spelled exactly so, is reserved for the kind. -/
def reserves (kind : TokenKind) (word : String) : Bool :=
  kind.reserved.contains word

end TokenKind

/-- A word or symbol of a request, with the byte offset at which it starts. -/
structure Token where
  value : String
  kind : TokenKind
  position : Nat
deriving DecidableEq, Repr, Inhabited

namespace Token

/-- The token moved to the start of the text. -/
def unplaced (t : Token) : Token :=
  { t with position := 0 }

/-- The same value and kind, wherever the tokens stand. -/
def Same (t u : Token) : Prop :=
  t.unplaced = u.unplaced

instance (t u : Token) : Decidable (Same t u) :=
  inferInstanceAs (Decidable (_ = _))

/-- Whether the token is the reserved word or the symbol that is spelled so. -/
def spells (t : Token) (word : String) : Bool :=
  (t.kind == .keyword || t.kind == .symbol) && t.value == word

/-- A token of no text, as statements that were not read from text are made of. -/
def fresh (value : String) (kind : TokenKind) : Token :=
  ⟨value, kind, 0⟩

end Token

/-- The values of tokens in parentheses, separated by commas. -/
def bracketed (tokens : List Token) : String :=
  "(" ++ ", ".intercalate (tokens.map (·.value)) ++ ")"

end Tabular
