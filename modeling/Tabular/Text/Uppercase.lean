import Tabular.Text.UppercaseRuns

/-!
# Uppercase text

The full uppercase mapping of Unicode text: every character is mapped on its own, some to more than one character.
-/

namespace Tabular.Text

/-- The uppercase form of a character. -/
def upperChar (c : Char) : List Char :=
  if c.toNat < 128 then [c.toUpper]
  else
    match uppercaseExpansions.lookup c.toNat with
    | some ns => ns.map Char.ofNat
    | none => [caseImage uppercaseRuns c]

/-- The uppercase form of a text. -/
def uppercase (text : String) : String :=
  String.ofList (text.toList.flatMap upperChar)

end Tabular.Text
