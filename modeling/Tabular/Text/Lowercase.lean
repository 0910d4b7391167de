import Tabular.Text.Cased
import Tabular.Text.LowercaseRuns

/-!
# Lowercase text

The full lowercase mapping of Unicode text. Each character is mapped on its own (`lowerChar`), except `Σ`, which
becomes `ς` at the end of a word and `σ` elsewhere. A word ends at a `Σ` when the nearest character before it is
cased and the nearest one after it is not, both times looking through case-ignorable characters.

`lowerFrom b cs` carries the only thing it needs to know of the text before `cs`: whether the nearest character
before, ignorable ones aside, is cased.
-/

namespace Tabular.Text

/-- The lowercase form of a character by itself. -/
def lowerChar (c : Char) : List Char :=
  if c.toNat < 128 then [c.toLower]
  else if c = 'İ' then ['i', '\u0307']
  else [caseImage lowercaseRuns c]

/-- Whether the first character that is not case-ignorable is cased. -/
def casedAhead : List Char → Bool
  | [] => false
  | c :: cs => if isCaseIgnorable c then casedAhead cs else isCased c

/-- What is known of the text before once `c` has been passed: a case-ignorable character changes nothing. -/
def casedAfter (before : Bool) (c : Char) : Bool :=
  if isCaseIgnorable c then before else isCased c

/-- The lowercase form of `Σ` between what stands before and after it. -/
def lowerSigma (before : Bool) (after : List Char) : Char :=
  if before && !casedAhead after then 'ς' else 'σ'

/-- The lowercase form of text that follows a cased character (`before`) or does not. -/
def lowerFrom (before : Bool) : List Char → List Char
  | [] => []
  | c :: cs => (if c = 'Σ' then [lowerSigma before cs] else lowerChar c) ++ lowerFrom (casedAfter before c) cs

/-- The lowercase form of a text. -/
def lowercase (text : String) : String :=
  String.ofList (lowerFrom false text.toList)

end Tabular.Text
