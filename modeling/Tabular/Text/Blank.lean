/-!
# Blank characters

The 25 characters of the Unicode property `White_Space` separate the words of a request and are trimmed from its
ends. Zero-width characters such as `U+200B` and `U+FEFF` do not belong to them.
-/

namespace Tabular.Text

/-- Whether the character has the property `White_Space`. -/
def isBlank (c : Char) : Bool :=
  let n := c.toNat
  (0x09 ≤ n && n ≤ 0x0D) || n == 0x20 || n == 0x85 || n == 0xA0 || n == 0x1680 || (0x2000 ≤ n && n ≤ 0x200A) ||
    n == 0x2028 || n == 0x2029 || n == 0x202F || n == 0x205F || n == 0x3000

/-- The characters between the blank ones at both ends. -/
def trimBlanks (cs : List Char) : List Char :=
  ((cs.dropWhile isBlank).reverse.dropWhile isBlank).reverse

/-- The text between the blanks at both ends. -/
def trim (text : String) : String :=
  String.ofList (trimBlanks text.toList)

end Tabular.Text
