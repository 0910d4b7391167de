/-!
# Integers in text

A number is written with ASCII digits after at most one sign, and it has to fit into 64 bits. Leading zeros and a
plus sign are read (`readInteger?`), but never written (`integerText`).
-/

namespace Tabular.Text

/-- The number that one or more decimal digits stand for. -/
def readDigits? (cs : List Char) : Option Nat :=
  if cs ≠ [] ∧ cs.all Char.isDigit then some (Nat.ofDigitChars 10 cs 0) else none

/-- The integer that digits with at most one sign before them stand for. -/
def readSigned? : List Char → Option Int
  | '-' :: cs => (readDigits? cs).map fun n => -(n : Int)
  | '+' :: cs => (readDigits? cs).map fun n => (n : Int)
  | cs => (readDigits? cs).map fun n => (n : Int)

/-- Whether the integer lies in the range of 64 bits with a sign. -/
def FitsInt64 (v : Int) : Prop :=
  -9223372036854775808 ≤ v ∧ v ≤ 9223372036854775807

instance (v : Int) : Decidable (FitsInt64 v) :=
  inferInstanceAs (Decidable (_ ∧ _))

/-- The 64-bit integer that the text spells. -/
def readInteger? (text : String) : Option Int64 :=
  match readSigned? text.toList with
  | some v => if FitsInt64 v then some (Int64.ofInt v) else none
  | none => none

/-- The shortest spelling of an integer: digits without leading zeros, and a minus sign below zero. -/
def integerText (n : Int64) : String :=
  n.toInt.repr

end Tabular.Text
