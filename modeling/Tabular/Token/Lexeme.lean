import Tabular.Text.Blank

/-!
# Lexemes

A text is cut into lexemes before any of them gets a kind. A lexeme is a separator, that is one of the marks
`; * , ( ) > <` or the sign `==`, or a word: a longest stretch without blanks in which no separator starts. A single
`=` belongs to the word around it. Lexemes carry the byte offset at which they start.
-/

namespace Tabular

/-- A stretch of a text, with the byte offset at which it starts. -/
structure Lexeme where
  text : List Char
  start : Nat
deriving DecidableEq, Repr

namespace Lexeme

/-- The characters that are separators by themselves. -/
def isMark (c : Char) : Bool :=
  c == ';' || c == '*' || c == ',' || c == '(' || c == ')' || c == '>' || c == '<'

/-- Whether a separator starts the text. -/
def startsSeparator : List Char → Bool
  | [] => false
  | c :: cs => isMark c || (c == '=' && cs.head? == some '=')

/-- The longest front part that holds no blank and in which no separator starts. -/
def word : List Char → List Char
  | [] => []
  | c :: cs => if Text.isBlank c || startsSeparator (c :: cs) then [] else c :: word cs

/-- The first lexeme of a text that starts with the character `c`, which is not blank. -/
def first (c : Char) (cs : List Char) : List Char :=
  if isMark c then [c]
  else if startsSeparator (c :: cs) then [c, c]
  else c :: word cs

theorem word_isPrefix (cs : List Char) : word cs <+: cs := by
  induction cs with
  | nil => exact List.nil_prefix
  | cons c cs ih =>
    simp only [word]
    split
    · exact List.nil_prefix
    · exact List.cons_prefix_cons.mpr ⟨rfl, ih⟩

/-- The first lexeme stands at the front of the text and has its first character. -/
theorem first_isPrefix (c : Char) (cs : List Char) : ∃ tail, first c cs = c :: tail ∧ tail <+: cs := by
  unfold first
  split
  · exact ⟨[], rfl, List.nil_prefix⟩
  · split
    · rename_i hm hs
      simp only [startsSeparator, hm, Bool.false_or, Bool.and_eq_true, beq_iff_eq] at hs
      obtain ⟨rfl, hs⟩ := hs
      obtain ⟨rest, rfl⟩ := List.head?_eq_some_iff.mp hs
      exact ⟨['='], rfl, rest, rfl⟩
    · exact ⟨_, rfl, word_isPrefix cs⟩

/-- The number of bytes that the characters take. -/
def width : List Char → Nat
  | [] => 0
  | c :: cs => c.utf8Size + width cs

/-- The lexemes of a text whose first character stands at the byte offset `start`. -/
def split (start : Nat) : List Char → List Lexeme
  | [] => []
  | c :: cs =>
    if Text.isBlank c then split (start + c.utf8Size) cs
    else
      let text := first c cs
      ⟨text, start⟩ :: split (start + width text) (cs.drop (text.length - 1))
termination_by cs => cs.length
decreasing_by all_goals simp only [List.length_drop, List.length_cons]; omega

end Lexeme
end Tabular
