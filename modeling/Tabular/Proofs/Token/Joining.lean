import Mathlib.Data.List.TakeWhile
import Tabular.Proofs.Token.Faithful
import Tabular.Text.Blank

/-!
# Tokens of texts that are joined

Blanks separate tokens and belong to none. So texts with a blank between them have the tokens of the one and then those
of the other (`readings_append_blank`), whichever blank it is (`readings_intercalate`), and blanks at the ends of a text
can be left away (`readings_trimBlanks`).
-/

namespace Tabular

/-! ## Blanks at the ends of a text -/

namespace Text

theorem trimBlanks_eq_nil_iff {cs : List Char} : trimBlanks cs = [] ↔ ∀ c ∈ cs, isBlank c = true := by
  rw [trimBlanks, List.reverse_eq_nil_iff, List.dropWhile_eq_nil_iff]
  simp only [List.mem_reverse]
  constructor
  · intro h c hc
    rw [← List.takeWhile_append_dropWhile (p := isBlank) (l := cs), List.mem_append] at hc
    exact hc.elim List.mem_takeWhile_imp (h c)
  · exact fun h c hc => h c (List.dropWhile_sublist _ |>.mem hc)

/-- Only of a text of blanks is nothing left. -/
theorem isEmpty_trim (text : String) : (trim text).isEmpty = text.toList.all isBlank := by
  rw [Bool.eq_iff_iff, List.all_eq_true, ← trimBlanks_eq_nil_iff, trim]
  simp

theorem trimBlanks_append_blank {c : Char} (hc : isBlank c = true) (cs : List Char) :
    trimBlanks (cs ++ [c]) = trimBlanks cs := by
  by_cases h : (cs.dropWhile isBlank).isEmpty
  · simp [trimBlanks, List.dropWhile_append, hc, List.isEmpty_iff.mp h]
  · simp [trimBlanks, List.dropWhile_append, h, hc]

/-- A text is what is left when it is trimmed, with blanks before and behind it. -/
theorem exists_trimBlanks (cs : List Char) : ∃ before behind, cs = before ++ trimBlanks cs ++ behind ∧
    (∀ c ∈ before, isBlank c = true) ∧ ∀ c ∈ behind, isBlank c = true := by
  refine ⟨cs.takeWhile isBlank, ((cs.dropWhile isBlank).reverse.takeWhile isBlank).reverse, ?_, ?_, ?_⟩
  · rw [trimBlanks, List.append_assoc, ← List.reverse_append, List.takeWhile_append_dropWhile, List.reverse_reverse,
      List.takeWhile_append_dropWhile]
  · exact fun c hc => List.mem_takeWhile_imp hc
  · intro c hc
    exact List.mem_takeWhile_imp (List.mem_reverse.mp hc)

end Text

/-! ## Tokens -/

namespace Token

open Text

/-- There is no token in blanks. -/
theorem readings_blanks {cs : List Char} (h : ∀ c ∈ cs, isBlank c = true) : readings cs = [] := by
  rw [readings, Lexeme.split_blanks h, List.map_nil]

/-- A blank stands between tokens. -/
theorem readings_append_blank (a : List Char) {c : Char} (hc : isBlank c = true) (b : List Char) :
    readings (a ++ c :: b) = readings a ++ readings b := by
  have hbreak : Lexeme.isBreak c = true := Lexeme.isBreak_of_isBlank hc
  have hfront : Lexeme.Parted a (c :: b) := .inr (by simp [hbreak])
  have hback : Lexeme.Parted [c] b := .inl (by simp [hbreak])
  have hblank : readings [c] = [] := readings_blanks (List.forall_mem_singleton.mpr hc)
  rw [readings_append hfront, ← List.singleton_append, readings_append hback, hblank, List.nil_append]

theorem readings_blanks_append {cs : List Char} (h : ∀ c ∈ cs, isBlank c = true) (rest : List Char) :
    readings (cs ++ rest) = readings rest := by
  induction cs with
  | nil => rfl
  | cons c cs ih =>
    obtain ⟨hc, hcs⟩ := List.forall_mem_cons.mp h
    have hfirst := readings_append_blank [] hc (cs ++ rest)
    rw [List.nil_append, readings_nil, List.nil_append] at hfirst
    rw [List.cons_append, hfirst, ih hcs]

theorem readings_append_blanks {cs : List Char} (h : ∀ c ∈ cs, isBlank c = true) (front : List Char) :
    readings (front ++ cs) = readings front := by
  cases cs with
  | nil => rw [List.append_nil]
  | cons c cs =>
    obtain ⟨hc, hcs⟩ := List.forall_mem_cons.mp h
    rw [readings_append_blank front hc, readings_blanks hcs, List.append_nil]

/-- Trimming a text leaves its tokens as they are. -/
theorem readings_trimBlanks (cs : List Char) : readings (trimBlanks cs) = readings cs := by
  obtain ⟨before, behind, hcs, hbefore, hbehind⟩ := exists_trimBlanks cs
  calc readings (trimBlanks cs) = readings (before ++ trimBlanks cs) := (readings_blanks_append hbefore _).symm
    _ = readings (before ++ trimBlanks cs ++ behind) := (readings_append_blanks hbehind _).symm
    _ = readings cs := by rw [← hcs]

/-- Texts with a blank between them have the tokens of each, in order. -/
theorem readings_intercalate {c : Char} (hc : isBlank c = true) (texts : List (List Char)) :
    readings ([c].intercalate texts) = (texts.map readings).flatten := by
  induction texts with
  | nil => exact readings_nil
  | cons text texts ih =>
    cases texts with
    | nil => simp
    | cons next texts =>
      rw [List.intercalate_cons_cons, List.append_assoc, List.singleton_append, readings_append_blank text hc, ih]
      rfl

end Token
end Tabular
