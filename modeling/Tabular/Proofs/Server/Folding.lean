import Mathlib.Data.List.Induction
import Tabular.Proofs.Statement.Folding
import Tabular.Proofs.Token.Joining
import Tabular.Server.Connection

/-!
# Lines in lower case

A line is trimmed and put into lower case before it is carried out. It makes no difference if it stands in lower case
already (`Session.runLine_lowercase`): blanks stay blanks and nothing else becomes one, so the trimmed line is the same
(`Text.trim_lowercase`), and lowercase text stays as it is. What lower case does to a text before it is read is no more
than to put its identifiers into lower case (`Text.folding`).
-/

namespace Tabular

namespace Text

/-! ## Trimming -/

theorem isBlank_of_mem_lowerAt {before : Bool} {c d : Char} {after : List Char} (h : d ∈ lowerAt before c after) :
    isBlank d = isBlank c := by
  by_cases hc : isBlank c = true
  · have hseam : IsSeam c := .of_isBlank hc
    rw [hseam.lowerAt_eq, List.mem_singleton] at h
    rw [h]
  · rw [Bool.eq_false_iff.mpr hc, Bool.eq_false_iff]
    intro hd
    have hseam : IsSeam d := .of_isBlank hd
    exact hc (eq_of_mem_lowerAt h hseam ▸ hd)

theorem dropWhile_lowerFrom (cs : List Char) :
    (lowerFrom false cs).dropWhile isBlank = lowerFrom false (cs.dropWhile isBlank) := by
  induction cs with
  | nil => rfl
  | cons c cs ih =>
    by_cases hc : isBlank c = true
    · have hseam : IsSeam c := .of_isBlank hc
      rw [hseam.lowerFrom_cons, List.dropWhile_cons_of_pos hc, List.dropWhile_cons_of_pos hc, ih]
    · obtain ⟨d, hd, hhead⟩ := exists_head?_lowerFrom false c cs
      obtain ⟨ds, hds⟩ := List.head?_eq_some_iff.mp hhead
      have hblank : ¬ isBlank d = true := by rwa [isBlank_of_mem_lowerAt hd]
      rw [List.dropWhile_cons_of_neg hc, hds, List.dropWhile_cons_of_neg hblank]

/-- Nothing is trimmed behind a text that ends with no blank. -/
theorem trimBlanks_of_getLast? {cs : List Char} {c : Char} (h : cs.getLast? = some c) (hc : isBlank c = false) :
    trimBlanks cs = cs.dropWhile isBlank := by
  obtain ⟨front, rfl⟩ : ∃ front, cs = front ++ [c] := List.getLast?_eq_some_iff.mp h
  have hdrop : ∃ rest, (front ++ [c]).dropWhile isBlank = rest ++ [c] := by
    rw [List.dropWhile_append]
    split
    · exact ⟨[], by simp [hc]⟩
    · exact ⟨_, rfl⟩
  obtain ⟨rest, hrest⟩ := hdrop
  simp [trimBlanks, hrest, hc]

theorem trimBlanks_lowerFrom (cs : List Char) : trimBlanks (lowerFrom false cs) = lowerFrom false (trimBlanks cs) := by
  induction cs using List.reverseRecOn with
  | nil => rfl
  | append_singleton cs c ih =>
    by_cases hc : isBlank c = true
    · have hseam : IsSeam c := .of_isBlank hc
      rw [lowerFrom_append (hseam.casedAhead []), hseam.lowerFrom_cons, lowerFrom, trimBlanks_append_blank hc, ih,
        trimBlanks_append_blank hc]
    · obtain ⟨before, d, hd, hlast⟩ := exists_getLast?_lowerFrom false cs c
      have hblank : isBlank d = false := by
        rw [isBlank_of_mem_lowerAt hd]
        exact Bool.eq_false_iff.mpr hc
      rw [trimBlanks_of_getLast? hlast hblank, trimBlanks_of_getLast? List.getLast?_concat (Bool.eq_false_iff.mpr hc),
        dropWhile_lowerFrom]

/-- A text can be trimmed before it is put into lower case or after. -/
theorem trim_lowercase (text : String) : trim (lowercase text) = lowercase (trim text) := by
  rw [trim, lowercase, String.toList_ofList, trimBlanks_lowerFrom, lowercase, trim, String.toList_ofList]

theorem isEmpty_lowercase (text : String) : (lowercase text).isEmpty = text.isEmpty := by
  rw [Bool.eq_iff_iff, String.isEmpty_iff, String.isEmpty_iff, ← String.toList_eq_nil_iff, ← String.toList_eq_nil_iff,
    lowercase, String.toList_ofList]
  cases text.toList with
  | nil => rfl
  | cons c cs => simp [lowerFrom_cons, lowerAt_ne_nil]

end Text

/-! ## Lines -/

/-- **A line and the line in lower case** have the same reply and lead to the same session. -/
theorem Session.runLine_lowercase (s : Session) (line : String) : s.runLine (Text.lowercase line) = s.runLine line := by
  simp only [runLine, Text.trim_lowercase, Text.isEmpty_lowercase, Text.lowercase_lowercase]

/-- **Lower case changes only the letters of identifiers.** The text in lower case has the same tokens with their values
in lower case and comes to the same statement or failure, and as a line it has the same reply in every session. -/
theorem Text.folding (text : String) :
    (∃ ts us, Token.ofText text = .ok ts ∧ Token.ofText (lowercase text) = .ok us ∧
      us.map (fun u => (u.kind, u.value)) = ts.map (fun t => (t.kind, lowercase t.value)) ∧
      Statement.Folds ts us text.utf8ByteSize (lowercase text).utf8ByteSize (Statement.ofText text)
        (Statement.ofText (lowercase text))) ∧
    ∀ s : Session, s.runLine (lowercase text) = s.runLine text := by
  refine ⟨?_, fun s => s.runLine_lowercase text⟩
  obtain ⟨ts, us, hts, hus, hfold, h⟩ := Statement.folds_ofText text
  exact ⟨ts, us, hts, hus, Token.kinds_and_values_of_lowered hfold (Token.faithful_of_ofText hts), h⟩

end Tabular
