import Tabular.Proofs.Token.Cutting

/-!
# Where lexemes stand

A lexeme stands in its text at the byte offset that it says, and the text before it, read by itself, is cut into the
lexemes before it (`Cuts.exists_before`): a text that is cut off between lexemes is cut as it was.
-/

namespace Tabular.Lexeme

/-- Whether a word ends in front of a text shows in the first two characters of the text. -/
theorem word_eq_nil_iff {c : Char} {cs : List Char} :
    word (c :: cs) = [] ↔ isBreak c = true ∨ c = '=' ∧ cs.head? = some '=' := by
  have hcond : (Text.isBlank c || startsSeparator (c :: cs)) = true ↔
      isBreak c = true ∨ c = '=' ∧ cs.head? = some '=' := by
    simp only [startsSeparator, isBreak, Bool.or_eq_true, Bool.and_eq_true, beq_iff_eq, or_assoc]
  rw [← hcond, word]
  split
  · rename_i h
    exact ⟨fun _ => h, fun _ => rfl⟩
  · rename_i h
    exact ⟨fun hw => absurd hw (List.cons_ne_nil _ _), fun hc => absurd hc h⟩

/-- A text that starts with the sign `==` is not cut between its two halves. -/
theorem not_cuts_equal {n : Nat} {as ls : List Lexeme} {b : List Char} (hone : Cuts n ['='] as) :
    ¬ Cuts n ('=' :: '=' :: b) (as ++ ls) := by
  intro htwo
  have hw : IsWord ['='] := by decide
  have hb : Cuts n (['=', '='] ++ b) (⟨['=', '='], n⟩ :: split (n + width ['=', '=']) b) :=
    .separator .equal (cuts_split _ b)
  have hcut := htwo.split_eq.symm.trans hb.split_eq
  rw [← hone.split_eq, split_single (.inr hw)] at hcut
  simp at hcut

/-- A word that ends in front of a text also ends in front of a part of it that is cut off between lexemes. -/
theorem Ends.of_cuts {w pre b : List Char} {n : Nat} {as ls : List Lexeme} (h : Ends w (pre ++ b))
    (hpre : Cuts n pre as) (hall : Cuts n (pre ++ b) (as ++ ls)) : Ends w pre := by
  cases pre with
  | nil => exact ⟨rfl, fun _ hb => by cases hb⟩
  | cons c pre =>
    refine ⟨word_eq_nil_iff.mpr ?_, h.apart⟩
    rcases word_eq_nil_iff.mp h.stop with hc | ⟨rfl, hd⟩
    · exact .inl hc
    · cases pre with
      | nil =>
        obtain ⟨b, rfl⟩ := List.head?_eq_some_iff.mp hd
        exact absurd hall (not_cuts_equal hpre)
      | cons d pre => exact .inr ⟨rfl, hd⟩

/-- **What stands before a lexeme** is as wide as the lexeme says, and it is cut into the lexemes before it. -/
theorem Cuts.exists_before {n : Nat} {cs : List Char} {as bs : List Lexeme} {l : Lexeme}
    (h : Cuts n cs (as ++ l :: bs)) :
    ∃ pre rest, cs = pre ++ (l.text ++ rest) ∧ l.start = n + width pre ∧ Cuts n pre as := by
  generalize hls : as ++ l :: bs = ls at h
  induction h generalizing as with
  | nil => simp at hls
  | @blank n c cs ls hc _ ih =>
    obtain ⟨pre, rest, rfl, hs, hcuts⟩ := ih hls
    refine ⟨c :: pre, rest, rfl, ?_, .blank hc hcuts⟩
    rw [hs, width, Nat.add_assoc]
  | @separator n v cs ls hv _ ih =>
    cases as with
    | nil =>
      cases hls
      exact ⟨[], cs, rfl, rfl, .nil⟩
    | cons a as =>
      obtain ⟨rfl, htail⟩ := List.cons.inj hls
      obtain ⟨pre, rest, rfl, hs, hcuts⟩ := ih htail
      refine ⟨v ++ pre, rest, (List.append_assoc _ _ _).symm, ?_, .separator hv hcuts⟩
      rw [hs, width_append, Nat.add_assoc]
  | @word n v cs ls hv he hall ih =>
    cases as with
    | nil =>
      cases hls
      exact ⟨[], cs, rfl, rfl, .nil⟩
    | cons a as =>
      obtain ⟨rfl, htail⟩ := List.cons.inj hls
      obtain ⟨pre, rest, rfl, hs, hcuts⟩ := ih htail
      refine ⟨v ++ pre, rest, (List.append_assoc _ _ _).symm, ?_, .word hv ?_ hcuts⟩
      · rw [hs, width_append, Nat.add_assoc]
      · exact he.of_cuts hcuts (htail ▸ hall)

theorem width_eq_utf8ByteSize (cs : List Char) : width cs = (String.ofList cs).utf8ByteSize := by
  induction cs with
  | nil => rfl
  | cons c cs ih =>
    have hcons : String.ofList (c :: cs) = String.ofList [c] ++ String.ofList cs := by
      rw [← String.ofList_append]
      rfl
    rw [hcons, String.utf8ByteSize_append, ← ih, width, ← String.singleton_eq_ofList, String.utf8ByteSize_singleton]

theorem width_toList (text : String) : width text.toList = text.utf8ByteSize := by
  rw [width_eq_utf8ByteSize, String.ofList_toList]

end Tabular.Lexeme
