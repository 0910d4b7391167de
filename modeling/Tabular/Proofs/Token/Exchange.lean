import Tabular.Proofs.Text.Lowercase
import Tabular.Proofs.Token.Cutting

/-!
# Exchanging a word

A word of letters can be exchanged for another one without a change to any other lexeme of the text but its place
(`Cuts.exchange`): the lexeme before it ends where it ended, as no letter starts a separator or makes one with the
character before it, and the rest of the text is cut as it was.
-/

namespace Tabular.Lexeme

/-- A word of ASCII letters. -/
def IsLetters (w : List Char) : Prop :=
  w ≠ [] ∧ ∀ c ∈ w, Text.IsLetter c

theorem isBreak_of_isLetter {c : Char} (h : Text.IsLetter c) : isBreak c = false := by
  unfold Text.IsLetter at h
  exact isBreak_of_toNat (by omega) (by simp; omega)

theorem ne_equal_of_isLetter {c : Char} (h : Text.IsLetter c) : c ≠ '=' := by
  rintro rfl
  exact absurd h (by decide)

/-- A letter belongs to a word wherever it stands. -/
theorem word_cons_of_isLetter {c : Char} (h : Text.IsLetter c) (cs : List Char) : word (c :: cs) = c :: word cs :=
  word_append (List.forall_mem_singleton.mpr ⟨isBreak_of_isLetter h, ne_equal_of_isLetter h⟩) cs

theorem IsLetters.isWord {w : List Char} (h : IsLetters w) : IsWord w :=
  isWord_of_forall h.1 fun c hc => ⟨isBreak_of_isLetter (h.2 c hc), ne_equal_of_isLetter (h.2 c hc)⟩

theorem IsLetters.not_isSeparator {w : List Char} (h : IsLetters w) : ¬ IsSeparator w := by
  rintro (hm | _)
  · have := isBreak_of_isLetter (h.2 _ (List.mem_singleton_self _))
    simp [isBreak, hm] at this
  · exact ne_equal_of_isLetter (h.2 '=' List.mem_cons_self) rfl

/-- What stands at the seam in front of a word of letters does not depend on the word. -/
theorem Ends.exchange {v pre w w' rest : List Char} (hw : IsLetters w) (hw' : IsLetters w')
    (h : Ends v (pre ++ (w ++ rest))) : Ends v (pre ++ (w' ++ rest)) := by
  obtain ⟨c, w, rfl⟩ := List.exists_cons_of_ne_nil hw.1
  obtain ⟨c', w', rfl⟩ := List.exists_cons_of_ne_nil hw'.1
  have hc : Text.IsLetter c := hw.2 c List.mem_cons_self
  have hc' : Text.IsLetter c' := hw'.2 c' List.mem_cons_self
  cases pre with
  | nil =>
    -- a word cannot end in front of a letter
    have hs := h.stop
    rw [List.nil_append, List.cons_append, word_cons_of_isLetter hc] at hs
    cases hs
  | cons d pre =>
    refine ⟨?_, h.apart⟩
    have hs : word (d :: (pre ++ (c :: w ++ rest))) = [] := h.stop
    have hhead : (pre ++ (c :: w ++ rest)).head? = some '=' ↔ (pre ++ (c' :: w' ++ rest)).head? = some '=' := by
      cases pre with
      | nil => simp [ne_equal_of_isLetter hc, ne_equal_of_isLetter hc']
      | cons e pre => rfl
    rw [word] at hs
    split at hs
    · rename_i hd
      rw [List.cons_append, word, if_pos]
      simp only [startsSeparator, Bool.or_eq_true, Bool.and_eq_true, beq_iff_eq] at hd ⊢
      rwa [← hhead]
    · cases hs

/-- Where a text stands does not matter to how it is cut. -/
theorem texts_split (n m : Nat) (cs : List Char) : (split n cs).map text = (split m cs).map text := by
  have h (n : Nat) : (split n cs).map text = (split 0 cs).map text := by
    rw [← Nat.zero_add n, split_add, List.map_map]
    rfl
  rw [h n, h m]

/-- **Exchanging a word.** A lexeme of letters stands at its offset in the text, and another word of letters in its
place leaves the other lexemes as they are. -/
theorem Cuts.exchange {n : Nat} {cs : List Char} {as bs : List Lexeme} {l : Lexeme} (h : Cuts n cs (as ++ l :: bs))
    (hl : IsLetters l.text) {w : List Char} (hw : IsLetters w) :
    ∃ pre rest, cs = pre ++ (l.text ++ rest) ∧ l.start = n + width pre ∧
      ∃ bs', bs'.map text = bs.map text ∧ Cuts n (pre ++ (w ++ rest)) (as ++ ⟨w, l.start⟩ :: bs') := by
  generalize hls : as ++ l :: bs = ls at h
  induction h generalizing as with
  | nil => simp at hls
  | @blank n c cs ls hc _ ih =>
    obtain ⟨pre, rest, rfl, hs, bs', hbs, hcuts⟩ := ih hls
    refine ⟨c :: pre, rest, rfl, ?_, bs', hbs, .blank hc hcuts⟩
    rw [hs, Nat.add_assoc]
    rfl
  | @separator n v cs ls hv _ ih =>
    cases as with
    | nil =>
      cases hls
      exact absurd hv hl.not_isSeparator
    | cons a as =>
      obtain ⟨rfl, htail⟩ := List.cons.inj hls
      obtain ⟨pre, rest, rfl, hs, bs', hbs, hcuts⟩ := ih htail
      refine ⟨v ++ pre, rest, by simp, ?_, bs', hbs, ?_⟩
      · rw [hs, width_append, Nat.add_assoc]
      · rw [List.append_assoc]
        exact .separator hv hcuts
  | @word n v cs ls hv he hcuts ih =>
    cases as with
    | nil =>
      cases hls
      have hend : Ends w cs :=
        ⟨he.stop, fun h => absurd (List.mem_of_getLast? h) fun hm => ne_equal_of_isLetter (hw.2 _ hm) rfl⟩
      refine ⟨[], cs, rfl, rfl, split (n + width w) cs, ?_, .word hw.isWord hend (cuts_split _ cs)⟩
      rw [texts_split _ (n + width v), hcuts.split_eq]
    | cons a as =>
      obtain ⟨rfl, htail⟩ := List.cons.inj hls
      obtain ⟨pre, rest, rfl, hs, bs', hbs, hcuts⟩ := ih htail
      refine ⟨v ++ pre, rest, by simp, ?_, bs', hbs, ?_⟩
      · rw [hs, width_append, Nat.add_assoc]
      · rw [List.append_assoc]
        exact .word hv (he.exchange hl hw) hcuts

end Tabular.Lexeme
