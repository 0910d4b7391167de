import Tabular.Token.Lexeme

/-!
# How a text is cut

`Cuts n cs ls` says what it means that the lexemes `ls` are those of the text `cs`, whose first character stands at
the byte offset `n`: blanks are passed over, a separator is a lexeme wherever it stands, and a word is a lexeme where
it cannot be longer (`Ends`). The relation has one rule for each way a text can go on, and it is the graph of
`Lexeme.split` (`split_eq_iff`), so facts about lexemes are proved by induction on it.

Two texts that are put together are cut each on its own if a blank or a mark stands on either side of the seam
(`split_append`).
-/

namespace Tabular.Lexeme

/-! ## Words and separators -/

/-- A mark, or the sign `==`. -/
inductive IsSeparator : List Char → Prop
  | mark {c : Char} : isMark c → IsSeparator [c]
  | equal : IsSeparator ['=', '=']

instance : DecidablePred IsSeparator
  | [] => isFalse nofun
  | [c] => decidable_of_iff (isMark c) ⟨.mark, fun | .mark h => h⟩
  | [c, d] => decidable_of_iff (c = '=' ∧ d = '=') ⟨fun ⟨hc, hd⟩ => hc ▸ hd ▸ .equal, fun | .equal => ⟨rfl, rfl⟩⟩
  | _ :: _ :: _ :: _ => isFalse nofun

/-- Characters that make a word by themselves. -/
def IsWord (w : List Char) : Prop :=
  w ≠ [] ∧ word w = w

instance (w : List Char) : Decidable (IsWord w) :=
  inferInstanceAs (Decidable (_ ∧ _))

/-- The word ends before `rest`: no more of it could belong to the word, and the last character of the word makes no
separator with the first one of `rest`. -/
structure Ends (w rest : List Char) : Prop where
  stop : word rest = []
  apart : w.getLast? = some '=' → rest.head? ≠ some '='

theorem word_cons_eq_iff {c : Char} {cs w : List Char} :
    word (c :: cs) = c :: w ↔ Text.isBlank c = false ∧ startsSeparator (c :: cs) = false ∧ word cs = w := by
  rw [word]
  split
  · rename_i h
    simp only [Bool.or_eq_true] at h
    constructor
    · exact fun h' => absurd h' (List.cons_ne_nil _ _).symm
    · rintro ⟨hb, hs, -⟩
      simp [hb, hs] at h
  · rename_i h
    simp only [Bool.or_eq_true, not_or, Bool.not_eq_true] at h
    simp only [h, List.cons.injEq, true_and]

theorem startsSeparator_eq_false_iff {c : Char} {cs : List Char} :
    startsSeparator (c :: cs) = false ↔ isMark c = false ∧ (c = '=' → cs.head? ≠ some '=') := by
  simp only [startsSeparator, Bool.or_eq_false_iff, Bool.and_eq_false_iff, beq_eq_false_iff_ne]
  by_cases hc : c = '=' <;> simp [hc]

/-- Characters stay a word in front of `rest` exactly if they are one and end there. -/
theorem word_append_eq_iff {w rest : List Char} : word (w ++ rest) = w ↔ word w = w ∧ Ends w rest := by
  induction w with
  | nil => exact ⟨fun h => ⟨rfl, h, by simp⟩, fun ⟨_, h⟩ => h.stop⟩
  | cons c w ih =>
    rw [List.cons_append, word_cons_eq_iff, word_cons_eq_iff, ih, startsSeparator_eq_false_iff,
      startsSeparator_eq_false_iff]
    cases w with
    | nil =>
      constructor
      · rintro ⟨hb, ⟨hm, he⟩, hw, hs, -⟩
        exact ⟨⟨hb, ⟨hm, by simp⟩, hw⟩, hs, fun h => he (by simpa using h)⟩
      · rintro ⟨⟨hb, ⟨hm, -⟩, hw⟩, hs, he⟩
        exact ⟨hb, ⟨hm, fun h => he (by simp [h])⟩, hw, hs, by simp⟩
    | cons d w =>
      constructor
      · rintro ⟨hb, hs, hw, he, ha⟩
        exact ⟨⟨hb, hs, hw⟩, he, by rwa [List.getLast?_cons_cons]⟩
      · rintro ⟨⟨hb, hs, hw⟩, he, ha⟩
        exact ⟨hb, hs, hw, he, by rwa [List.getLast?_cons_cons] at ha⟩

theorem isBlank_of_isMark {c : Char} (h : isMark c) : Text.isBlank c = false := by
  simp only [isMark, Bool.or_eq_true, beq_iff_eq] at h
  rcases h with (((((rfl | rfl) | rfl) | rfl) | rfl) | rfl) | rfl <;> rfl

theorem IsSeparator.ne_nil {w : List Char} (h : IsSeparator w) : w ≠ [] := by
  cases h <;> exact List.cons_ne_nil _ _

theorem ne_nil_of_isSeparator_or_isWord {w : List Char} (h : IsSeparator w ∨ IsWord w) : w ≠ [] :=
  h.elim IsSeparator.ne_nil And.left

/-! ## Cutting as a relation -/

/-- **Cutting.** The lexemes of a text whose first character stands at a byte offset. -/
inductive Cuts : Nat → List Char → List Lexeme → Prop
  | nil {n : Nat} : Cuts n [] []
  | blank {n : Nat} {c : Char} {cs : List Char} {ls : List Lexeme} :
      Text.isBlank c → Cuts (n + c.utf8Size) cs ls → Cuts n (c :: cs) ls
  | separator {n : Nat} {w cs : List Char} {ls : List Lexeme} :
      IsSeparator w → Cuts (n + width w) cs ls → Cuts n (w ++ cs) (⟨w, n⟩ :: ls)
  | word {n : Nat} {w cs : List Char} {ls : List Lexeme} :
      IsWord w → Ends w cs → Cuts (n + width w) cs ls → Cuts n (w ++ cs) (⟨w, n⟩ :: ls)

/-- What stands at the front of a text that does not start with a blank. -/
theorem first_cases {c : Char} (hc : Text.isBlank c = false) (cs : List Char) :
    ∃ tail rest, first c cs = c :: tail ∧ cs = tail ++ rest ∧
      (IsSeparator (c :: tail) ∨ IsWord (c :: tail) ∧ Ends (c :: tail) rest) := by
  obtain ⟨tail, h, rest, rfl⟩ := first_isPrefix c cs
  refine ⟨tail, rest, h, rfl, ?_⟩
  unfold first at h
  split at h
  · rename_i hm
    cases h
    exact .inl (.mark hm)
  · split at h
    · rename_i hm hs
      simp only [startsSeparator, hm, Bool.false_or, Bool.and_eq_true, beq_iff_eq] at hs
      cases h
      rw [hs.1]
      exact .inl .equal
    · rename_i hs
      have hw : word (c :: tail ++ rest) = c :: tail :=
        word_cons_eq_iff.mpr ⟨hc, Bool.eq_false_iff.mpr hs, (List.cons.inj h).2⟩
      obtain ⟨hw, he⟩ := word_append_eq_iff.mp hw
      exact .inr ⟨⟨List.cons_ne_nil _ _, hw⟩, he⟩

theorem split_nil (n : Nat) : split n [] = [] := by
  rw [split.eq_def]

theorem split_cons (n : Nat) (c : Char) (cs : List Char) :
    split n (c :: cs) = if Text.isBlank c then split (n + c.utf8Size) cs
      else ⟨first c cs, n⟩ :: split (n + width (first c cs)) (cs.drop ((first c cs).length - 1)) := by
  rw [split.eq_def]

theorem cuts_split (n : Nat) (cs : List Char) : Cuts n cs (split n cs) := by
  fun_induction split n cs with
  | case1 => exact .nil
  | case2 n c cs hc ih => exact .blank hc ih
  | case3 n c cs hc text ih =>
    obtain ⟨tail, rest, h, rfl, hw⟩ := first_cases (Bool.eq_false_iff.mpr hc) cs
    have ht : text = c :: tail := h
    simp only [ht, List.length_cons, Nat.add_sub_cancel, List.drop_left] at ih ⊢
    obtain hs | ⟨hw, he⟩ := hw
    · exact .separator hs ih
    · exact .word hw he ih

theorem first_of_isSeparator {c : Char} {tail : List Char} (h : IsSeparator (c :: tail)) (cs : List Char) :
    first c (tail ++ cs) = c :: tail := by
  cases h with
  | mark hm => simp [first, hm]
  | equal => rfl

theorem first_of_isWord {c : Char} {tail cs : List Char} (hw : IsWord (c :: tail)) (he : Ends (c :: tail) cs) :
    first c (tail ++ cs) = c :: tail := by
  have h : word (c :: (tail ++ cs)) = c :: tail := word_append_eq_iff.mpr ⟨hw.2, he⟩
  obtain ⟨hb, hs, h⟩ := word_cons_eq_iff.mp h
  obtain ⟨hm, -⟩ := startsSeparator_eq_false_iff.mp hs
  rw [first, hm, hs, h]
  rfl

/-- A lexeme at the front is cut off. -/
theorem split_of_first {n : Nat} {c : Char} {tail cs : List Char} (hc : Text.isBlank c = false)
    (h : first c (tail ++ cs) = c :: tail) :
    split n (c :: tail ++ cs) = ⟨c :: tail, n⟩ :: split (n + width (c :: tail)) cs := by
  rw [List.cons_append, split_cons, hc, h]
  simp

theorem isBlank_of_isSeparator {c : Char} {tail : List Char} (h : IsSeparator (c :: tail)) :
    Text.isBlank c = false := by
  cases h with
  | mark hm => exact isBlank_of_isMark hm
  | equal => rfl

theorem Cuts.split_eq {n : Nat} {cs : List Char} {ls : List Lexeme} (h : Cuts n cs ls) : split n cs = ls := by
  induction h with
  | nil => exact split_nil _
  | blank hc _ ih => rw [split_cons, if_pos hc, ih]
  | @separator n w cs ls hw _ ih =>
    obtain ⟨c, tail, rfl⟩ := List.exists_cons_of_ne_nil hw.ne_nil
    rw [split_of_first (isBlank_of_isSeparator hw) (first_of_isSeparator hw cs), ih]
  | @word n w cs ls hw he _ ih =>
    obtain ⟨c, tail, rfl⟩ := List.exists_cons_of_ne_nil hw.1
    rw [split_of_first (word_cons_eq_iff.mp hw.2).1 (first_of_isWord hw he), ih]

/-- The relation is the graph of the function. -/
theorem split_eq_iff {n : Nat} {cs : List Char} {ls : List Lexeme} : split n cs = ls ↔ Cuts n cs ls :=
  ⟨fun h => h ▸ cuts_split n cs, Cuts.split_eq⟩

/-- Every lexeme is a separator or a word. -/
theorem Cuts.isSeparator_or_isWord {n : Nat} {cs : List Char} {ls : List Lexeme} (h : Cuts n cs ls) :
    ∀ l ∈ ls, IsSeparator l.text ∨ IsWord l.text := by
  induction h with
  | nil => exact fun l hl => absurd hl List.not_mem_nil
  | blank _ _ ih => exact ih
  | separator hw _ ih => exact List.forall_mem_cons.mpr ⟨.inl hw, ih⟩
  | word hw _ _ ih => exact List.forall_mem_cons.mpr ⟨.inr hw, ih⟩

/-- A separator or a word by itself is one lexeme. -/
theorem split_single {w : List Char} (hw : IsSeparator w ∨ IsWord w) (n : Nat) : split n w = [⟨w, n⟩] := by
  have h : Cuts n (w ++ []) [⟨w, n⟩] := by
    obtain hw | hw := hw
    · exact .separator hw .nil
    · exact .word hw ⟨rfl, fun _ h => by cases h⟩ .nil
  rw [List.append_nil] at h
  exact h.split_eq

/-- There is no lexeme in blanks, so they can stand in front of any text. -/
theorem Cuts.blanks_append {w : List Char} (hw : ∀ c ∈ w, Text.isBlank c = true) {n : Nat} {cs : List Char}
    {ls : List Lexeme} (h : Cuts (n + width w) cs ls) : Cuts n (w ++ cs) ls := by
  induction w generalizing n with
  | nil => exact h
  | cons c w ih =>
    obtain ⟨hc, hw⟩ := List.forall_mem_cons.mp hw
    rw [width, ← Nat.add_assoc] at h
    exact .blank hc (ih hw h)

theorem split_blanks {w : List Char} (hw : ∀ c ∈ w, Text.isBlank c = true) (n : Nat) : split n w = [] := by
  have h : Cuts n (w ++ []) [] := .blanks_append hw .nil
  rw [List.append_nil] at h
  exact h.split_eq

/-! ## Moving and joining texts -/

theorem width_append (a b : List Char) : width (a ++ b) = width a + width b := by
  induction a with
  | nil => rw [List.nil_append, width, Nat.zero_add]
  | cons c a ih => rw [List.cons_append, width, width, ih, Nat.add_assoc]

theorem Cuts.shift {n : Nat} {cs : List Char} {ls : List Lexeme} (h : Cuts n cs ls) (d : Nat) :
    Cuts (n + d) cs (ls.map fun l => ⟨l.text, l.start + d⟩) := by
  induction h with
  | nil => exact .nil
  | blank hc _ ih => exact .blank hc (by rwa [Nat.add_right_comm])
  | separator hw _ ih => exact .separator hw (by rwa [Nat.add_right_comm])
  | word hw he _ ih => exact .word hw he (by rwa [Nat.add_right_comm])

/-- Lexemes move with the text. -/
theorem split_add (n d : Nat) (cs : List Char) :
    split (n + d) cs = (split n cs).map fun l => ⟨l.text, l.start + d⟩ :=
  ((cuts_split n cs).shift d).split_eq

/-- A character at which no word goes on. -/
def isBreak (c : Char) : Bool :=
  Text.isBlank c || isMark c

theorem isBreak_of_isBlank {c : Char} (h : Text.isBlank c = true) : isBreak c = true :=
  (Bool.or_eq_true _ _).mpr (.inl h)

theorem isBreak_of_isMark {c : Char} (h : isMark c = true) : isBreak c = true :=
  (Bool.or_eq_true _ _).mpr (.inr h)

/-- No word reaches over the seam of two texts, as a blank or a mark stands there, or one of the texts is empty. -/
def Parted (a b : List Char) : Prop :=
  a.getLast?.all isBreak ∨ b.head?.all isBreak

instance (a b : List Char) : Decidable (Parted a b) :=
  inferInstanceAs (Decidable (_ ∨ _))

theorem Parted.of_append {u a b : List Char} (h : Parted (u ++ a) b) : Parted a b := by
  refine h.imp_left fun h => ?_
  cases a with
  | nil => rfl
  | cons c a => simpa only [List.getLast?_append, List.getLast?_cons, Option.some_or] using h

theorem isBreak_of_word {w : List Char} (hw : word w = w) {c : Char} (hc : c ∈ w) : isBreak c = false := by
  induction w with
  | nil => exact absurd hc List.not_mem_nil
  | cons d w ih =>
    obtain ⟨hb, hs, hw⟩ := word_cons_eq_iff.mp hw
    cases hc with
    | head => rw [isBreak, hb, (startsSeparator_eq_false_iff.mp hs).1]; rfl
    | tail _ hc => exact ih hw hc

theorem IsWord.not_mem {w : List Char} {c : Char} (hw : IsWord w) (hc : isBreak c = true) : c ∉ w := by
  intro hm
  rw [isBreak_of_word hw.2 hm] at hc
  nomatch hc

/-- Characters at which a word goes on belong to it wherever they stand, if none of them is `=`. -/
theorem word_append {w : List Char} (h : ∀ c ∈ w, isBreak c = false ∧ c ≠ '=') (cs : List Char) :
    word (w ++ cs) = w ++ word cs := by
  induction w with
  | nil => rfl
  | cons c w ih =>
    obtain ⟨⟨hb, he⟩, hw⟩ := List.forall_mem_cons.mp h
    simp only [isBreak, Bool.or_eq_false_iff] at hb
    exact word_cons_eq_iff.mpr ⟨hb.1, startsSeparator_eq_false_iff.mpr ⟨hb.2, fun h => absurd h he⟩, ih hw⟩

theorem isWord_of_forall {w : List Char} (hne : w ≠ []) (h : ∀ c ∈ w, isBreak c = false ∧ c ≠ '=') : IsWord w := by
  refine ⟨hne, ?_⟩
  have hw := word_append h []
  rwa [List.append_nil, word, List.append_nil] at hw

/-- The printable characters of ASCII are no breaks, the marks aside. -/
theorem isBreak_of_toNat {c : Char} (h : 32 < c.toNat ∧ c.toNat < 127)
    (hm : c.toNat ∉ [40, 41, 42, 44, 59, 60, 62]) : isBreak c = false := by
  have hb : Text.isBlank c = false := by
    simp only [Text.isBlank, Bool.or_eq_false_iff, Bool.and_eq_false_iff, decide_eq_false_iff_not, beq_eq_false_iff_ne]
    omega
  have hmark : isMark c = false := by
    refine Bool.eq_false_iff.mpr fun hc => ?_
    simp only [isMark, Bool.or_eq_true, beq_iff_eq] at hc
    rcases hc with (((((rfl | rfl) | rfl) | rfl) | rfl) | rfl) | rfl <;> exact hm (by decide)
  rw [isBreak, hb, hmark]
  rfl

/-- A word ends where a blank or a mark stands. -/
theorem ends_of_isBreak {w b : List Char} (h : b.head?.all isBreak) : Ends w b := by
  cases b with
  | nil => exact ⟨rfl, fun _ h => by cases h⟩
  | cons c b =>
    have hc : isBreak c := h
    constructor
    · rw [word, if_pos]
      simp only [isBreak, Bool.or_eq_true] at hc
      simp only [startsSeparator, Bool.or_eq_true]
      exact hc.imp_right .inl
    · rintro - h
      cases h
      cases hc

/-- A word that ends before some text ends there whatever follows the text. -/
theorem Ends.append {w cs : List Char} (h : Ends w cs) (hcs : cs ≠ []) (b : List Char) : Ends w (cs ++ b) := by
  obtain ⟨c, cs, rfl⟩ := List.exists_cons_of_ne_nil hcs
  refine ⟨?_, h.apart⟩
  have hs := h.stop
  rw [word] at hs
  split at hs
  · rename_i hc
    rw [List.cons_append, word, if_pos]
    simp only [startsSeparator, Bool.or_eq_true, Bool.and_eq_true] at hc ⊢
    refine hc.imp_right fun hc => hc.imp_right fun hc => ⟨hc.1, ?_⟩
    cases cs with
    | nil => cases hc.2
    | cons d cs => exact hc.2
  · cases hs

theorem Cuts.append {n : Nat} {a b : List Char} {ls ms : List Lexeme} (h : Cuts n a ls) (hab : Parted a b)
    (hb : Cuts (n + width a) b ms) : Cuts n (a ++ b) (ls ++ ms) := by
  induction h with
  | nil => exact hb
  | @blank n c cs ls hc _ ih =>
    refine .blank hc (ih (hab.of_append (u := [c])) ?_)
    rwa [Nat.add_assoc]
  | @separator n w cs ls hw _ ih =>
    rw [width_append, ← Nat.add_assoc] at hb
    rw [List.append_assoc]
    exact .separator hw (ih hab.of_append hb)
  | @word n w cs ls hw he _ ih =>
    rw [width_append, ← Nat.add_assoc] at hb
    rw [List.append_assoc]
    refine .word hw ?_ (ih hab.of_append hb)
    by_cases hcs : cs = []
    · -- the first text ends with this word, which holds no break
      subst hcs
      rw [List.append_nil] at hab
      refine ends_of_isBreak (hab.resolve_left fun hl => ?_)
      rw [List.getLast?_eq_some_getLast hw.1] at hl
      have := isBreak_of_word hw.2 (List.getLast_mem hw.1)
      rw [Option.all_some, this] at hl
      cases hl
    · exact he.append hcs b

/-- **Joining texts.** Two texts with a blank or a mark at the seam are cut each on its own. -/
theorem split_append {a b : List Char} (h : Parted a b) (n : Nat) :
    split n (a ++ b) = split n a ++ split (n + width a) b :=
  ((cuts_split n a).append h (cuts_split _ b)).split_eq

end Tabular.Lexeme
