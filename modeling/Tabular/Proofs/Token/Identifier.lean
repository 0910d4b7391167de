import Tabular.Proofs.Text.Integer
import Tabular.Proofs.Token.Faithful

/-!
# Identifiers and numbers by their characters

A word is a text without blanks and without separators (`Lexeme.isWord_iff`). So an identifier is faithful exactly if
it is a word that spells neither a number nor, in any case, a reserved word (`Token.faithful_identifier_iff`), and the
spelling of a number is always faithful (`Token.faithful_number`).
-/

namespace Tabular

/-! ## Words -/

namespace Lexeme

/-- A separator starts a text exactly if one stands at its front. -/
theorem startsSeparator_iff {cs : List Char} : startsSeparator cs = true ↔ ∃ w, IsSeparator w ∧ w <+: cs := by
  constructor
  · intro h
    cases cs with
    | nil => cases h
    | cons c cs =>
      simp only [startsSeparator, Bool.or_eq_true, Bool.and_eq_true, beq_iff_eq] at h
      rcases h with hm | ⟨rfl, hd⟩
      · exact ⟨[c], .mark hm, cs, rfl⟩
      · obtain ⟨rest, rfl⟩ := List.head?_eq_some_iff.mp hd
        exact ⟨['=', '='], .equal, rest, rfl⟩
  · rintro ⟨w, hw, rest, rfl⟩
    cases hw with
    | mark hm => simp [startsSeparator, hm]
    | equal => simp [startsSeparator]

theorem word_eq_self_iff {w : List Char} :
    word w = w ↔ (∀ c ∈ w, Text.isBlank c = false) ∧ ∀ sep, IsSeparator sep → ¬ sep <:+: w := by
  induction w with
  | nil =>
    have h : ∀ sep, IsSeparator sep → ¬ sep <:+: [] := by
      intro sep hs hi
      exact hs.ne_nil (List.infix_nil.mp hi)
    simpa [word] using h
  | cons c w ih =>
    have hs : startsSeparator (c :: w) = false ↔ ∀ sep, IsSeparator sep → ¬ sep <+: c :: w := by
      rw [← Bool.not_eq_true, startsSeparator_iff]
      simp only [not_exists, not_and]
    rw [word_cons_eq_iff, ih, hs]
    simp only [List.forall_mem_cons, List.infix_cons_iff, not_or]
    constructor
    · rintro ⟨hb, hp, hw, hi⟩
      exact ⟨⟨hb, hw⟩, fun sep h => ⟨hp sep h, hi sep h⟩⟩
    · rintro ⟨⟨hb, hw⟩, hi⟩
      exact ⟨hb, fun sep h => (hi sep h).1, hw, fun sep h => (hi sep h).2⟩

/-- A word has at least one character, no blank and no separator. -/
theorem isWord_iff {w : List Char} :
    IsWord w ↔ w ≠ [] ∧ (∀ c ∈ w, Text.isBlank c = false) ∧ ∀ sep, IsSeparator sep → ¬ sep <:+: w :=
  and_congr_right' word_eq_self_iff

theorem IsWord.not_isSeparator {w : List Char} (h : IsWord w) : ¬ IsSeparator w :=
  fun hs => (isWord_iff.mp h).2.2 w hs (List.infix_refl w)

end Lexeme

/-! ## Identifiers -/

/-- An identifier by its characters: a word that is no number and, whatever its case, no reserved word. -/
structure Text.IsIdentifier (text : String) : Prop where
  ne_nil : text.toList ≠ []
  blanks : ∀ c ∈ text.toList, Text.isBlank c = false
  separators : ∀ sep, Lexeme.IsSeparator sep → ¬ sep <:+: text.toList
  number : Text.readInteger? text = none
  reserved : ∀ kind : TokenKind, kind ≠ .symbol → Text.lowercase text ∉ kind.reserved

theorem Text.IsIdentifier.isWord {text : String} (h : Text.IsIdentifier text) : Lexeme.IsWord text.toList :=
  Lexeme.isWord_iff.mpr ⟨h.ne_nil, h.blanks, h.separators⟩

namespace Token

open Lexeme

theorem recognize_eq_identifier_iff {text : String} : recognize text = (text, .identifier) ↔
    Text.readInteger? text = none ∧ text ∉ TokenKind.symbol.reserved ∧
      ∀ kind : TokenKind, kind ≠ .symbol → Text.lowercase text ∉ kind.reserved := by
  simp only [recognize, TokenKind.reserves, List.contains_iff_mem]
  constructor
  · intro h
    split at h
    · simp at h
    rename_i hn
    split at h
    · simp at h
    rename_i hd
    split at h
    · simp at h
    rename_i hk
    split at h
    · simp at h
    rename_i hs
    split at h
    · simp at h
    rename_i he
    refine ⟨by simpa using hn, hs, fun kind hkind => ?_⟩
    cases kind with
    | number | identifier => exact List.not_mem_nil
    | keyword => exact hk
    | symbol => exact absurd rfl hkind
    | datatype => exact hd
    | engine => exact he
  · rintro ⟨hn, hs, hr⟩
    rw [hn, if_neg (by simp), if_neg (hr .datatype (by decide)), if_neg (hr .keyword (by decide)), if_neg hs,
      if_neg (hr .engine (by decide))]

/-- The symbols are the separators. -/
theorem isSeparator_of_mem_reserved : ∀ w ∈ TokenKind.symbol.reserved, IsSeparator w.toList := by
  decide

theorem mem_reserved_of_isSeparator {w : List Char} (h : IsSeparator w) :
    String.ofList w ∈ TokenKind.symbol.reserved := by
  cases h with
  | mark hm =>
    simp only [isMark, Bool.or_eq_true, beq_iff_eq] at hm
    rcases hm with (((((rfl | rfl) | rfl) | rfl) | rfl) | rfl) | rfl <;> decide
  | equal => decide

/-- **Faithful identifiers.** -/
theorem faithful_identifier_iff {text : String} : (fresh text .identifier).Faithful ↔ Text.IsIdentifier text := by
  constructor
  · intro h
    obtain ⟨hn, hs, hres⟩ := recognize_eq_identifier_iff.mp h.recognize_eq
    -- an identifier is a lexeme, and no separator is one
    have hw : IsWord text.toList := by
      refine h.reading.1.resolve_left fun hsep => hs ?_
      have hmem := mem_reserved_of_isSeparator hsep
      rwa [String.ofList_toList] at hmem
    obtain ⟨hne, hb, hsep⟩ := isWord_iff.mp hw
    exact ⟨hne, hb, hsep, hn, hres⟩
  · intro h
    have hs : text ∉ TokenKind.symbol.reserved :=
      fun hm => h.isWord.not_isSeparator (isSeparator_of_mem_reserved text hm)
    have hr := recognize_eq_identifier_iff.mpr ⟨h.number, hs, h.reserved⟩
    rw [faithful_iff]
    show readings text.toList = [fresh text .identifier]
    rw [readings_single (.inr h.isWord), reading, String.ofList_toList, hr]
    rfl

/-! ## Numbers -/

theorem isBreak_of_isNumeral {c : Char} (h : Text.IsNumeral c) : isBreak c = false ∧ c ≠ '=' := by
  rcases h with hd | rfl | rfl
  · have hn : 48 ≤ c.toNat ∧ c.toNat ≤ 57 := Char.isDigit_iff_toNat.mp hd
    refine ⟨isBreak_of_toNat (by omega) (by simp; omega), ?_⟩
    rintro rfl
    exact absurd hn (by decide)
  · exact ⟨rfl, by decide⟩
  · exact ⟨rfl, by decide⟩

theorem isWord_of_readInteger? {text : String} {n : Int64} (h : Text.readInteger? text = some n) :
    IsWord text.toList := by
  obtain ⟨hne, hc⟩ := Text.isNumeral_of_readInteger? h
  exact isWord_of_forall hne fun c hm => isBreak_of_isNumeral (hc c hm)

/-- Whatever can be read as a number is one token, and kept as it is spelled. -/
theorem faithful_number {text : String} {n : Int64} (h : Text.readInteger? text = some n) :
    (fresh text .number).Faithful := by
  have hr : recognize text = (text, .number) := by simp [recognize, h]
  rw [faithful_iff]
  show readings text.toList = [fresh text .number]
  rw [readings_single (.inr (isWord_of_readInteger? h)), reading, String.ofList_toList, hr]
  rfl

/-- Only what can be read as a number is recognized as one. -/
theorem readInteger?_of_recognize {fragment : String} (h : (recognize fragment).2 = .number) :
    ∃ n, Text.readInteger? fragment = some n := by
  simp only [recognize] at h
  split at h
  · rename_i hn
    exact Option.isSome_iff_exists.mp hn
  · repeat' split at h
    all_goals cases h

/-- The value of a number can be read as one. -/
theorem Faithful.readInteger? {t : Token} (h : t.Faithful) (hk : t.kind = .number) :
    ∃ n, Text.readInteger? t.value = some n :=
  readInteger?_of_recognize (by rw [h.recognize_eq]; exact hk)

end Token
end Tabular
