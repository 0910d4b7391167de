import Mathlib.Data.List.Forall2
import Tabular.Proofs.Text.Width
import Tabular.Proofs.Token.Identifier
import Tabular.Proofs.Token.Offset

/-!
# Tokens of lowercase text

A text in lower case has the tokens of the text, each with its value in lower case (`Token.readings_lowercase`). It is
cut at the same places (`Lexeme.Cuts.lower`): a word ends at a seam, and seams stay what they are. What a lexeme is does
not depend on its case either (`Token.recognize_lowercase`), as reserved words are found in any case, and numbers and
symbols have none.
-/

namespace Tabular

/-! ## Lexemes -/

namespace Lexeme

open Text

variable {w cs : List Char}

/-- Only the sign `=` becomes the first character `=`. -/
theorem head?_of_lowerFrom {before : Bool} (h : (lowerFrom before cs).head? = some '=') : cs.head? = some '=' := by
  cases cs with
  | nil => nomatch h
  | cons c cs =>
    obtain ⟨d, hd, hhead⟩ := exists_head?_lowerFrom before c cs
    rw [hhead, Option.some.injEq] at h
    rw [h] at hd
    rw [eq_of_mem_lowerAt hd (.inr rfl), List.head?_cons]

/-- Only the sign `=` becomes the last character `=`. -/
theorem getLast?_of_lowerFrom {before : Bool} (h : (lowerFrom before cs).getLast? = some '=') :
    cs.getLast? = some '=' := by
  rcases List.eq_nil_or_concat cs with rfl | ⟨cs, c, rfl⟩
  · nomatch h
  · rw [List.concat_eq_append] at h ⊢
    obtain ⟨before', d, hd, hlast⟩ := exists_getLast?_lowerFrom before cs c
    rw [hlast, Option.some.injEq] at h
    rw [h] at hd
    rw [eq_of_mem_lowerAt hd (.inr rfl), List.getLast?_concat]

/-- A word stays a word in lower case. -/
theorem word_lowerFrom (h : word w = w) (before : Bool) : word (lowerFrom before w) = lowerFrom before w := by
  induction w generalizing before with
  | nil => rfl
  | cons c w ih =>
    obtain ⟨hb, hs, hw⟩ := word_cons_eq_iff.mp h
    obtain ⟨hm, he⟩ := startsSeparator_eq_false_iff.mp hs
    by_cases hc : c = '='
    · subst hc
      have hseam : IsSeam '=' := .inr rfl
      rw [hseam.lowerFrom_cons]
      refine word_cons_eq_iff.mpr ⟨hb, startsSeparator_eq_false_iff.mpr ⟨hm, fun _ hhead => ?_⟩, ih hw false⟩
      exact he rfl (head?_of_lowerFrom hhead)
    · -- what stands for any other character belongs to a word wherever it stands
      have hseam : ¬ IsSeam c := by simp [IsSeam, isBreak, hb, hm, hc]
      have hsmall : ∀ d ∈ lowerAt before c w, isBreak d = false ∧ d ≠ '=' := fun d hd => by
        have hd' : ¬ IsSeam d := fun hs => hseam (eq_of_mem_lowerAt hd hs ▸ hs)
        simpa [IsSeam] using hd'
      rw [lowerFrom_cons, word_append hsmall, ih hw]

theorem IsWord.lower (h : IsWord w) (before : Bool) : IsWord (lowerFrom before w) := by
  refine ⟨?_, word_lowerFrom h.2 before⟩
  obtain ⟨c, w, rfl⟩ := List.exists_cons_of_ne_nil h.1
  rw [lowerFrom_cons]
  exact List.append_ne_nil_of_left_ne_nil lowerAt_ne_nil _

theorem IsSeparator.isSeam (h : IsSeparator w) : ∀ c ∈ w, IsSeam c := by
  cases h with
  | mark hm => exact List.forall_mem_singleton.mpr (.inl (isBreak_of_isMark hm))
  | equal => exact List.forall_mem_cons.mpr ⟨.inr rfl, List.forall_mem_singleton.mpr (.inr rfl)⟩

/-- Where no word goes on stands a seam. -/
theorem isSeam_of_word_eq_nil {c : Char} (h : word (c :: cs) = []) : IsSeam c :=
  (word_eq_nil_iff.mp h).imp_right And.left

/-- Where no word goes on, none goes on in lower case. -/
theorem word_lowerFrom_eq_nil (h : word cs = []) (before : Bool) : word (lowerFrom before cs) = [] := by
  cases cs with
  | nil => rfl
  | cons c cs =>
    rw [(isSeam_of_word_eq_nil h).lowerFrom_cons, word_eq_nil_iff]
    refine (word_eq_nil_iff.mp h).imp_right fun ⟨hc, hhead⟩ => ⟨hc, ?_⟩
    obtain ⟨cs, rfl⟩ := List.head?_eq_some_iff.mp hhead
    have hseam : IsSeam '=' := .inr rfl
    rw [hseam.lowerFrom_cons, List.head?_cons]

theorem casedAhead_of_word_eq_nil (h : word cs = []) : casedAhead cs = false := by
  cases cs with
  | nil => rfl
  | cons c cs => exact (isSeam_of_word_eq_nil h).casedAhead cs

/-- A word ends in lower case where it ended. -/
theorem Ends.lower (h : Ends w cs) (before before' : Bool) : Ends (lowerFrom before w) (lowerFrom before' cs) where
  stop := word_lowerFrom_eq_nil h.stop before'
  apart hlast hhead := h.apart (getLast?_of_lowerFrom hlast) (head?_of_lowerFrom hhead)

/-- `l'` is in lower case what the lexeme `l` is in a text `cs`. The text starts at the byte offset `n`, and in lower
case at `m`. -/
structure Lowers (n m : Nat) (cs : List Char) (l l' : Lexeme) : Prop where
  text : l'.text = lowerFrom false l.text
  /-- In lower case `l'` stands as far behind the start as the text before `l` is wide in lower case. -/
  start : ∃ pre rest, cs = pre ++ rest ∧ l.start = n + width pre ∧ l'.start = m + width (lowerFrom false pre)

/-- A lexeme at the start of a text is one at the start of the text in lower case. -/
theorem Lowers.first {n m : Nat} : Lowers n m cs ⟨w, n⟩ ⟨lowerFrom false w, m⟩ :=
  ⟨rfl, [], cs, rfl, rfl, rfl⟩

/-- The lexemes move by what stands before the text. -/
theorem Lowers.append {n m : Nat} {l l' : Lexeme} (h : Lowers (n + width w) (m + width (lowerFrom false w)) cs l l') :
    Lowers n m (w ++ cs) l l' := by
  obtain ⟨htext, pre, rest, rfl, hl, hl'⟩ := h
  refine ⟨htext, w ++ pre, rest, (List.append_assoc _ _ _).symm, ?_, ?_⟩
  · rw [hl, width_append, Nat.add_assoc]
  · rw [hl', width_lowerFrom_append, Nat.add_assoc]

/-- **Cutting lowercase text.** A text in lower case is cut into the lexemes of the text in lower case. What stands
before the text has no part in that, unless the text starts with a word. -/
theorem Cuts.lower {n : Nat} {ls : List Lexeme} (h : Cuts n cs ls) (before : Bool)
    (hb : before = false ∨ Lexeme.word cs = []) (m : Nat) :
    ∃ ls', Cuts m (lowerFrom before cs) ls' ∧ List.Forall₂ (Lowers n m cs) ls ls' := by
  induction h generalizing before m with
  | nil => exact ⟨[], .nil, .nil⟩
  | @blank n c cs ls hc _ ih =>
    have hseam : IsSeam c := .of_isBlank hc
    have hsame : lowerFrom false [c] = [c] := by rw [hseam.lowerFrom_cons, lowerFrom]
    obtain ⟨ls', hcuts, hls⟩ := ih false (.inl rfl) (m + c.utf8Size)
    rw [hseam.lowerFrom_cons]
    refine ⟨ls', .blank hc hcuts, hls.imp fun l l' hl => ?_⟩
    have hmoved : Lowers (n + width [c]) (m + width (lowerFrom false [c])) cs l l' := by rwa [hsame]
    exact hmoved.append
  | @separator n w cs ls hw _ ih =>
    have hsame : lowerFrom false w = w := by
      have hall := lowerFrom_seams hw.isSeam (fun _ => rfl) []
      rwa [List.append_nil, lowerFrom, List.append_nil] at hall
    obtain ⟨ls', hcuts, hls⟩ := ih false (.inl rfl) (m + width (lowerFrom false w))
    rw [lowerFrom_seams hw.isSeam fun hnil => absurd hnil hw.ne_nil]
    rw [hsame] at hcuts
    refine ⟨⟨lowerFrom false w, m⟩ :: ls', ?_, .cons .first (hls.imp fun _ _ hl => hl.append)⟩
    rw [hsame]
    exact .separator hw hcuts
  | @word n w cs ls hw he _ ih =>
    have hbefore : before = false := by
      refine hb.resolve_right fun hnil => hw.1 ?_
      rwa [word_append_eq_iff.mpr ⟨hw.2, he⟩] at hnil
    subst hbefore
    obtain ⟨ls', hcuts, hls⟩ := ih _ (.inr he.stop) (m + width (lowerFrom false w))
    rw [lowerFrom_append (casedAhead_of_word_eq_nil he.stop)]
    exact ⟨_, .word (hw.lower false) (he.lower _ _) hcuts, .cons .first (hls.imp fun _ _ hl => hl.append)⟩

/-- **The lexemes of lowercase text** are the lexemes of the text in lower case, one for one. -/
theorem lowers_split (cs : List Char) :
    List.Forall₂ (Lowers 0 0 cs) (split 0 cs) (split 0 (lowerFrom false cs)) := by
  obtain ⟨ls', hcuts, hls⟩ := (cuts_split 0 cs).lower false (.inl rfl) 0
  rwa [hcuts.split_eq]

end Lexeme

/-! ## Recognizing -/

namespace Token

open Lexeme Text

theorem isSign_of_isNumeral {c : Char} (h : IsNumeral c) : IsSign c := by
  rcases h with hd | rfl | rfl
  · have hn : 48 ≤ c.toNat ∧ c.toNat ≤ 57 := Char.isDigit_iff_toNat.mp hd
    refine ⟨by omega, ?_⟩
    unfold IsLetter
    omega
  · decide
  · decide

theorem isSign_of_readInteger? {text : String} (h : (readInteger? text).isSome) : ∀ c ∈ text.toList, IsSign c := by
  obtain ⟨n, hn⟩ := Option.isSome_iff_exists.mp h
  exact fun c hc => isSign_of_isNumeral ((isNumeral_of_readInteger? hn).2 c hc)

theorem isSign_of_mem_symbols {text : String} (h : text ∈ TokenKind.symbol.reserved) : ∀ c ∈ text.toList, IsSign c := by
  have hall : ∀ w ∈ TokenKind.symbol.reserved, w.toList.all (fun c => decide (IsSign c)) = true := by decide
  simpa only [List.all_eq_true, decide_eq_true_eq] using hall text h

/-- What a piece of text is does not depend on its case. -/
theorem kind_recognize_lowercase (fragment : String) :
    (recognize (lowercase fragment)).2 = (recognize fragment).2 := by
  have hn : (readInteger? (lowercase fragment)).isSome = (readInteger? fragment).isSome := by
    rw [Bool.eq_iff_iff]
    exact lowercase_iff_of_isSign (fun text h => isSign_of_readInteger? h) fragment
  have hs : TokenKind.symbol.reserves (lowercase fragment) = TokenKind.symbol.reserves fragment := by
    rw [Bool.eq_iff_iff, TokenKind.reserves, TokenKind.reserves, List.contains_iff_mem, List.contains_iff_mem]
    exact lowercase_iff_of_isSign (fun text h => isSign_of_mem_symbols h) fragment
  simp only [recognize, hn, hs, lowercase_lowercase, apply_ite Prod.snd]

/-- **Recognizing lowercase text.** A piece of text in lower case has the value of the piece, in lower case. -/
theorem recognize_lowercase (fragment : String) :
    recognize (lowercase fragment) = (lowercase (recognize fragment).1, (recognize fragment).2) := by
  refine Prod.ext ?_ (kind_recognize_lowercase fragment)
  show (recognize (lowercase fragment)).1 = lowercase (recognize fragment).1
  rw [recognize_value, recognize_value, kind_recognize_lowercase, lowercase_lowercase, ite_self]
  split
  · rw [lowercase_lowercase]
  · rfl

/-- The token of a text in lower case. Identifiers are the only tokens with letters that are kept as they are
written. -/
def lowered (t : Token) : Token :=
  if t.kind = .identifier then { t with value := lowercase t.value } else t

/-- All other tokens stand in lower case. -/
theorem Faithful.lowercase_value {t : Token} (h : t.Faithful) (hk : t.kind ≠ .identifier) :
    lowercase t.value = t.value := by
  cases hkind : t.kind with
  | identifier => exact absurd hkind hk
  | number =>
    obtain ⟨n, hn⟩ := h.readInteger? hkind
    exact lowercase_of_isSign (isSign_of_readInteger? (Option.isSome_iff_exists.mpr ⟨n, hn⟩))
  | symbol =>
    have hmem : t.value ∈ t.kind.reserved := h.mem_reserved (by simp [hkind]) hk
    rw [hkind] at hmem
    exact lowercase_of_isSign (isSign_of_mem_symbols hmem)
  | keyword | datatype | engine => exact h.lowercase_of_isFolded (by rw [hkind]; rfl)

theorem Faithful.lowered_eq {t : Token} (h : t.Faithful) : t.lowered = { t with value := lowercase t.value } := by
  unfold lowered
  split
  · rfl
  · rename_i hk
    rw [h.lowercase_value hk]

theorem reading_lowerFrom {w : List Char} (hw : IsSeparator w ∨ IsWord w) :
    reading (lowerFrom false w) = (reading w).lowered := by
  have hfold : String.ofList (lowerFrom false w) = lowercase (String.ofList w) := by
    rw [lowercase, String.toList_ofList]
  rw [(faithful_reading hw).lowered_eq, reading, hfold, recognize_lowercase]
  rfl

/-- **Tokens of lowercase text.** A text in lower case has the tokens of the text in lower case. -/
theorem readings_lowercase (text : String) :
    readings (lowercase text).toList = (readings text.toList).map lowered := by
  have hsplit : ∀ l ∈ split 0 text.toList, IsSeparator l.text ∨ IsWord l.text :=
    (cuts_split 0 text.toList).isSeparator_or_isWord
  rw [lowercase, String.toList_ofList, readings, readings, List.map_map, eq_comm, ← List.forall₂_eq_eq_eq,
    List.forall₂_map_left_iff, List.forall₂_map_right_iff]
  refine ((List.forall₂_and_left _ _).mpr ⟨hsplit, lowers_split text.toList⟩).imp fun l l' h => ?_
  rw [h.2.text, reading_lowerFrom h.1]
  rfl

/-- Tokens of lowercase text have the kinds of the tokens of the text, and their values in lower case. -/
theorem kinds_and_values_of_lowered {ts us : List Token} (h : us.map unplaced = (ts.map unplaced).map lowered)
    (hts : ∀ t ∈ ts, t.Faithful) :
    us.map (fun u => (u.kind, u.value)) = ts.map fun t => (t.kind, lowercase t.value) :=
  calc us.map (fun u => (u.kind, u.value)) = (us.map unplaced).map fun u => (u.kind, u.value) := by
        rw [List.map_map]
        rfl
    _ = ts.map fun t => (t.unplaced.lowered.kind, t.unplaced.lowered.value) := by
        rw [h, List.map_map, List.map_map]
        rfl
    _ = ts.map fun t => (t.kind, lowercase t.value) := List.map_congr_left fun t ht => by
        rw [(faithful_unplaced.mpr (hts t ht)).lowered_eq]
        rfl

/-- **Places in lowercase text.** In lower case a token stands where the text before it ends in lower case. -/
theorem positions_lowercase (text : String) {ts us : List Token} (hts : ofText text = .ok ts)
    (hus : ofText (lowercase text) = .ok us) :
    List.Forall₂ (fun t u => ∃ before after, text = before ++ after ∧ t.position = before.utf8ByteSize ∧
      u.position = (lowercase before).utf8ByteSize) ts us := by
  rw [ofText_eq, Except.ok.injEq] at hts hus
  rw [← hts, ← hus, List.forall₂_map_left_iff, List.forall₂_map_right_iff, lowercase, String.toList_ofList]
  refine (lowers_split text.toList).imp fun l l' h => ?_
  obtain ⟨pre, rest, htext, hl, hl'⟩ := h.start
  rw [Nat.zero_add] at hl hl'
  refine ⟨String.ofList pre, String.ofList rest, ?_, ?_, ?_⟩
  · rw [← String.ofList_append, ← htext, String.ofList_toList]
  · rw [← width_eq_utf8ByteSize]
    exact hl
  · rw [lowercase, String.toList_ofList, ← width_eq_utf8ByteSize]
    exact hl'

end Token
end Tabular
