import Mathlib.Data.List.Chain
import Tabular.Proofs.Token.Identifier
import Tabular.Proofs.Token.Offset

/-!
# Layouts

A list of tokens is written as a text by putting blanks in front of it, between the tokens and behind it. Blanks can be
left away between two tokens if one of them is a symbol, but not between a word that ends in `=` and the sign `==`
(`Token.MayTouch`): the three signs would be cut after the second one. However the tokens are written, they are what is
read from the text, each at the byte offset where it was written (`Token.ofText_layout`). The blanks of a layout are
passed over, a symbol is a lexeme wherever it stands, and what may touch a word ends it (`MayTouch.ends`).
-/

namespace Tabular.Token

open Lexeme

/-! ## Faithful tokens and their lexemes -/

section Faithful

variable {t : Token}

/-- A faithful token is a symbol exactly if it is written as a separator. -/
theorem Faithful.kind_eq_symbol_iff (h : t.Faithful) : t.kind = .symbol ↔ IsSeparator t.value.toList := by
  constructor
  · intro hk
    have hres : t.value ∈ t.kind.reserved := h.mem_reserved (by simp [hk]) (by simp [hk])
    rw [hk] at hres
    exact isSeparator_of_mem_reserved t.value hres
  · intro hs
    have hres := mem_reserved_of_isSeparator hs
    have hkind : (Token.reading t.value.toList).kind = .symbol := by
      rw [Token.reading, (recognize_of_reserves .symbol _ hres).2]
    rw [h.reading.2] at hkind
    exact hkind

/-- The lexeme of a faithful token is read as the token, where it stands. -/
theorem Faithful.located (h : t.Faithful) : Token.located ⟨t.value.toList, t.position⟩ = t := by
  rw [Token.located, h.reading.2]
  rfl

end Faithful

/-! ## Layouts -/

/-- No blank is needed between the two tokens. -/
def MayTouch (t u : Token) : Prop :=
  (t.kind = .symbol ∨ u.kind = .symbol) ∧
    ¬ (t.kind ≠ .symbol ∧ t.value.toList.getLast? = some '=' ∧ u.value = "==")

instance (t u : Token) : Decidable (MayTouch t u) :=
  inferInstanceAs (Decidable (_ ∧ _))

/-- A text of blanks, which may be empty. -/
def IsGap (gap : String) : Prop :=
  ∀ c ∈ gap.toList, Text.isBlank c = true

instance (gap : String) : Decidable (IsGap gap) :=
  decidable_of_iff (gap.toList.all Text.isBlank = true) List.all_eq_true

/-- The text that the tokens make, each with the gap behind it. -/
def layout : List (Token × String) → String
  | [] => ""
  | (t, gap) :: rest => t.value ++ gap ++ layout rest

/-- The tokens of a layout, each at the byte offset where it stands if the first one is at `start`. -/
def placed (start : Nat) : List (Token × String) → List Token
  | [] => []
  | (t, gap) :: rest =>
    { t with position := start } :: placed (start + t.value.utf8ByteSize + gap.utf8ByteSize) rest

/-- Faithful tokens with blanks between them, and nothing between two of them only if they may touch. -/
structure IsLayout (pieces : List (Token × String)) : Prop where
  tokens : ∀ p ∈ pieces, p.1.Faithful
  gaps : ∀ p ∈ pieces, IsGap p.2
  apart : pieces.IsChain fun p q => p.2 = "" → p.1.MayTouch q.1

section Layouts

variable {t u : Token} {gap : String} {pieces : List (Token × String)}

theorem IsLayout.tail {p : Token × String} (h : IsLayout (p :: pieces)) : IsLayout pieces where
  tokens := (List.forall_mem_cons.mp h.tokens).2
  gaps := (List.forall_mem_cons.mp h.gaps).2
  apart := h.apart.tail

/-- A word ends before a token that may touch it. -/
theorem MayTouch.ends (h : t.MayTouch u) (ht : t.Faithful) (hu : u.Faithful) (hw : IsWord t.value.toList)
    (rest : List Char) : Ends t.value.toList (u.value.toList ++ rest) := by
  have hword : t.kind ≠ .symbol := fun hk => hw.not_isSeparator (ht.kind_eq_symbol_iff.mp hk)
  have hsep : IsSeparator u.value.toList := hu.kind_eq_symbol_iff.mp (h.1.resolve_left hword)
  generalize hv : u.value.toList = v at hsep
  cases hsep with
  | mark hm => exact ends_of_isBreak (isBreak_of_isMark hm)
  | equal =>
    have hequal : u.value = "==" := String.toList_inj.mp hv
    refine ⟨by simp [word, startsSeparator], fun hlast => ?_⟩
    exact absurd ⟨hword, hlast, hequal⟩ h.2

/-- A word ends where a gap begins, or behind an empty gap the next token. -/
theorem IsLayout.ends (h : IsLayout ((t, gap) :: pieces)) (hw : IsWord t.value.toList) :
    Ends t.value.toList (gap.toList ++ (layout pieces).toList) := by
  obtain ⟨ht, -⟩ := List.forall_mem_cons.mp h.tokens
  obtain ⟨hgap, -⟩ := List.forall_mem_cons.mp h.gaps
  by_cases hempty : gap = ""
  · subst hempty
    cases pieces with
    | nil => exact ⟨rfl, fun _ hhead => by cases hhead⟩
    | cons q pieces =>
      have htouch : t.MayTouch q.1 := h.apart.rel rfl
      have hq : q.1.Faithful := (List.forall_mem_cons.mp h.tail.tokens).1
      have htext : (layout (q :: pieces)).toList = q.1.value.toList ++ (q.2.toList ++ (layout pieces).toList) := by
        rw [layout, String.toList_append, String.toList_append, List.append_assoc]
      rw [htext]
      exact htouch.ends ht hq hw _
  · obtain ⟨c, cs, hcs⟩ := List.exists_cons_of_ne_nil (mt String.toList_eq_nil_iff.mp hempty)
    have hc : isBreak c = true := isBreak_of_isBlank (hgap c (hcs ▸ List.mem_cons_self))
    rw [hcs]
    exact ends_of_isBreak hc

/-- A layout is cut into the lexemes of its tokens, where these stand. -/
theorem cuts_layout (h : IsLayout pieces) (n : Nat) :
    Cuts n (layout pieces).toList ((placed n pieces).map fun t => ⟨t.value.toList, t.position⟩) := by
  induction pieces generalizing n with
  | nil => exact .nil
  | cons p pieces ih =>
    obtain ⟨t, gap⟩ := p
    obtain ⟨ht, -⟩ := List.forall_mem_cons.mp h.tokens
    obtain ⟨hgap, -⟩ := List.forall_mem_cons.mp h.gaps
    have hrest : Cuts (n + width t.value.toList) (gap.toList ++ (layout pieces).toList)
        ((placed (n + t.value.utf8ByteSize + gap.utf8ByteSize) pieces).map fun t => ⟨t.value.toList, t.position⟩) := by
      refine .blanks_append hgap ?_
      rw [width_toList, width_toList]
      exact ih h.tail _
    have htext : (layout ((t, gap) :: pieces)).toList = t.value.toList ++ (gap.toList ++ (layout pieces).toList) := by
      rw [layout, String.toList_append, String.toList_append, List.append_assoc]
    rw [htext]
    obtain hs | hw := ht.reading.1
    · exact .separator hs hrest
    · exact .word hw (h.ends hw) hrest

/-- The tokens of a layout stay faithful where they are placed. -/
theorem faithful_placed (h : ∀ p ∈ pieces, p.1.Faithful) (n : Nat) : ∀ t ∈ placed n pieces, t.Faithful := by
  induction pieces generalizing n with
  | nil => exact List.forall_mem_nil _
  | cons p pieces ih =>
    obtain ⟨hp, hrest⟩ := List.forall_mem_cons.mp h
    exact List.forall_mem_cons.mpr ⟨hp.congr rfl, ih hrest _⟩

end Layouts

/-- The token moved by a number of bytes. -/
def shifted (d : Nat) (t : Token) : Token :=
  { t with position := t.position + d }

/-- A text with blanks in the middle is cut on either side of these. -/
theorem split_append_gap {w : List Char} (hne : w ≠ []) (hw : ∀ c ∈ w, Text.isBlank c = true) (a b : List Char) :
    split 0 (a ++ w ++ b) = split 0 a ++ split (width (a ++ w)) b := by
  have hbreak : ∀ c ∈ w, isBreak c = true := fun c hc => isBreak_of_isBlank (hw c hc)
  have hfront : Parted a (w ++ b) := by
    obtain ⟨c, w, rfl⟩ := List.exists_cons_of_ne_nil hne
    exact .inr (hbreak c List.mem_cons_self)
  have hback : Parted w b := by
    refine .inl ?_
    rw [List.getLast?_eq_some_getLast hne]
    exact hbreak _ (List.getLast_mem hne)
  rw [List.append_assoc, split_append hfront, split_append hback, split_blanks hw, List.nil_append, width_append,
    Nat.zero_add]

theorem ofText_append_gap {gap : String} (hne : gap ≠ "") (hgap : IsGap gap) (a b : String) :
    ∃ ts us, ofText a = .ok ts ∧ ofText b = .ok us ∧
      ofText (a ++ gap ++ b) = .ok (ts ++ us.map (shifted (a ++ gap).utf8ByteSize)) := by
  refine ⟨_, _, ofText_eq a, ofText_eq b, ?_⟩
  have hchars : gap.toList ≠ [] := mt String.toList_eq_nil_iff.mp hne
  have hwidth : width (a.toList ++ gap.toList) = (a ++ gap).utf8ByteSize := by
    rw [← String.toList_append, width_toList]
  have hmoved : split (a ++ gap).utf8ByteSize b.toList =
      (split 0 b.toList).map fun l => ⟨l.text, l.start + (a ++ gap).utf8ByteSize⟩ := by
    rw [← split_add, Nat.zero_add]
  rw [ofText_eq, String.toList_append, String.toList_append, split_append_gap hchars hgap, hwidth, hmoved,
    List.map_append, List.map_map, List.map_map]
  rfl

/-- **Layout does not matter.** However faithful tokens are written, they are what is read, each where it was written;
and texts with blanks between them have the tokens of the one and then, moved, those of the other. -/
theorem ofText_layout :
    (∀ lead pieces, IsGap lead → IsLayout pieces →
      ofText (lead ++ layout pieces) = .ok (placed lead.utf8ByteSize pieces)) ∧
    ∀ a gap b, gap ≠ "" → IsGap gap → ∃ ts us, ofText a = .ok ts ∧ ofText b = .ok us ∧
      ofText (a ++ gap ++ b) = .ok (ts ++ us.map (shifted (a ++ gap).utf8ByteSize)) := by
  refine ⟨fun lead pieces hlead h => ?_, fun a gap b hne hgap => ofText_append_gap hne hgap a b⟩
  have hcuts : Cuts 0 (lead ++ layout pieces).toList
      ((placed lead.utf8ByteSize pieces).map fun t => ⟨t.value.toList, t.position⟩) := by
    rw [String.toList_append]
    refine .blanks_append hlead ?_
    rw [width_toList, Nat.zero_add]
    exact cuts_layout h _
  have hplaced : ∀ t ∈ placed lead.utf8ByteSize pieces, located ⟨t.value.toList, t.position⟩ = t := fun t ht =>
    (faithful_placed h.tokens _ t ht).located
  rw [ofText_eq, hcuts.split_eq, List.map_map]
  exact congrArg _ ((List.map_congr_left hplaced).trans (List.map_id _))

/-- A name that ends in `=` needs a blank in front of `==`, and the name behind the sign needs none. -/
theorem ofText_layout_equals :
    let a := fresh "a=" .identifier
    let equal := fresh "==" .symbol
    let b := fresh "=b" .identifier
    let pieces := [(a, " "), (equal, ""), (b, "\n")]
    IsGap "\t" ∧ IsLayout pieces ∧
      ofText "\ta= ===b\n" = .ok [{ a with position := 1 }, { equal with position := 4 }, { b with position := 6 }] ∧
      ofText "=\u00a0=" = .ok [fresh "=" .identifier, { fresh "=" .identifier with position := 3 }] := by
  intro a equal b pieces
  have hlead : IsGap "\t" := by decide
  have hpieces : IsLayout pieces := by
    refine ⟨?_, by decide, ?_⟩
    · simp only [pieces, List.forall_mem_cons]
      exact ⟨⟨a, by decide +kernel, rfl⟩, ⟨equal, by decide +kernel, rfl⟩, ⟨b, by decide +kernel, rfl⟩, nofun⟩
    · exact .cons_cons (by decide) (.cons_cons (by decide) (.singleton _))
  obtain ⟨ts, us, hts, hus, hjoined⟩ := ofText_layout.2 "=" "\u00a0" "=" (by decide) (by decide)
  have hone : ofText "=" = .ok [fresh "=" .identifier] := by decide +kernel
  rw [hone] at hts hus
  cases hts
  cases hus
  exact ⟨hlead, hpieces, ofText_layout.1 "\t" pieces hlead hpieces, hjoined⟩

end Tabular.Token
