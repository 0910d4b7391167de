import Tabular.Proofs.Text.Lowercase
import Tabular.Proofs.Token.Cutting
import Tabular.Token.Reading

/-!
# Faithful tokens

A token is faithful when its value, read as a text, is that token again (`Token.Faithful`). All tokens that are read
from a text are faithful (`faithful_of_ofText`): what is reserved is kept in the one spelling in which it is reserved,
and anything else is kept as it was cut.

Where tokens stand does not matter here, so a text is seen as its unplaced tokens (`Token.readings`). They are put
together where texts are (`readings_append`).
-/

namespace Tabular

/-- The words of a folded kind are found in any case and are kept in lower case. -/
def TokenKind.isFolded : TokenKind → Bool
  | keyword | datatype | engine => true
  | number | symbol | identifier => false

namespace Token

open Lexeme

/-- The token that a lexeme of these characters is, at the start of a text. -/
def reading (w : List Char) : Token :=
  let (value, kind) := recognize (String.ofList w)
  ⟨value, kind, 0⟩

/-- The token that a lexeme is, where it stands. -/
def located (l : Lexeme) : Token :=
  { reading l.text with position := l.start }

/-- The tokens of a text, each moved to the start. -/
def readings (cs : List Char) : List Token :=
  (split 0 cs).map fun l => reading l.text

/-! ## Every text has tokens -/

theorem ofLexeme_eq {l : Lexeme} (hl : l.text ≠ []) : ofLexeme l = .ok (located l) := by
  have h : (String.ofList l.text).isEmpty = false := by simpa using hl
  rw [ofLexeme, ofFragment, h]
  rfl

/-- A token keeps the place that it is read at. -/
theorem position_of_ofFragment {fragment : String} {position : Nat} {t : Token}
    (h : ofFragment fragment position = .ok t) : t.position = position := by
  unfold ofFragment at h
  split at h
  · nomatch h
  · cases h
    rfl

theorem ofText_eq (text : String) : ofText text = .ok ((split 0 text.toList).map located) := by
  have h : ∀ ls : List Lexeme, (∀ l ∈ ls, l.text ≠ []) → ls.mapM ofLexeme = .ok (ls.map located) := by
    intro ls hls
    induction ls with
    | nil => rfl
    | cons l ls ih =>
      rw [List.forall_mem_cons] at hls
      rw [List.mapM_cons, ofLexeme_eq hls.1, ih hls.2]
      rfl
  exact h _ fun l hl => ne_nil_of_isSeparator_or_isWord ((cuts_split 0 text.toList).isSeparator_or_isWord l hl)

/-- A text has tokens, and where they stand aside these are its readings. -/
theorem exists_ofText (text : String) : ∃ ts, ofText text = .ok ts ∧ ts.map unplaced = readings text.toList :=
  ⟨_, ofText_eq text, by rw [List.map_map]; rfl⟩

theorem readings_append {a b : List Char} (h : Parted a b) : readings (a ++ b) = readings a ++ readings b := by
  rw [readings, split_append h, List.map_append, split_add, List.map_map]
  rfl

theorem readings_nil : readings [] = [] := by
  rw [readings, split_eq_iff.mpr .nil]
  rfl

theorem readings_single {w : List Char} (hw : IsSeparator w ∨ IsWord w) : readings w = [reading w] := by
  rw [readings, split_single hw]
  rfl

/-! ## Faithful tokens -/

/-- The value of the token is a text whose only token it is. -/
def Faithful (t : Token) : Prop :=
  ∃ u, ofText t.value = .ok [u] ∧ u.Same t

theorem faithful_iff {t : Token} : t.Faithful ↔ readings t.value.toList = [t.unplaced] := by
  obtain ⟨ts, ht, hr⟩ := exists_ofText t.value
  rw [Faithful, ht, ← hr]
  constructor
  · rintro ⟨u, h, hu⟩
    cases h
    rw [List.map_singleton, hu]
  · intro h
    obtain ⟨u, rfl, hu⟩ := List.map_eq_singleton_iff.mp h
    exact ⟨u, rfl, hu⟩

theorem Faithful.congr {t u : Token} (h : t.Same u) (ht : t.Faithful) : u.Faithful := by
  obtain ⟨v, hv, hs⟩ := ht
  have hu : u.unplaced.value = t.unplaced.value := congrArg Token.value h.symm
  exact ⟨v, hu ▸ hv, hs.trans h⟩

/-- Every reserved word is a lexeme and is recognized in the spelling in which it is reserved. -/
theorem recognize_of_reserves (kind : TokenKind) : ∀ w ∈ kind.reserved,
    (IsSeparator w.toList ∨ IsWord w.toList) ∧ recognize w = (w, kind) := by
  cases kind <;> decide +kernel

/-- Every reserved word that is no symbol is made of small letters. -/
theorem isPlain_of_mem_reserved {kind : TokenKind} (hk : kind.isFolded = true) :
    ∀ w ∈ kind.reserved, ∀ c ∈ w.toList, Text.IsPlain c := by
  have h : ∀ w ∈ kind.reserved, w.toList.all (fun c => decide (Text.IsPlain c)) = true := by
    cases kind with
    | keyword | datatype | engine => decide
    | number | symbol | identifier => exact absurd hk (by decide)
  simpa only [List.all_eq_true, decide_eq_true_eq] using h

/-- Recognizing puts a fragment into the spelling in which it is reserved, or keeps it as it is. -/
theorem recognize_cases (fragment : String) : (recognize fragment).1 ∈ (recognize fragment).2.reserved ∨
    (recognize fragment).1 = fragment ∧
      ((recognize fragment).2 = .number ∨ (recognize fragment).2 = .identifier) := by
  simp only [recognize]
  split
  · exact .inr ⟨rfl, .inl rfl⟩
  split
  · rename_i hr
    exact .inl (List.contains_iff_mem.mp hr)
  split
  · rename_i hr
    exact .inl (List.contains_iff_mem.mp hr)
  split
  · rename_i hr
    exact .inl (List.contains_iff_mem.mp hr)
  split
  · rename_i hr
    exact .inl (List.contains_iff_mem.mp hr)
  · exact .inr ⟨rfl, .inr rfl⟩

/-- Recognizing puts a fragment of a folded kind into lower case, and keeps any other as it is. -/
theorem recognize_value (fragment : String) : (recognize fragment).1 =
    if (recognize fragment).2.isFolded then Text.lowercase fragment else fragment := by
  simp only [recognize]
  repeat' split
  all_goals first | rfl | contradiction

/-- A fragment of a folded kind is a reserved word in lower case. -/
theorem lowercase_mem_reserved {fragment : String} (h : (recognize fragment).2.isFolded = true) :
    Text.lowercase fragment ∈ (recognize fragment).2.reserved := by
  have hv : (recognize fragment).1 = Text.lowercase fragment := by rw [recognize_value, if_pos h]
  rcases recognize_cases fragment with hr | ⟨-, hk | hk⟩
  · rwa [hv] at hr
  · rw [hk] at h
    nomatch h
  · rw [hk] at h
    nomatch h

/-- A reserved word is faithful. -/
theorem readings_of_reserves {kind : TokenKind} {w : String} (hw : w ∈ kind.reserved) :
    readings w.toList = [⟨w, kind, 0⟩] := by
  obtain ⟨hl, hr⟩ := recognize_of_reserves kind w hw
  rw [readings_single hl, reading, String.ofList_toList, hr]

theorem faithful_of_mem_reserved {kind : TokenKind} {w : String} (h : w ∈ kind.reserved) : (fresh w kind).Faithful :=
  faithful_iff.mpr (readings_of_reserves h)

theorem faithful_reading {w : List Char} (hw : IsSeparator w ∨ IsWord w) : (reading w).Faithful := by
  rw [faithful_iff]
  obtain h | ⟨h, -⟩ := recognize_cases (String.ofList w)
  · exact readings_of_reserves h
  · have hv : (reading w).value = String.ofList w := h
    rw [hv, String.toList_ofList, readings_single hw]
    rfl

/-- The value of a faithful token is one lexeme, which is read as the token. -/
theorem Faithful.reading {t : Token} (h : t.Faithful) :
    (IsSeparator t.value.toList ∨ IsWord t.value.toList) ∧ Token.reading t.value.toList = t.unplaced := by
  obtain ⟨l, hl, hr⟩ := List.map_eq_singleton_iff.mp (faithful_iff.mp h)
  have hv : (recognize (String.ofList l.text)).1 = t.value := congrArg Token.value hr
  have hk : (recognize (String.ofList l.text)).2 = t.kind := congrArg Token.kind hr
  obtain hres | ⟨hsame, -⟩ := recognize_cases (String.ofList l.text)
  · rw [hv, hk] at hres
    obtain ⟨hw, hrec⟩ := recognize_of_reserves t.kind t.value hres
    refine ⟨hw, ?_⟩
    rw [Token.reading, String.ofList_toList, hrec]
    rfl
  · have hvalue : t.value.toList = l.text := by rw [← hv, hsame, String.toList_ofList]
    have hlex : IsSeparator l.text ∨ IsWord l.text :=
      (cuts_split 0 t.value.toList).isSeparator_or_isWord l (hl ▸ List.mem_singleton_self l)
    rw [hvalue]
    exact ⟨hlex, hr⟩

theorem Faithful.recognize_eq {t : Token} (h : t.Faithful) : recognize t.value = (t.value, t.kind) := by
  have hr := h.reading.2
  rw [Token.reading, String.ofList_toList] at hr
  exact Prod.ext (congrArg Token.value hr) (congrArg Token.kind hr)

/-- A faithful token of a folded kind stands in lower case. -/
theorem Faithful.lowercase_of_isFolded {t : Token} (h : t.Faithful) (hk : t.kind.isFolded = true) :
    Text.lowercase t.value = t.value := by
  have hv := recognize_value t.value
  rw [h.recognize_eq, if_pos hk] at hv
  exact hv.symm

/-- A faithful token that is neither a number nor an identifier is a reserved word. -/
theorem Faithful.mem_reserved {t : Token} (h : t.Faithful) (hn : t.kind ≠ .number) (hi : t.kind ≠ .identifier) :
    t.value ∈ t.kind.reserved := by
  have hcases := recognize_cases t.value
  rw [h.recognize_eq] at hcases
  exact hcases.resolve_right fun hk => hk.2.elim hn hi

@[simp] theorem faithful_unplaced {t : Token} : t.unplaced.Faithful ↔ t.Faithful :=
  ⟨.congr rfl, .congr rfl⟩

/-- **Whatever is read from a text is faithful.** -/
theorem faithful_of_ofText {text : String} {ts : List Token} (h : ofText text = .ok ts) : ∀ t ∈ ts, t.Faithful := by
  rw [ofText_eq] at h
  cases h
  intro t ht
  obtain ⟨l, hl, rfl⟩ := List.mem_map.mp ht
  have hw := (cuts_split 0 text.toList).isSeparator_or_isWord l hl
  exact (faithful_reading hw).congr rfl

end Token
end Tabular
