import Tabular.Proofs.Schema.Rows
import Tabular.Proofs.Statement.WellFormed
import Tabular.Proofs.Token.Identifier

/-!
# Cells and the tokens that stand for them

A cell is displayed as the value of one token (`Cell.token`). It is storable when that token is a value that stands for
the cell again (`Cell.Storable`): null and every number are, and a text is exactly if it is an identifier that does not
spell null (`Cell.storable_text_iff`). The values of a well-formed insertion make storable cells only
(`Schema.rowsOf_storable`), and the tokens of a row of storable cells make the same row again (`Schema.rowOf_tokens`).
-/

namespace Tabular

namespace Cell

/-- The token as which a cell is displayed. -/
def token : Cell → Token
  | null => .fresh "null" .identifier
  | number n => .fresh (Text.integerText n) .number
  | text s => .fresh s .identifier

theorem value_token (c : Cell) : c.token.value = c.display := by
  cases c <;> rfl

theorem unplaced_token (c : Cell) : c.token.unplaced = c.token := by
  cases c <;> rfl

/-- The token as which the cell is displayed is a value, and it stands for the cell. -/
structure Storable (c : Cell) : Prop where
  isValue : c.token.IsValue
  ofToken : ofToken? c.token = some c

theorem storable_null : Storable null := by
  refine ⟨⟨?_, .inl rfl⟩, by decide⟩
  rw [Token.faithful_iff]
  decide +kernel

theorem storable_number (n : Int64) : Storable (number n) := by
  have hr := Text.readInteger?_integerText n
  refine ⟨⟨Token.faithful_number hr, .inr rfl⟩, ?_⟩
  show (Text.readInteger? (Text.integerText n)).map number = some (number n)
  rw [hr, Option.map_some]

/-- **The texts that can be stored** are the identifiers other than null. -/
theorem storable_text_iff {s : String} : Storable (text s) ↔ Text.IsIdentifier s ∧ spellsNull s = false := by
  have ht : ofToken? (text s).token = some (if spellsNull s then null else text s) := rfl
  constructor
  · rintro ⟨⟨hf, -⟩, ho⟩
    refine ⟨Token.faithful_identifier_iff.mp hf, ?_⟩
    rw [ht, Option.some.injEq] at ho
    refine Bool.eq_false_iff.mpr fun hn => ?_
    rw [if_pos hn] at ho
    cases ho
  · rintro ⟨hi, hn⟩
    refine ⟨⟨Token.faithful_identifier_iff.mpr hi, .inl rfl⟩, ?_⟩
    rw [ht, hn]
    rfl

/-- A cell that can be stored is displayed as a word. -/
theorem Storable.isWord {c : Cell} (h : c.Storable) : Lexeme.IsWord c.display.toList := by
  cases c with
  | null => exact (Token.faithful_identifier_iff.mp h.isValue.1).isWord
  | number n => exact Token.isWord_of_readInteger? (Text.readInteger?_integerText n)
  | text s => exact (Token.faithful_identifier_iff.mp h.isValue.1).isWord

/-- The cell that a value stands for can be stored. -/
theorem storable_of_ofToken? {t : Token} {c : Cell} (ht : t.IsValue) (h : ofToken? t = some c) : c.Storable := by
  obtain ⟨value, kind, position⟩ := t
  obtain ⟨hf, rfl | rfl⟩ := ht
  · have hc : some (if spellsNull value then null else text value) = some c := h
    rw [Option.some.injEq] at hc
    subst hc
    by_cases hn : spellsNull value = true
    · rw [if_pos hn]
      exact storable_null
    · rw [if_neg hn]
      have hfresh : (Token.fresh value .identifier).Faithful := hf.congr rfl
      exact storable_text_iff.mpr ⟨Token.faithful_identifier_iff.mp hfresh, by simpa using hn⟩
  · obtain ⟨n, -, rfl⟩ := Option.map_eq_some_iff.mp h
    exact storable_number n

end Cell

theorem Column.cellOf_eq_ok_iff {c : Column} {value : Token} {cell : Cell} :
    c.cellOf value = .ok cell ↔ Cell.ofToken? value = some cell ∧ cell.fits c.type = true := by
  unfold Column.cellOf
  cases Cell.ofToken? value with
  | none => simp
  | some found =>
    by_cases hf : found.fits c.type = true
    · simp only [if_pos hf, Except.ok.injEq, Option.some.injEq]
      exact ⟨fun h => ⟨h, h ▸ hf⟩, fun h => h.1⟩
    · simp only [if_neg hf, Option.some.injEq]
      constructor
      · intro h
        cases h
      · rintro ⟨rfl, h⟩
        exact absurd h hf

theorem Row.mem_ofCells {width : Nat} {cells : List (Nat × Cell)} {c : Cell} (h : c ∈ Row.ofCells width cells) :
    c = .null ∨ ∃ i, (i, c) ∈ cells := by
  obtain ⟨i, -, rfl⟩ := List.mem_map.mp h
  cases hl : cells.lookup i with
  | none => exact .inl rfl
  | some cell =>
    obtain ⟨l, l', rfl, -⟩ := List.lookup_eq_some_iff.mp hl
    exact .inr ⟨i, by simp⟩

/-- A row is made of its own cells at their places. -/
theorem Row.ofCells_range (r : Row) :
    Row.ofCells r.length ((List.range r.length).map fun i => (i, r[i]?.getD .null)) = r := by
  apply List.ext_getElem
  · simp [Row.ofCells]
  · intro i hi hr
    have hm : i ∈ List.range r.length := List.mem_range.mpr hr
    simp only [Row.ofCells, List.getElem_map, List.getElem_range]
    rw [List.lookup_graph _ hm, Option.getD_some, List.getElem?_eq_getElem hr, Option.getD_some]

/-- A cell that can be stored is what any token makes that is the one that stands for it. -/
theorem Cell.Storable.cellOf {c : Cell} (h : c.Storable) {column : Column} (hf : c.fits column.type = true) {t : Token}
    (ht : t.unplaced = c.token) : column.cellOf t = .ok c := by
  have hc : Cell.ofToken? t.unplaced = some c := by rw [ht, h.ofToken]
  exact Column.cellOf_eq_ok_iff.mpr ⟨hc, hf⟩

namespace Schema

variable {s : Schema}

/-- The cells that are made from values can be stored. -/
theorem rowOf_storable {targets : List Slot} {values : List Token} {r : Row} (hv : ∀ t ∈ values, t.IsValue)
    (h : s.rowOf targets values = .ok r) : ∀ c ∈ r, c.Storable := by
  unfold rowOf at h
  split at h
  · obtain ⟨cells, hc, h⟩ := bind_eq_ok_iff.mp h
    cases h
    intro c hm
    rcases Row.mem_ofCells hm with rfl | ⟨i, hi⟩
    · exact Cell.storable_null
    · obtain ⟨⟨slot, value⟩, hz, hs⟩ := exists_of_mem_mapM hc hi
      obtain ⟨cell, hcell, hs⟩ := bind_eq_ok_iff.mp hs
      cases hs
      exact Cell.storable_of_ofToken? (hv value (List.of_mem_zip hz).2) (Column.cellOf_eq_ok_iff.mp hcell).1
  · nomatch h

theorem rowsOf_storable {i : Insertion} {rows : List Row} (hi : (Statement.insert i).WellFormed)
    (h : s.rowsOf i = .ok rows) : ∀ r ∈ rows, ∀ c ∈ r, c.Storable := by
  obtain ⟨targets, -, h⟩ := bind_eq_ok_iff.mp h
  intro r hr
  obtain ⟨values, hv, hrow⟩ := exists_of_mem_mapM h hr
  exact rowOf_storable (hi.2.2.2 values hv).2 hrow

/-- **Values that stand for the cells of a row make the row**, wherever the values stand. -/
theorem rowOf_tokens {values : List Token} {r : Row} (hf : Row.Fits s.columns r) (hs : ∀ c ∈ r, c.Storable)
    (hv : values.map Token.unplaced = r.map Cell.token) : s.rowOf s.slots values = .ok r := by
  have hw : s.columns.length = r.length := List.Forall₂.length_eq hf
  have hl : values.length = r.length := by
    have := congrArg List.length hv
    simpa only [List.length_map] using this
  have hslots : s.slots.length = r.length := by simp [slots, hw]
  have hcells : List.Forall₂ (fun (sv : Slot × Token) ic => sv.1.cellOf sv.2 = .ok ic) (s.slots.zip values)
      ((List.range r.length).map fun i => (i, r[i]?.getD .null)) := by
    refine List.forall₂_of_length_eq_of_get (by simp; omega) fun i hi _ => ?_
    have hr : i < r.length := by simp at hi; omega
    have hvi : i < values.length := by omega
    have hci : i < s.columns.length := by omega
    have htoken : values[i].unplaced = r[i].token := by
      have := congrArg (·[i]?) hv
      simpa [hr, hvi] using this
    have hcell : s.columns[i].cellOf values[i] = .ok r[i] :=
      (hs r[i] (List.getElem_mem hr)).cellOf (List.Forall₂.get hf hci hr) htoken
    simp [slots, Slot.cellOf, hcell, hr]
  unfold rowOf
  rw [if_pos (by omega)]
  refine bind_eq_ok_iff.mpr ⟨_, mapM_eq_ok_iff.mpr hcells, ?_⟩
  rw [width, hw, Row.ofCells_range]
  rfl

end Schema
end Tabular
