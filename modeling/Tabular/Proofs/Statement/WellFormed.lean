import Tabular.Proofs.Statement.Replacing
import Tabular.Proofs.Token.Faithful

/-!
# Well-formed statements

A statement is well-formed when its tokens are faithful and of the kinds that the grammar asks for, and when no list
that has to have items is empty (`Statement.WellFormed`). Whatever the grammar derives from faithful tokens is
well-formed (`wellFormed_of_derives`), so this holds of every statement that is read from a text.
-/

namespace Tabular

open Grammar Lexeme Token

/-! ## Well-formed statements -/

/-- The name of a table or of a column. -/
def Token.IsName (t : Token) : Prop :=
  t.Faithful ∧ t.kind = .identifier

/-- A value to insert or to compare with. -/
def Token.IsValue (t : Token) : Prop :=
  t.Faithful ∧ (t.kind = .identifier ∨ t.kind = .number)

/-- The operator of a condition. -/
def Token.IsOperator (t : Token) : Prop :=
  t.Faithful ∧ t.kind = .symbol ∧ (t.value = "==" ∨ t.value = ">" ∨ t.value = "<")

def ColumnDefinition.WellFormed (c : ColumnDefinition) : Prop :=
  c.name.IsName ∧ c.datatype.Faithful ∧ c.datatype.kind = .datatype

def Condition.WellFormed (c : Condition) : Prop :=
  c.column.IsName ∧ c.operator.IsOperator ∧ c.value.IsValue

def Projection.WellFormed : Projection → Prop
  | all => True
  | columns names => names ≠ [] ∧ ∀ t ∈ names, t.IsName

/-- The tokens are faithful and of the right kinds, and no list is empty that may not be. -/
def Statement.WellFormed : Statement → Prop
  | create d => d.name.IsName ∧ (d.columns ≠ [] ∧ ∀ c ∈ d.columns, c.WellFormed) ∧
      d.engine.Faithful ∧ d.engine.kind = .engine
  | insert i => i.table.IsName ∧ (∀ t ∈ i.columns, t.IsName) ∧
      (i.valueSets ≠ [] ∧ ∀ set ∈ i.valueSets, set ≠ [] ∧ ∀ t ∈ set, t.IsValue)
  | select s => s.projection.WellFormed ∧ s.table.IsName ∧ ∀ c ∈ s.conditions, c.WellFormed
  | showCreate table => table.IsName

theorem Token.isName_unplaced {t : Token} : t.unplaced.IsName ↔ t.IsName :=
  and_congr_left' faithful_unplaced

theorem Token.isValue_unplaced {t : Token} : t.unplaced.IsValue ↔ t.IsValue :=
  and_congr_left' faithful_unplaced

theorem Condition.wellFormed_unplaced {c : Condition} : (c.mapTokens unplaced).WellFormed ↔ c.WellFormed :=
  and_congr isName_unplaced (and_congr (and_congr_left' faithful_unplaced) isValue_unplaced)

/-- Being well-formed does not depend on where the tokens stand. -/
theorem Statement.wellFormed_unplaced {s : Statement} : (s.mapTokens unplaced).WellFormed ↔ s.WellFormed := by
  have hc (c : ColumnDefinition) : (c.mapTokens unplaced).WellFormed ↔ c.WellFormed :=
    and_congr isName_unplaced (and_congr_left' faithful_unplaced)
  cases s with
  | create d => simp only [mapTokens, WellFormed, isName_unplaced, hc, ne_eq, List.map_eq_nil_iff,
      List.forall_mem_map, faithful_unplaced]; rfl
  | insert i => simp only [mapTokens, WellFormed, isName_unplaced, isValue_unplaced, ne_eq, List.map_eq_nil_iff,
      List.forall_mem_map]
  | select q =>
    obtain ⟨projection, table, conditions⟩ := q
    cases projection <;> simp only [mapTokens, Projection.mapTokens, WellFormed, Projection.WellFormed,
      isName_unplaced, Condition.wellFormed_unplaced, ne_eq, List.map_eq_nil_iff, List.forall_mem_map]
  | showCreate t => exact isName_unplaced

/-! ## What is derived from faithful tokens is well-formed -/

section Derived

variable {α : Type} {item : List Token → α → Prop} {P : α → Prop} {ts : List Token} {as : List α}
  (hitem : ∀ its a, item its a → (∀ t ∈ its, t.Faithful) → P a)
include hitem

theorem separated_wellFormed {word : String} (h : Separated word item ts as) (ht : ∀ t ∈ ts, t.Faithful) :
    as ≠ [] ∧ ∀ a ∈ as, P a := by
  induction h with
  | one h => exact ⟨List.cons_ne_nil _ _, List.forall_mem_singleton.mpr (hitem _ _ h ht)⟩
  | cons h _ _ ih =>
    rw [List.forall_mem_append, List.forall_mem_cons] at ht
    exact ⟨List.cons_ne_nil _ _, List.forall_mem_cons.mpr ⟨hitem _ _ h ht.1, (ih ht.2.2).2⟩⟩

theorem parenthesized_wellFormed (h : Parenthesized item ts as) (ht : ∀ t ∈ ts, t.Faithful) :
    as ≠ [] ∧ ∀ a ∈ as, P a := by
  obtain ⟨-, h, -⟩ := h
  rw [List.forall_mem_cons, List.forall_mem_append] at ht
  exact separated_wellFormed hitem h ht.2.1

end Derived

theorem isName_of_name (its : List Token) (a : Token) (h : Name its a) (ht : ∀ t ∈ its, t.Faithful) : a.IsName := by
  obtain ⟨h⟩ := h
  exact ⟨ht a (List.mem_singleton_self a), h⟩

theorem isValue_of_value (its : List Token) (a : Token) (h : Value its a) (ht : ∀ t ∈ its, t.Faithful) :
    a.IsValue := by
  obtain ⟨h⟩ := h
  exact ⟨ht a (List.mem_singleton_self a), h⟩

/-- A faithful token that spells an operator is a symbol, as no keyword is spelled so. -/
theorem isOperator_of_spells {t : Token} (ht : t.Faithful) (h : t.spells "==" ∨ t.spells ">" ∨ t.spells "<") :
    t.IsOperator := by
  have hv : t.value = "==" ∨ t.value = ">" ∨ t.value = "<" :=
    h.imp value_of_spells (Or.imp value_of_spells value_of_spells)
  refine ⟨ht, ?_, hv⟩
  obtain hk | hk : t.kind = .keyword ∨ t.kind = .symbol :=
    h.elim Progress.kind_of_spells (Or.elim · Progress.kind_of_spells Progress.kind_of_spells)
  · have hm := ht.mem_reserved (by simp [hk]) (by simp [hk])
    rw [hk] at hm
    rcases hv with hv | hv | hv <;> rw [hv] at hm <;> exact absurd hm (by decide)
  · exact hk

theorem wellFormed_of_typedName (its : List Token) (c : ColumnDefinition) (h : TypedName its c)
    (ht : ∀ t ∈ its, t.Faithful) : c.WellFormed := by
  obtain ⟨hn, hd⟩ := h
  simp only [List.forall_mem_cons] at ht
  exact ⟨⟨ht.1, hn⟩, ht.2.1, hd⟩

theorem wellFormed_of_comparison (its : List Token) (c : Condition) (h : Comparison its c)
    (ht : ∀ t ∈ its, t.Faithful) : c.WellFormed := by
  obtain ⟨hc, ho, hv⟩ := h
  simp only [List.forall_mem_cons] at ht
  exact ⟨⟨ht.1, hc⟩, isOperator_of_spells ht.2.1 ho, ht.2.2.1, hv⟩

/-- A statement of faithful tokens is well-formed. -/
theorem wellFormed_of_derives {ts : List Token} {s : Statement} (h : Derives ts s) (ht : ∀ t ∈ ts, t.Faithful) :
    s.WellFormed := by
  cases h with
  | create _ _ hn hb _ he _ =>
    simp only [List.forall_mem_cons, List.forall_mem_append] at ht
    obtain ⟨-, -, htn, htb, -, hte, -⟩ := ht
    exact ⟨⟨htn, hn⟩, parenthesized_wellFormed wellFormed_of_typedName hb htb, hte, he⟩
  | insert _ _ htable hn _ hb _ =>
    simp only [List.forall_mem_cons, List.forall_mem_append] at ht
    obtain ⟨-, -, htt, htn, -, htb, -⟩ := ht
    refine ⟨⟨htt, htable⟩, ?_, separated_wellFormed
      (fun _ _ hs hts => parenthesized_wellFormed isValue_of_value hs hts) hb htb⟩
    cases hn with
    | none => exact fun _ h => absurd h List.not_mem_nil
    | some hn => exact (parenthesized_wellFormed isName_of_name hn htn).2
  | select _ hp _ htable hc _ =>
    simp only [List.forall_mem_cons, List.forall_mem_append] at ht
    obtain ⟨-, htp, -, htt, htc, -⟩ := ht
    refine ⟨?_, ⟨htt, htable⟩, ?_⟩
    · cases hp with
      | all => trivial
      | columns hn => exact parenthesized_wellFormed isName_of_name hn htp
    · cases hc with
      | none => exact fun _ h => absurd h List.not_mem_nil
      | some hc =>
        obtain ⟨-, hc⟩ := hc
        rw [List.forall_mem_cons] at htc
        exact (separated_wellFormed wellFormed_of_comparison hc htc.2).2
  | showCreate _ _ _ htable _ _ =>
    simp only [List.forall_mem_cons] at ht
    exact ⟨ht.2.2.2.1, htable⟩

end Tabular
