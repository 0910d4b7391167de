import Mathlib.Tactic.TFAE
import Tabular.Proofs.Statement.WellFormed
import Tabular.Statement.Printer

/-!
# Printing and reading

A well-formed statement has its tokens written out (`Statement.tokens`). They derive the statement (`derives_tokens`),
and its text reads as them (`reads_text`). So the well-formed statements are those that can be printed and read
back, and they are those that some text is read as (`wellFormed_tfae`).
-/

namespace Tabular

open Grammar Lexeme Token

/-! ## The tokens of a statement -/

/-- Items in parentheses, with commas between them. -/
def Grammar.enclosed (items : List (List Token)) : List Token :=
  fresh "(" .symbol :: ([fresh "," .symbol].intercalate items ++ [fresh ")" .symbol])

/-- Names or values in parentheses, with commas between them. -/
def Grammar.enclosedTokens (ts : List Token) : List Token :=
  enclosed (ts.map ([·]))

def ColumnDefinition.tokens (c : ColumnDefinition) : List Token :=
  [c.name, c.datatype]

def Condition.tokens (c : Condition) : List Token :=
  [c.column, c.operator, c.value]

def Projection.tokens : Projection → List Token
  | all => [fresh "*" .symbol]
  | columns names => enclosedTokens names

/-- The tokens of a statement, without regard to places. -/
def Statement.tokens : Statement → List Token
  | create d =>
    fresh "create" .keyword :: fresh "table" .keyword :: d.name :: (enclosed (d.columns.map (·.tokens)) ++
      [fresh "engine" .keyword, d.engine, fresh ";" .symbol])
  | insert i =>
    fresh "insert" .keyword :: fresh "into" .keyword :: i.table ::
      ((if i.columns.isEmpty then [] else enclosedTokens i.columns) ++ fresh "values" .keyword ::
        ([fresh "," .symbol].intercalate (i.valueSets.map enclosedTokens) ++ [fresh ";" .symbol]))
  | select s =>
    fresh "select" .keyword :: (s.projection.tokens ++ fresh "from" .keyword :: s.table ::
      ((if s.conditions.isEmpty then []
        else fresh "where" .keyword :: [fresh "and" .keyword].intercalate (s.conditions.map (·.tokens))) ++
        [fresh ";" .symbol]))
  | showCreate table =>
    [fresh "show" .keyword, fresh "create" .keyword, fresh "(" .symbol, table, fresh ")" .symbol,
      fresh ";" .symbol]

/-! ## The tokens derive the statement -/

section Lists

variable {α : Type} {item : List Token → α → Prop} {tokens : α → List Token} {as : List α}

theorem separated_intercalate {t : Token} {word : String} (ht : t.spells word) (hne : as ≠ [])
    (h : ∀ a ∈ as, item (tokens a) a) : Separated word item ([t].intercalate (as.map tokens)) as := by
  induction as with
  | nil => exact absurd rfl hne
  | cons a as ih =>
    rw [List.forall_mem_cons] at h
    cases as with
    | nil =>
      rw [List.map_singleton, List.intercalate_singleton]
      exact .one h.1
    | cons b as =>
      have := Separated.cons h.1 ht (ih (List.cons_ne_nil _ _) h.2)
      simpa [List.intercalate_cons_cons] using this

theorem parenthesized_enclosed (hne : as ≠ []) (h : ∀ a ∈ as, item (tokens a) a) :
    Parenthesized item (enclosed (as.map tokens)) as :=
  .intro rfl (separated_intercalate rfl hne h) rfl

end Lists

theorem parenthesized_names {ts : List Token} (hne : ts ≠ []) (h : ∀ t ∈ ts, t.IsName) :
    Parenthesized Name (enclosedTokens ts) ts :=
  parenthesized_enclosed hne fun t ht => .intro (h t ht).2

theorem parenthesized_values {ts : List Token} (hne : ts ≠ []) (h : ∀ t ∈ ts, t.IsValue) :
    Parenthesized Value (enclosedTokens ts) ts :=
  parenthesized_enclosed hne fun t ht => .intro (h t ht).2

theorem comparison_tokens {c : Condition} (h : c.WellFormed) : Comparison c.tokens c := by
  obtain ⟨hc, ⟨-, hk, ho⟩, hv⟩ := h
  refine .intro hc.2 ?_ hv.2
  simp only [spells, hk, beq_self_eq_true, Bool.or_true, Bool.true_and, beq_iff_eq]
  exact ho

theorem derives_tokens {s : Statement} (h : s.WellFormed) : Derives s.tokens s := by
  cases s with
  | create d =>
    obtain ⟨hn, ⟨hne, hc⟩, -, he⟩ := h
    exact .create ⟨rfl, rfl⟩ rfl hn.2
      (parenthesized_enclosed hne fun c hm => .intro (hc c hm).1.2 (hc c hm).2.2) rfl he rfl
  | insert i =>
    obtain ⟨ht, hn, hne, hv⟩ := h
    refine .insert ⟨rfl, rfl⟩ rfl ht.2 ?_ rfl (separated_intercalate rfl hne fun set hm =>
      parenthesized_values (hv set hm).1 (hv set hm).2) rfl
    split
    · rename_i he
      rw [List.isEmpty_iff.mp he]
      exact .none
    · rename_i he
      exact .some (parenthesized_names (fun h => he (List.isEmpty_iff.mpr h)) hn)
  | select q =>
    obtain ⟨hp, ht, hc⟩ := h
    refine .select ⟨rfl, rfl⟩ ?_ rfl ht.2 ?_ rfl
    · cases hq : q.projection with
      | all => exact .all rfl
      | columns names =>
        rw [hq] at hp
        exact .columns (parenthesized_names hp.1 hp.2)
    · split
      · rename_i he
        rw [List.isEmpty_iff.mp he]
        exact .none
      · rename_i he
        exact .some (.intro rfl (separated_intercalate rfl (fun h => he (List.isEmpty_iff.mpr h))
          fun c hm => comparison_tokens (hc c hm)))
  | showCreate table => exact .showCreate ⟨rfl, rfl⟩ rfl rfl h.2 rfl rfl

/-! ## The text reads as the tokens -/

namespace Token

/-- The characters are read as these tokens, wherever they stand. -/
def Reads (cs : List Char) (ts : List Token) : Prop :=
  readings cs = ts.map unplaced

instance (cs : List Char) (ts : List Token) : Decidable (Reads cs ts) :=
  inferInstanceAs (Decidable (_ = _))

theorem Reads.append {a b : List Char} {ts us : List Token} (ha : Reads a ts) (h : Parted a b) (hb : Reads b us) :
    Reads (a ++ b) (ts ++ us) := by
  rw [Reads, readings_append h, ha, hb, List.map_append]

theorem reads_value {t : Token} (h : t.Faithful) : Reads t.value.toList [t] :=
  faithful_iff.mp h

/-- Texts with a separating text between them, at whose ends no word goes on. -/
theorem reads_intercalate {α : Type} {sep : List Char} {t : Token} {text : α → List Char} {tokens : α → List Token}
    {as : List α} (hl : sep.head?.all isBreak) (hr : sep.getLast?.all isBreak) (hne : sep ≠ []) (hs : Reads sep [t])
    (h : ∀ a ∈ as, Reads (text a) (tokens a)) :
    Reads (sep.intercalate (as.map text)) ([t].intercalate (as.map tokens)) := by
  induction as with
  | nil => exact readings_nil
  | cons a as ih =>
    rw [List.forall_mem_cons] at h
    cases as with
    | nil =>
      rw [List.map_singleton, List.map_singleton, List.intercalate_singleton, List.intercalate_singleton]
      exact h.1
    | cons b as =>
      simp only [List.map_cons, List.intercalate_cons_cons, List.append_assoc]
      refine h.1.append (.inr ?_) (hs.append (.inl hr) (ih h.2))
      obtain ⟨c, sep, rfl⟩ := List.exists_cons_of_ne_nil hne
      exact hl

theorem reads_blank : Reads " ".toList [] := by
  decide +kernel

theorem reads_reserved {kind : TokenKind} {w : String} (hw : w ∈ kind.reserved) : Reads w.toList [fresh w kind] :=
  readings_of_reserves hw

theorem reads_semicolon : Reads ";".toList [fresh ";" .symbol] :=
  reads_reserved (by decide)

theorem reads_commas {α : Type} {text : α → List Char} {tokens : α → List Token} {as : List α}
    (h : ∀ a ∈ as, Reads (text a) (tokens a)) :
    Reads (", ".toList.intercalate (as.map text)) ([fresh "," .symbol].intercalate (as.map tokens)) :=
  reads_intercalate rfl rfl (by decide) (by decide +kernel) h

theorem reads_bracketed {ts : List Token} (h : ∀ t ∈ ts, t.Faithful) :
    Reads (bracketed ts).toList (enclosedTokens ts) := by
  have hts : Reads (", ".toList.intercalate (ts.map (·.value.toList)))
      ([fresh "," .symbol].intercalate (ts.map ([·]))) :=
    reads_commas fun t ht => reads_value (h t ht)
  have ho : Reads "(".toList [fresh "(" .symbol] := reads_reserved (by decide)
  have hc : Reads ")".toList [fresh ")" .symbol] := reads_reserved (by decide)
  have := ho.append (.inl rfl) (hts.append (.inr rfl) hc)
  simpa only [bracketed, enclosedTokens, enclosed, String.toList_append, String.toList_intercalate, List.map_map,
    Function.comp_def, List.append_assoc, List.cons_append, List.nil_append] using this

/-- The name of a type is printed in upper case and read in lower case. -/
theorem reads_uppercase {t : Token} (h : t.Faithful) (hk : t.kind = .datatype) :
    Reads (Text.uppercase t.value).toList [t] := by
  have hw : ∀ w ∈ TokenKind.datatype.reserved, Reads (Text.uppercase w).toList [.fresh w .datatype] := by
    decide +kernel
  have hm := h.mem_reserved (by simp [hk]) (by simp [hk])
  rw [hk] at hm
  have := hw t.value hm
  rwa [← hk] at this

end Token

theorem reads_columnDefinition {c : ColumnDefinition} (h : c.WellFormed) : Reads c.text.toList c.tokens := by
  obtain ⟨⟨hn, -⟩, hd, hk⟩ := h
  have := (reads_value hn).append (.inr rfl) (reads_blank.append (.inl rfl) (reads_uppercase hd hk))
  simpa [ColumnDefinition.text, ColumnDefinition.tokens] using this

theorem reads_condition {c : Condition} (h : c.WellFormed) : Reads c.text.toList c.tokens := by
  obtain ⟨⟨hc, -⟩, ⟨ho, -⟩, hv, -⟩ := h
  have := (reads_value hc).append (.inr rfl) (reads_blank.append (.inl rfl)
    ((reads_value ho).append (.inr rfl) (reads_blank.append (.inl rfl) (reads_value hv))))
  simpa [Condition.text, Condition.tokens] using this

theorem reads_projection {p : Projection} (h : p.WellFormed) : Reads p.text.toList p.tokens := by
  cases p with
  | all =>
    have h : Reads "*".toList [fresh "*" .symbol] := reads_reserved (by decide)
    exact h
  | columns names => exact reads_bracketed fun t ht => (h.2 t ht).1

theorem TableDefinition.toList_text (d : TableDefinition) : d.text.toList =
    "CREATE TABLE ".toList ++ (d.name.value.toList ++ (" (".toList ++
      (", ".toList.intercalate (d.columns.map (·.text.toList)) ++
        (") ENGINE ".toList ++ (d.engine.value.toList ++ ";".toList))))) := by
  have h : d.text = "CREATE TABLE " ++ d.name.value ++ " (" ++ ", ".intercalate (d.columns.map (·.text)) ++
      ") ENGINE " ++ d.engine.value ++ ";" := rfl
  simp only [h, String.toList_append, String.toList_intercalate, List.map_map, Function.comp_def, List.append_assoc]

theorem reads_create {d : TableDefinition} (h : (Statement.create d).WellFormed) :
    Reads d.text.toList (Statement.create d).tokens := by
  obtain ⟨⟨hn, -⟩, ⟨-, hc⟩, he, -⟩ := h
  have h₁ : Reads "CREATE TABLE ".toList [fresh "create" .keyword, fresh "table" .keyword] := by decide +kernel
  have h₂ : Reads " (".toList [fresh "(" .symbol] := by decide +kernel
  have h₃ : Reads (", ".toList.intercalate (d.columns.map (·.text.toList)))
      ([fresh "," .symbol].intercalate (d.columns.map (·.tokens))) :=
    reads_commas fun c hm => reads_columnDefinition (hc c hm)
  have h₄ : Reads ") ENGINE ".toList [fresh ")" .symbol, fresh "engine" .keyword] := by decide +kernel
  have := h₁.append (.inl rfl) ((reads_value hn).append (.inr rfl) (h₂.append (.inl rfl)
    (h₃.append (.inr rfl) (h₄.append (.inl rfl) ((reads_value he).append (.inr rfl) reads_semicolon)))))
  rw [d.toList_text]
  simpa only [Statement.tokens, enclosed, List.append_assoc, List.cons_append, List.nil_append] using this

theorem Insertion.toList_text (i : Insertion) : i.text.toList =
    "INSERT INTO ".toList ++ (i.table.value.toList ++
      ((if i.columns.isEmpty then [] else " ".toList ++ (bracketed i.columns).toList) ++
        (" VALUES ".toList ++ (", ".toList.intercalate (i.valueSets.map fun set => (bracketed set).toList) ++
          ";".toList)))) := by
  have h : i.text = "INSERT INTO " ++ i.table.value ++ (if i.columns.isEmpty then "" else " " ++ bracketed i.columns) ++
      " VALUES " ++ ", ".intercalate (i.valueSets.map bracketed) ++ ";" := rfl
  simp only [h, String.toList_append, String.toList_intercalate, List.map_map, Function.comp_def, List.append_assoc,
    apply_ite String.toList, String.toList_empty]

theorem reads_insert {i : Insertion} (h : (Statement.insert i).WellFormed) :
    Reads i.text.toList (Statement.insert i).tokens := by
  obtain ⟨⟨ht, -⟩, hn, -, hv⟩ := h
  have h₁ : Reads "INSERT INTO ".toList [fresh "insert" .keyword, fresh "into" .keyword] := by decide +kernel
  have h₂ : Reads " VALUES ".toList [fresh "values" .keyword] := by decide +kernel
  have h₃ : Reads (", ".toList.intercalate (i.valueSets.map fun set => (bracketed set).toList))
      ([fresh "," .symbol].intercalate (i.valueSets.map enclosedTokens)) :=
    reads_commas fun set hm => reads_bracketed fun t ht => ((hv set hm).2 t ht).1
  have hvalues := h₂.append (.inl rfl) (h₃.append (.inr rfl) reads_semicolon)
  rw [i.toList_text, Statement.tokens]
  cases he : i.columns.isEmpty with
  | true => exact h₁.append (.inl rfl) ((reads_value ht).append (.inr rfl) hvalues)
  | false =>
    have hnames := reads_blank.append (.inl rfl) (reads_bracketed fun t ht => (hn t ht).1)
    exact h₁.append (.inl rfl) ((reads_value ht).append (.inr rfl) (hnames.append (.inr rfl) hvalues))

theorem Selection.toList_text (q : Selection) : q.text.toList =
    "SELECT ".toList ++ (q.projection.text.toList ++ (" FROM ".toList ++ (q.table.value.toList ++
      ((if q.conditions.isEmpty then []
        else " WHERE ".toList ++ " AND ".toList.intercalate (q.conditions.map (·.text.toList))) ++ ";".toList)))) := by
  have h : q.text = "SELECT " ++ q.projection.text ++ " FROM " ++ q.table.value ++
      (if q.conditions.isEmpty then "" else " WHERE " ++ " AND ".intercalate (q.conditions.map (·.text))) ++ ";" := rfl
  simp only [h, String.toList_append, String.toList_intercalate, List.map_map, Function.comp_def, List.append_assoc,
    apply_ite String.toList, String.toList_empty]

theorem reads_select {q : Selection} (h : (Statement.select q).WellFormed) :
    Reads q.text.toList (Statement.select q).tokens := by
  obtain ⟨hp, ⟨ht, -⟩, hc⟩ := h
  have h₁ : Reads "SELECT ".toList [fresh "select" .keyword] := by decide +kernel
  have h₂ : Reads " FROM ".toList [fresh "from" .keyword] := by decide +kernel
  rw [q.toList_text, Statement.tokens]
  cases he : q.conditions.isEmpty with
  | true =>
    exact h₁.append (.inl rfl) ((reads_projection hp).append (.inr rfl) (h₂.append (.inl rfl)
      ((reads_value ht).append (.inr rfl) reads_semicolon)))
  | false =>
    have h₃ : Reads " WHERE ".toList [fresh "where" .keyword] := by decide +kernel
    have h₄ : Reads (" AND ".toList.intercalate (q.conditions.map (·.text.toList)))
        ([fresh "and" .keyword].intercalate (q.conditions.map (·.tokens))) :=
      reads_intercalate rfl rfl (by decide) (by decide +kernel) fun c hm => reads_condition (hc c hm)
    have := h₁.append (.inl rfl) ((reads_projection hp).append (.inr rfl) (h₂.append (.inl rfl)
      ((reads_value ht).append (.inr rfl) ((h₃.append (.inl rfl) h₄).append (.inr rfl) reads_semicolon))))
    exact this

theorem reads_text {s : Statement} (h : s.WellFormed) : Reads s.text.toList s.tokens := by
  cases s with
  | create d => exact reads_create h
  | insert i => exact reads_insert h
  | select q => exact reads_select h
  | showCreate t =>
    have h₁ : Reads "SHOW CREATE (".toList [fresh "show" .keyword, fresh "create" .keyword, fresh "(" .symbol] := by
      decide +kernel
    have h₂ : Reads ");".toList [fresh ")" .symbol, fresh ";" .symbol] := by decide +kernel
    have ht : (Statement.showCreate t).text = "SHOW CREATE (" ++ t.value ++ ");" := rfl
    rw [ht, String.toList_append, String.toList_append, List.append_assoc]
    exact h₁.append (.inl rfl) ((reads_value h.1).append (.inr rfl) h₂)

/-! ## Printing, then reading -/

namespace Statement

variable {s s' : Statement} {text : String}

/-- A text is read as a statement if it reads as tokens that derive it. -/
theorem exists_ofText {ts : List Token} (h : Derives ts s) (hr : Reads text.toList ts) :
    ∃ s', ofText text = .ok s' ∧ s'.Same s := by
  obtain ⟨us, hu, hus⟩ := Token.exists_ofText text
  have hd : Derives (us.map unplaced) (s.mapTokens unplaced) := by
    rw [hus, hr]
    exact (derives_map_iff keeps_unplaced).mpr ⟨s, h, rfl⟩
  obtain ⟨s', hd, hs⟩ := (derives_map_iff keeps_unplaced).mp hd
  refine ⟨s', ?_, hs⟩
  rw [ofText, hu]
  exact ofTokens_eq_ok_iff_completes.mpr (derives_iff.mp hd)

/-- A text that reads as the tokens of a well-formed statement is read as the statement, wherever its tokens stand. -/
theorem WellFormed.exists_ofText (h : s.WellFormed) (hr : Reads text.toList s.tokens) :
    ∃ s', ofText text = .ok s' ∧ s'.Same s :=
  Statement.exists_ofText (derives_tokens h) hr

theorem derives_of_ofText (h : ofText text = .ok s) : ∃ ts, Token.ofText text = .ok ts ∧ Derives ts s := by
  obtain ⟨ts, ht, -⟩ := Token.exists_ofText text
  rw [ofText, ht] at h
  exact ⟨ts, ht, derives_iff.mpr (ofTokens_eq_ok_iff_completes.mp h)⟩

theorem wellFormed_of_ofText (h : ofText text = .ok s) : s.WellFormed := by
  obtain ⟨ts, ht, hd⟩ := derives_of_ofText h
  exact wellFormed_of_derives hd (faithful_of_ofText ht)

theorem Same.wellFormed (h : s.Same s') (hs : s.WellFormed) : s'.WellFormed := by
  rw [← wellFormed_unplaced] at hs ⊢
  rwa [Same, ← h] at *

/-- **Printing and reading are inverse on the well-formed statements, and on no others.** For every statement it is
the same to be well-formed, to be what its own text is read as, and to be what some text is read as, wherever the
tokens stand. -/
theorem wellFormed_tfae (s : Statement) : List.TFAE [s.WellFormed, ∃ s', ofText s.text = .ok s' ∧ s'.Same s,
    ∃ text s', ofText text = .ok s' ∧ s'.Same s] := by
  tfae_have 1 → 2 := fun h => exists_ofText (derives_tokens h) (reads_text h)
  tfae_have 2 → 3 := fun h => ⟨s.text, h⟩
  tfae_have 3 → 1 := fun ⟨_, _, h, hs⟩ => hs.wellFormed (wellFormed_of_ofText h)
  tfae_finish

end Statement
end Tabular
