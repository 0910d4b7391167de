import Tabular.Statement.Basic

/-!
# The grammar of statements

`Derives ts s` says that the tokens `ts` are a statement of the grammar and that `s` is its tree. The rules mention no
reader: a literal is any keyword or symbol that spells it (`Token.spells`), the verb is a keyword, and every slot of
the tree holds the very token of `ts` that stands there.
-/

namespace Tabular

/-! ## Rules -/

/-- The token starts the statements of a verb. -/
def Token.IsVerb (t : Token) (word : String) : Prop :=
  t.kind = .keyword ∧ t.value = word

theorem Token.value_of_spells {t : Token} {word : String} (h : t.spells word) : t.value = word := by
  simp only [spells, Bool.and_eq_true, beq_iff_eq] at h
  exact h.2

namespace Grammar

section Lists

variable {α : Type}

/-- One or more items, with a word between two of them. -/
inductive Separated (word : String) (item : List Token → α → Prop) : List Token → List α → Prop
  | one {ts : List Token} {a : α} : item ts a → Separated word item ts [a]
  | cons {ts rest : List Token} {t : Token} {a : α} {as : List α} :
      item ts a → t.spells word → Separated word item rest as → Separated word item (ts ++ t :: rest) (a :: as)

/-- One or more items in parentheses, with commas between them. -/
inductive Parenthesized (item : List Token → α → Prop) : List Token → List α → Prop
  | intro {opening closing : Token} {ts : List Token} {as : List α} :
      opening.spells "(" → Separated "," item ts as → closing.spells ")" →
      Parenthesized item (opening :: (ts ++ [closing])) as

/-- A list that may be left out. -/
inductive Optional (list : List Token → List α → Prop) : List Token → List α → Prop
  | none : Optional list [] []
  | some {ts : List Token} {as : List α} : list ts as → Optional list ts as

end Lists

/-- The name of a table or of a column. -/
inductive Name : List Token → Token → Prop
  | intro {t : Token} : t.kind = .identifier → Name [t] t

/-- A value to insert or to compare with. -/
inductive Value : List Token → Token → Prop
  | intro {t : Token} : t.kind = .identifier ∨ t.kind = .number → Value [t] t

theorem name_iff (its : List Token) (a : Token) : Name its a ↔ its = [a] ∧ a.kind = .identifier := by
  constructor
  · rintro ⟨h⟩
    exact ⟨rfl, h⟩
  · rintro ⟨rfl, h⟩
    exact .intro h

theorem value_iff (its : List Token) (a : Token) :
    Value its a ↔ its = [a] ∧ (a.kind = .identifier ∨ a.kind = .number) := by
  constructor
  · rintro ⟨h⟩
    exact ⟨rfl, h⟩
  · rintro ⟨rfl, h⟩
    exact .intro h

/-- A column of a new table. -/
inductive TypedName : List Token → ColumnDefinition → Prop
  | intro {name datatype : Token} : name.kind = .identifier → datatype.kind = .datatype →
      TypedName [name, datatype] ⟨name, datatype⟩

/-- A comparison of a column with a value. -/
inductive Comparison : List Token → Condition → Prop
  | intro {column operator value : Token} : column.kind = .identifier →
      operator.spells "==" ∨ operator.spells ">" ∨ operator.spells "<" →
      value.kind = .identifier ∨ value.kind = .number → Comparison [column, operator, value] ⟨column, operator, value⟩

/-- What a selection asks for. -/
inductive Projected : List Token → Projection → Prop
  | all {star : Token} : star.spells "*" → Projected [star] .all
  | columns {ts names : List Token} : Parenthesized Name ts names → Projected ts (.columns names)

/-- The conditions of a selection. -/
inductive Where : List Token → List Condition → Prop
  | intro {word : Token} {ts : List Token} {conditions : List Condition} :
      word.spells "where" → Separated "and" Comparison ts conditions → Where (word :: ts) conditions

end Grammar

open Grammar

/-- **The grammar.** The tokens are a statement with this tree. -/
inductive Derives : List Token → Statement → Prop
  | create {verb table name engineWord engine stop : Token} {body : List Token} {columns : List ColumnDefinition} :
      verb.IsVerb "create" → table.spells "table" → name.kind = .identifier → Parenthesized TypedName body columns →
      engineWord.spells "engine" → engine.kind = .engine → stop.spells ";" →
      Derives (verb :: table :: name :: (body ++ [engineWord, engine, stop])) (.create ⟨name, columns, engine⟩)
  | insert {verb into table values stop : Token} {names body columns : List Token} {sets : List (List Token)} :
      verb.IsVerb "insert" → into.spells "into" → table.kind = .identifier →
      Optional (Parenthesized Name) names columns → values.spells "values" →
      Separated "," (Parenthesized Value) body sets → stop.spells ";" →
      Derives (verb :: into :: table :: (names ++ values :: (body ++ [stop]))) (.insert ⟨table, columns, sets⟩)
  | select {verb fromWord table stop : Token} {wanted body : List Token} {projection : Projection}
      {conditions : List Condition} :
      verb.IsVerb "select" → Projected wanted projection → fromWord.spells "from" → table.kind = .identifier →
      Optional Where body conditions → stop.spells ";" →
      Derives (verb :: (wanted ++ fromWord :: table :: (body ++ [stop]))) (.select ⟨projection, table, conditions⟩)
  | showCreate {verb create opening table closing stop : Token} :
      verb.IsVerb "show" → create.spells "create" → opening.spells "(" → table.kind = .identifier →
      closing.spells ")" → stop.spells ";" →
      Derives [verb, create, opening, table, closing, stop] (.showCreate table)

end Tabular
