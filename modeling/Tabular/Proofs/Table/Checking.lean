import Tabular.Proofs.Table.Selecting

/-!
# Two checks of a condition

A condition is checked twice: before any row is read by the type of its column (`Schema.resolve`), and on every row by
what the cell is (`Condition.test`). On a cell that may stand in the column and is not null both refuse the same
conditions with the same error (`Condition.test_eq_error_iff`, `Schema.agrees_of_nodup`). Only the cell brings to light
that a value of the kind of a number is none (`Condition.Misspelled`), which is the case for no token that is read.
Conditions are made of any tokens here; for those that are read see `Condition.test_eq`.
-/

namespace Tabular

/-- The token is a symbol for one of the ways to compare. -/
def Token.IsKnownOperator (t : Token) : Prop :=
  t.kind = .symbol ∧ t.value ∈ Progress.operators

instance (t : Token) : Decidable t.IsKnownOperator :=
  inferInstanceAs (Decidable (_ ∧ _))

namespace Condition

/-- The value has the kind of a number but does not spell one. -/
def Misspelled (c : Condition) : Prop :=
  c.value.kind = .number ∧ Text.readInteger? c.value.value = none

instance (c : Condition) : Decidable c.Misspelled :=
  inferInstanceAs (Decidable (_ ∧ _))

/-- What is wrong with the condition for columns of a type: its operator, or the kind of its value. -/
def refusal? (c : Condition) (type : ColumnType) : Option TableError :=
  if ¬ c.operator.IsKnownOperator then some (.unknownOperator c.operator.value)
  else if c.value.kind = type.kind then none
  else some (.incomparable c type.kind)

end Condition

/-- The selection with more conditions behind its own. -/
def Selection.also (q : Selection) (cs : List Condition) : Selection :=
  { q with conditions := q.conditions ++ cs }

/-- The two checks of a condition on a column agree, where the condition stands behind those of a selection that can be
resolved. -/
structure Schema.Agrees (s : Schema) (q : Selection) (c : Condition) (column : Column) : Prop where
  /-- It is refused exactly for its operator or the kind of its value, in this order. -/
  refused : ∀ e, s.resolve (q.also [c]) = .error e ↔ c.refusal? column.type = some e
  /-- What stands behind it has no part in that. -/
  first : ∀ e, s.resolve (q.also [c]) = .error e → ∀ cs, s.resolve (q.also (c :: cs)) = .error e
  /-- If it is refused, it fails on every cell of the column with the same error. -/
  same : ∀ e, s.resolve (q.also [c]) = .error e →
    ∀ cell : Cell, cell.fits column.type = true → cell ≠ .null → c.test cell = .error e
  /-- Else it can be tried on every cell of the column, unless its value is misspelled. -/
  tried : ∀ plan, s.resolve (q.also [c]) = .ok plan →
    ∀ cell : Cell, cell.fits column.type = true → cell ≠ .null → ((∃ b, c.test cell = .ok b) ↔ ¬ c.Misspelled)
  misspelled : ∀ plan, s.resolve (q.also [c]) = .ok plan → c.Misspelled →
    ∀ cell : Cell, cell.fits column.type = true → cell ≠ .null → c.test cell = .error (.incomparable c .number)
  /-- It is false of null, unless there is no such operator. -/
  null : c.test .null = .ok false ↔ c.operator.IsKnownOperator

/-! ## Operators -/

namespace Operator

theorem mem_operators_iff {word : String} :
    word ∈ Progress.operators ↔ ∃ operator : Operator, word = operator.sign := by
  constructor
  · intro h
    have h : word = "==" ∨ word = ">" ∨ word = "<" := by simpa [Progress.operators] using h
    rcases h with rfl | rfl | rfl
    · exact ⟨equal, rfl⟩
    · exact ⟨greater, rfl⟩
    · exact ⟨less, rfl⟩
  · rintro ⟨operator, rfl⟩
    cases operator <;> decide

/-- The known operators are those that a token can stand for. -/
theorem exists_ofToken_iff {t : Token} : (∃ operator, ofToken t = .ok operator) ↔ t.IsKnownOperator := by
  simp only [ofToken_eq_ok_iff, exists_and_left, Token.IsKnownOperator, mem_operators_iff]

/-- Any other token is reported with its value. -/
theorem ofToken_of_not_isKnownOperator {t : Token} (h : ¬ t.IsKnownOperator) :
    ofToken t = .error (.unknownOperator t.value) := by
  have hnone := mt exists_ofToken_iff.mp h
  unfold ofToken at hnone ⊢
  split_ifs at hnone ⊢ with h₁ h₂ h₃
  · exact absurd ⟨_, rfl⟩ hnone
  · exact absurd ⟨_, rfl⟩ hnone
  · exact absurd ⟨_, rfl⟩ hnone
  · rfl

end Operator

/-! ## On a cell -/

/-- A cell that may stand in a column has its kind unless it is null. -/
theorem Cell.kind_of_fits {type : ColumnType} {cell : Cell} (hf : cell.fits type = true) (hne : cell ≠ .null) :
    cell.kind = type.kind := by
  simpa [fits, hne] using hf

namespace Condition

variable {c : Condition} {type : ColumnType} {cell : Cell} {e : TableError}

/-- A cell is not compared with a value of the other kind. -/
theorem test_of_kind_ne {operator : Operator} (ho : Operator.ofToken c.operator = .ok operator) (hne : cell ≠ .null)
    (hk : c.value.kind ≠ cell.kind) : c.test cell = .error (.incomparable c cell.kind) := by
  rw [test, ho]
  cases cell with
  | null => exact absurd rfl hne
  | number n => cases hv : c.value.kind <;> first | exact absurd hv hk | rfl
  | text s => cases hv : c.value.kind <;> first | exact absurd hv hk | rfl

/-- A cell is compared with a value of its kind, unless that is misspelled. -/
theorem test_of_kind_eq {operator : Operator} (ho : Operator.ofToken c.operator = .ok operator) (hne : cell ≠ .null)
    (hk : c.value.kind = cell.kind) :
    c.test cell = .error e ↔ c.Misspelled ∧ e = .incomparable c .number := by
  rw [test, ho]
  cases cell with
  | null => exact absurd rfl hne
  | number n =>
    have hk : c.value.kind = .number := hk
    cases hread : Text.readInteger? c.value.value with
    | none => simp [Misspelled, hk, hread, bind, Except.bind, eq_comm]
    | some m => simp [Misspelled, hread, hk, bind, Except.bind, pure, Except.pure]
  | text s =>
    have hk : c.value.kind = .identifier := hk
    simp [Misspelled, hk, bind, Except.bind, pure, Except.pure]

/-- **Where a condition fails on a cell** that may stand in a column and is not null. What is wrong with it for the
column comes first, and only then what is wrong with its value. -/
theorem test_eq_error_iff (hf : cell.fits type = true) (hne : cell ≠ .null) :
    c.test cell = .error e ↔
      c.refusal? type = some e ∨ c.refusal? type = none ∧ c.Misspelled ∧ e = .incomparable c .number := by
  have hkind : cell.kind = type.kind := Cell.kind_of_fits hf hne
  by_cases hop : c.operator.IsKnownOperator
  · obtain ⟨operator, ho⟩ := Operator.exists_ofToken_iff.mpr hop
    by_cases hk : c.value.kind = type.kind
    · rw [test_of_kind_eq ho hne (hk.trans hkind.symm)]
      simp [refusal?, hop, hk]
    · rw [test_of_kind_ne ho hne (hkind ▸ hk), hkind]
      simp [refusal?, hop, hk]
  · rw [test, Operator.ofToken_of_not_isKnownOperator hop]
    simp [refusal?, hop, bind, Except.bind]

/-- Nothing but the operator is looked at where the cell is null. -/
theorem test_null_eq_ok_iff : c.test .null = .ok false ↔ c.operator.IsKnownOperator := by
  rw [← Operator.exists_ofToken_iff, test, bind_eq_ok_iff]
  exact exists_congr fun operator => and_iff_left rfl

end Condition

/-! ## Before any row is read -/

namespace Schema

variable {s : Schema} {q : Selection} {c : Condition} {column : Column} {plan : ResolvedSelection} {e : TableError}

/-- The filter for a condition on a column that is there is refused for what is wrong with the condition. -/
theorem filter_eq_error_iff_refusal? (hn : s.names.Nodup) (hc : column ∈ s.columns)
    (hname : column.name = c.column.value) : s.filter c = .error e ↔ c.refusal? column.type = some e := by
  have hslot : s.slotOf c.column = .ok ⟨s.names.idxOf c.column.value, column⟩ :=
    slotOf_eq_ok_iff.mpr ⟨(find?_eq_some_iff hn).mpr ⟨hc, hname⟩, rfl⟩
  rw [Schema.filter, hslot]
  by_cases hop : c.operator.IsKnownOperator
  · obtain ⟨operator, ho⟩ := Operator.exists_ofToken_iff.mpr hop
    by_cases hk : c.value.kind = column.type.kind
    · simp [Condition.refusal?, hop, ho, hk, bind, Except.bind, pure, Except.pure]
    · simp [Condition.refusal?, hop, ho, hk, bind, Except.bind]
  · simp [Condition.refusal?, hop, Operator.ofToken_of_not_isKnownOperator hop, bind, Except.bind]

/-- Once a selection has been resolved, more conditions add their filters. -/
theorem resolve_also (hq : s.resolve q = .ok plan) (cs : List Condition) :
    s.resolve (q.also cs) = cs.mapM s.filter >>= fun fs => pure ⟨plan.projection, plan.filters ++ fs⟩ := by
  obtain ⟨projection, hp, hq⟩ := bind_eq_ok_iff.mp hq
  obtain ⟨filters, hfilters, hq⟩ := bind_eq_ok_iff.mp hq
  cases hq
  rw [resolve, Selection.also, hp, List.mapM_append, hfilters]
  cases cs.mapM s.filter <;> rfl

/-- One more condition is refused with the error of its filter, whatever stands behind it. -/
theorem resolve_also_cons (hq : s.resolve q = .ok plan) (h : s.filter c = .error e) (cs : List Condition) :
    s.resolve (q.also (c :: cs)) = .error e := by
  rw [resolve_also hq, List.mapM_cons, h]
  rfl

theorem resolve_also_singleton_eq_error_iff (hq : s.resolve q = .ok plan) :
    s.resolve (q.also [c]) = .error e ↔ s.filter c = .error e := by
  rw [resolve_also hq, bind_pure_eq_error_iff, List.mapM_cons, List.mapM_nil]
  exact bind_pure_eq_error_iff

/-- **What is refused before any row is read is what would fail on the rows**, with the same error, for conditions of
any tokens on a column of a schema with distinct names. -/
theorem agrees_of_nodup (hn : s.names.Nodup) (hc : column ∈ s.columns) (hname : column.name = c.column.value)
    (hq : s.resolve q = .ok plan) : s.Agrees q c column := by
  have hrefused : ∀ e, s.resolve (q.also [c]) = .error e ↔ c.refusal? column.type = some e := fun e =>
    (resolve_also_singleton_eq_error_iff hq).trans (filter_eq_error_iff_refusal? hn hc hname)
  have haccepted : ∀ plan, s.resolve (q.also [c]) = .ok plan → c.refusal? column.type = none := by
    intro plan h
    rw [Option.eq_none_iff_forall_ne_some]
    intro e he
    rw [(hrefused e).mpr he] at h
    nomatch h
  exact {
    refused := hrefused
    first := fun e h => resolve_also_cons hq ((resolve_also_singleton_eq_error_iff hq).mp h)
    same := fun e h cell hf hne => (Condition.test_eq_error_iff hf hne).mpr (.inl ((hrefused e).mp h))
    tried := fun plan h cell hf hne => by
      have hfails : (∃ e, c.test cell = .error e) ↔ c.Misspelled := by
        simp [Condition.test_eq_error_iff hf hne, haccepted plan h]
      rw [← hfails]
      cases c.test cell <;> simp
    misspelled := fun plan h hm cell hf hne =>
      (Condition.test_eq_error_iff hf hne).mpr (.inr ⟨haccepted plan h, hm, rfl⟩)
    null := Condition.test_null_eq_ok_iff }

/-- A value that is too large to be a number passes the first check of a condition and fails on a cell. -/
theorem agrees_of_nodup_misspelled :
    let s : Schema := ⟨"t", [⟨"a", .int⟩, ⟨"b", .text⟩]⟩
    let q : Selection := ⟨.all, .fresh "t" .identifier, []⟩
    let c : Condition := ⟨.fresh "a" .identifier, .fresh ">" .symbol, .fresh "9223372036854775808" .number⟩
    s.names.Nodup ∧ ⟨"a", .int⟩ ∈ s.columns ∧ s.resolve q = .ok ⟨s.slots, []⟩ ∧ s.Agrees q c ⟨"a", .int⟩ ∧
      s.resolve (q.also [c]) = .ok ⟨s.slots, [⟨0, c⟩]⟩ ∧ c.Misspelled ∧
      c.test (.number 1) = .error (.incomparable c .number) ∧ c.test .null = .ok false := by
  intro s q c
  have hn : s.names.Nodup := by decide
  have hc : ⟨"a", .int⟩ ∈ s.columns := by decide
  have hq : s.resolve q = .ok ⟨s.slots, []⟩ := rfl
  exact ⟨hn, hc, hq, agrees_of_nodup hn hc rfl hq, by decide +kernel⟩

end Schema
end Tabular
