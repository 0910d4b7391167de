import Tabular.Proofs.Session.Representation
import Tabular.Proofs.Statement.Fault
import Tabular.Proofs.Table.Selecting
import Tabular.Proofs.Text.Lines

/-!
# Messages are single lines

Messages repeat what a client has sent: names, values and conditions. None of them ever has a newline in it, since what
they repeat are values of tokens, which have none (`Token.Faithful.oneLine`), and the names of tables and columns, which
were tokens once (`Schema.IsLegible`). A computation is legible when its message is one line in case it fails
(`Legible`); this is kept by every way in which computations are put together.
-/

namespace Tabular

open Text

/-! ## Tokens and syntax errors -/

theorem oneLine_of_mem_reserved (kind : TokenKind) : ∀ w ∈ kind.reserved, OneLine w := by
  cases kind <;> decide +kernel

theorem Token.Faithful.oneLine {t : Token} (h : t.Faithful) : OneLine t.value := by
  by_cases hi : t.kind = .identifier
  · obtain ⟨value, kind, position⟩ := t
    cases hi
    have hfresh : (Token.fresh value .identifier).Faithful := h.congr rfl
    exact oneLine_of_isWord (Token.faithful_identifier_iff.mp hfresh).isWord
  by_cases hn : t.kind = .number
  · obtain ⟨n, hr⟩ := h.readInteger? hn
    exact oneLine_of_isWord (Token.isWord_of_readInteger? hr)
  · exact oneLine_of_mem_reserved _ _ (h.mem_reserved hn hi)

theorem Progress.oneLine_expected (p : Progress) : OneLine p.expected.text := by
  cases p <;> (simp only [expected]; decide +kernel)

/-- The message about a text that is no statement is one line. -/
theorem Statement.oneLine_message {text : String} {e : SyntaxError} (h : Statement.ofText text = .error e) :
    OneLine e.message := by
  obtain ⟨ts, hts, -⟩ := Token.exists_ofText text
  rw [Statement.ofText, hts] at h
  obtain ⟨k, p, -, rfl⟩ := Statement.ofTokens_eq_error_iff.mp h
  cases hk : ts[k]? with
  | some t =>
    have ht : OneLine t.value := (Token.faithful_of_ofText hts t (List.mem_of_getElem? hk)).oneLine
    by_cases hp : p = .start
    · subst hp
      unfold Progress.fault Progress.refusal SyntaxError.message
      simp only [oneLine_append, quoted, ht, oneLine_repr, and_true]
      decide +kernel
    · rw [Progress.fault, Progress.refusal_of_ne_start hp]
      unfold SyntaxError.message
      simp only [oneLine_append, quoted, ht, oneLine_repr, p.oneLine_expected, and_true]
      decide +kernel
  | none =>
    unfold Progress.fault SyntaxError.message
    simp only [oneLine_append, oneLine_repr, p.oneLine_expected, and_true]
    decide +kernel

/-! ## Table errors -/

theorem TokenKind.oneLine_text (kind : TokenKind) : OneLine kind.text := by
  cases kind <;> decide +kernel

theorem oneLine_bracketed {ts : List Token} (h : ∀ t ∈ ts, OneLine t.value) : OneLine (bracketed ts) := by
  have hlist : OneLine (", ".intercalate (ts.map (·.value))) :=
    OneLine.intercalate (by decide) (List.forall_mem_map.mpr h)
  simp only [bracketed, oneLine_append, hlist, and_true]
  decide +kernel

theorem Condition.WellFormed.oneLine {c : Condition} (h : c.WellFormed) : OneLine c.text := by
  obtain ⟨⟨hc, -⟩, ⟨ho, -⟩, ⟨hv, -⟩⟩ := h
  simp only [Condition.text, oneLine_append, hc.oneLine, ho.oneLine, hv.oneLine, and_true]
  decide +kernel

/-- The names of the table and of its columns are single lines. -/
structure Schema.IsLegible (s : Schema) : Prop where
  table : OneLine s.table
  columns : ∀ c ∈ s.columns, OneLine c.name

theorem Schema.IsLegible.columnList {s : Schema} (h : s.IsLegible) : OneLine s.columnList := by
  refine OneLine.intercalate (by decide) (List.forall_mem_map.mpr fun c hc => ?_)
  have htype : OneLine c.type.name := by cases c.type <;> decide +kernel
  simp only [oneLine_append, h.columns c hc, htype, and_true]
  decide +kernel

namespace TableError

/-- What the error repeats is on single lines. -/
def IsLegible : TableError → Prop
  | unknownTable name | existingTable name | unknownType name | unknownEngine name | unknownOperator name =>
    OneLine name
  | unknownColumn schema column => schema.IsLegible ∧ OneLine column
  | repeatedColumn table column => OneLine table ∧ OneLine column
  | outOfOrder schema requested => schema.IsLegible ∧ ∀ t ∈ requested, OneLine t.value
  | unfitValue column value => OneLine column.name ∧ OneLine value.value
  | wrongCount values _ => ∀ t ∈ values, OneLine t.value
  | incomparable condition _ => OneLine condition.text

theorem IsLegible.message {e : TableError} (h : e.IsLegible) : OneLine e.message := by
  unfold TableError.message
  cases e with
  | unknownTable name | existingTable name | unknownType name | unknownEngine name | unknownOperator name =>
    replace h : OneLine name := h
    simp only [oneLine_append, h, and_true]
    decide +kernel
  | unknownColumn schema column =>
    obtain ⟨hs, hc⟩ := h
    simp only [oneLine_append, hs.table, hs.columnList, hc, and_true]
    decide +kernel
  | repeatedColumn table column =>
    obtain ⟨ht, hc⟩ := h
    simp only [oneLine_append, ht, hc, and_true]
    decide +kernel
  | outOfOrder schema requested =>
    obtain ⟨hs, hr⟩ := h
    have hnames : OneLine (", ".intercalate schema.names) :=
      OneLine.intercalate (by decide) (List.forall_mem_map.mpr hs.columns)
    simp only [oneLine_append, oneLine_bracketed hr, hnames, and_true]
    decide +kernel
  | unfitValue column value =>
    obtain ⟨hc, hv⟩ := h
    simp only [oneLine_append, hc, hv, TokenKind.oneLine_text, and_true]
    decide +kernel
  | wrongCount values expected =>
    simp only [oneLine_append, oneLine_bracketed h, oneLine_repr, and_true]
    decide +kernel
  | incomparable condition expected =>
    replace h : OneLine condition.text := h
    simp only [oneLine_append, h, TokenKind.oneLine_text, and_true]
    decide +kernel

end TableError

/-! ## Computations with legible errors -/

/-- If the computation fails, its error is legible. -/
def Legible {α : Type} (x : Except TableError α) : Prop :=
  ∀ e, x = .error e → e.IsLegible

namespace Legible

variable {α β : Type}

theorem ok (a : α) : Legible (.ok a) :=
  nofun

theorem error {e : TableError} (h : e.IsLegible) : Legible (.error e : Except TableError α) := by
  intro e' he
  cases he
  exact h

theorem bind {x : Except TableError α} {f : α → Except TableError β} (hx : Legible x)
    (hf : ∀ a, x = .ok a → Legible (f a)) : Legible (x >>= f) := by
  intro e he
  rcases bind_eq_error_iff.mp he with he | ⟨a, ha, he⟩
  · exact hx e he
  · exact hf a ha e he

theorem mapM {f : α → Except TableError β} {as : List α} (h : ∀ a ∈ as, Legible (f a)) : Legible (as.mapM f) := by
  induction as with
  | nil => exact ok []
  | cons a as ih =>
    obtain ⟨ha, has⟩ := List.forall_mem_cons.mp h
    rw [List.mapM_cons]
    exact ha.bind fun b _ => (ih has).bind fun bs _ => ok _

end Legible

namespace Schema

variable {s : Schema}

theorem legible_slotOf (h : s.IsLegible) {name : Token} (hn : OneLine name.value) : Legible (s.slotOf name) := by
  unfold slotOf
  split
  · exact .ok _
  · exact .error ⟨h, hn⟩

theorem legible_slotsFrom (h : s.IsLegible) {requested names : List Token} (hr : ∀ t ∈ requested, OneLine t.value)
    (hn : ∀ t ∈ names, OneLine t.value) (least : Nat) : Legible (s.slotsFrom requested least names) := by
  induction names generalizing least with
  | nil => exact .ok _
  | cons name names ih =>
    obtain ⟨hname, hnames⟩ := List.forall_mem_cons.mp hn
    refine (legible_slotOf h hname).bind fun slot _ => ?_
    split
    · exact .error ⟨h, hr⟩
    · exact (ih hnames _).bind fun slots _ => .ok _

theorem legible_cellOf {slot : Slot} (hs : OneLine slot.column.name) {value : Token} (hv : OneLine value.value) :
    Legible (slot.cellOf value) := by
  refine Legible.bind ?_ fun cell _ => .ok _
  unfold Column.cellOf
  split
  · split
    · exact .ok _
    · exact .error ⟨hs, hv⟩
  · exact .error ⟨hs, hv⟩

theorem legible_rowOf (h : s.IsLegible) {targets : List Slot} (ht : ∀ slot ∈ targets, slot ∈ s.slots)
    {values : List Token} (hv : ∀ t ∈ values, OneLine t.value) : Legible (s.rowOf targets values) := by
  unfold rowOf
  split
  · refine (Legible.mapM fun pair hp => ?_).bind fun cells _ => .ok _
    obtain ⟨hslot, hvalue⟩ := List.of_mem_zip hp
    have hcolumn := List.mem_of_getElem? (mem_slots.mp (ht _ hslot))
    exact legible_cellOf (h.columns _ hcolumn) (hv _ hvalue)
  · exact .error hv

theorem legible_rowsOf (h : s.IsLegible) {i : Insertion} (hi : (Statement.insert i).WellFormed) :
    Legible (s.rowsOf i) := by
  obtain ⟨-, hnames, -, hsets⟩ := hi
  have hn : ∀ t ∈ i.columns, OneLine t.value := fun t ht => (hnames t ht).1.oneLine
  refine Legible.bind ?_ fun targets ht => Legible.mapM fun values hv => ?_
  · unfold Schema.targets
    split
    · exact .ok _
    · exact legible_slotsFrom h hn hn 0
  · exact legible_rowOf h (mem_slots_of_targets ht) fun t hm => ((hsets values hv).2 t hm).1.oneLine

theorem legible_addColumn (hs : OneLine s.table) {c : ColumnDefinition} (hc : c.WellFormed) :
    Legible (s.addColumn c) := by
  obtain ⟨⟨hn, -⟩, hd, -⟩ := hc
  unfold addColumn
  split
  · exact .error ⟨hs, hn.oneLine⟩
  · refine Legible.bind ?_ fun type _ => .ok _
    unfold ColumnType.ofToken
    simp only
    split
    · exact .ok _
    split
    · exact .ok _
    · exact .error hd.oneLine

/-- The columns of a definition are entered one after the other, and the name of the table stays as it is. -/
theorem legible_foldlM (hs : OneLine s.table) {cs : List ColumnDefinition} (hc : ∀ c ∈ cs, c.WellFormed) :
    Legible (cs.foldlM addColumn s) := by
  induction cs generalizing s with
  | nil => exact .ok _
  | cons c cs ih =>
    obtain ⟨hc, hcs⟩ := List.forall_mem_cons.mp hc
    refine (legible_addColumn hs hc).bind fun s' h => ih ?_ hcs
    obtain ⟨column, -, -, rfl⟩ := addColumn_eq_ok_iff.mp h
    exact hs

end Schema

namespace Table

theorem legible_ofDefinition {d : TableDefinition} (hd : (Statement.create d).WellFormed) :
    Legible (Table.ofDefinition d) := by
  obtain ⟨engine, he⟩ := exists_engine_of_wellFormed hd
  obtain ⟨⟨hn, -⟩, ⟨-, hcs⟩, -⟩ := hd
  have hengine : Legible (Engine.ofToken d.engine) := he ▸ .ok engine
  exact hengine.bind fun _ _ => (Schema.legible_foldlM hn.oneLine hcs).bind fun _ _ => .ok _

theorem legible_select {t : Table} (ht : t.schema.IsLegible) (hrows : ∀ r ∈ t.rows, Row.Fits t.schema.columns r)
    (hn : t.schema.names.Nodup) {q : Selection} (hq : (Statement.select q).WellFormed) : Legible (t.select q) := by
  obtain ⟨hp, -, hcs⟩ := hq
  intro e he
  have hm : e ∈ t.schema.faults q := List.mem_of_head? ((select_eq_error_iff hrows hn hcs).mp he)
  rcases List.mem_append.mp hm with hm | hm
  · obtain ⟨name, hname, hf⟩ := List.mem_filterMap.mp hm
    have hlegible : OneLine name.value := by
      cases hproj : q.projection with
      | all => rw [hproj] at hname; exact absurd hname List.not_mem_nil
      | columns names => rw [hproj] at hp hname; exact (hp.2 name hname).1.oneLine
    unfold Schema.nameFault? at hf
    split at hf
    · nomatch hf
    · cases hf
      exact ⟨ht, hlegible⟩
  · obtain ⟨c, hc, hf⟩ := List.mem_filterMap.mp hm
    unfold Schema.conditionFault? at hf
    split at hf
    · cases hf
      exact ⟨ht, (hcs c hc).1.1.oneLine⟩
    · split at hf
      · nomatch hf
      · cases hf
        exact (hcs c hc).oneLine

theorem Proper.isLegible {name : String} {t : Table} (h : t.Proper name) : t.schema.IsLegible where
  table := by
    rw [h.named]
    exact h.isName.1.oneLine
  columns c hc := (h.columnNames c hc).1.oneLine

end Table

end Tabular
