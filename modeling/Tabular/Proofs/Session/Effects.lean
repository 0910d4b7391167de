import Tabular.Proofs.Session.Step
import Tabular.Proofs.Statement.RoundTrip

/-!
# What requests change

A request is carried out as a whole or not at all, and it changes only what it names (`Session.Effect`). A request that
fails changes nothing, and neither does a selection or a shown definition; an insertion adds rows at the end of one
table (`Session.Inserted`), and a definition adds one empty table and one row at the end of the catalog
(`Session.Created`). So a session is only ever extended: tables stay with their layout and engine, and rows are only
added behind those that are there (`Session.Extends`). The main statement is `Session.effect_run`.
-/

namespace Tabular

/-- The second table is the first with the rows at its end. -/
structure Table.Grows (t : Table) (rows : List Row) (t' : Table) : Prop where
  schema : t'.schema = t.schema
  engine : t'.engine = t.engine
  rows : t'.rows = t.rows ++ rows

theorem Table.Grows.refl (t : Table) : t.Grows [] t :=
  ⟨rfl, rfl, (List.append_nil _).symm⟩

theorem Table.Grows.trans {t t' t'' : Table} {rows rows' : List Row} (h : t.Grows rows t') (h' : t'.Grows rows' t'') :
    t.Grows (rows ++ rows') t'' where
  schema := h'.schema.trans h.schema
  engine := h'.engine.trans h.engine
  rows := by rw [h'.rows, h.rows, List.append_assoc]

/-- Rows that fit are added at the end of a sound table. -/
theorem Table.Sound.grows {t : Table} {rows : List Row} (h : t.Sound)
    (hr : ∀ r ∈ rows, Row.Fits t.schema.columns r) : t.Grows rows (t.append rows) :=
  ⟨rfl, t.engine_append rows, h.rows_append hr⟩

namespace Session

/-! ## Effects -/

/-- The table that is named gets one row for each value set, in order, and nothing else changes. -/
structure Inserted (s : Session) (i : Insertion) (s' : Session) : Prop where
  writable : i.table.value ≠ catalogName
  table : ∃ t targets rows t', s.table? i.table.value = some t ∧ t.schema.targets i.columns = .ok targets ∧
    List.Forall₂ (fun values r => t.schema.rowOf targets values = .ok r) i.valueSets rows ∧
    s'.table? i.table.value = some t' ∧ t.Grows rows t'
  others : ∀ name, name ≠ i.table.value → s'.table? name = s.table? name
  names : s'.names = s.names

/-- There is one more table, which is empty and has the columns and the engine of the definition, the catalog gets one
row for it, and nothing else changes. -/
structure Created (s : Session) (d : TableDefinition) (s' : Session) : Prop where
  fresh : s.table? d.name.value = none
  table : ∃ t, s'.table? d.name.value = some t ∧ t.rows = [] ∧ t.schema.table = d.name.value ∧
    t.schema.columns.map (fun c => (c.name, c.type.name)) =
      d.columns.map (fun c => (c.name.value, c.datatype.value)) ∧ t.engine.name = d.engine.value
  catalog : ∃ c c', s.table? catalogName = some c ∧ s'.table? catalogName = some c' ∧
    c.Grows [[.text d.name.value, .text d.engine.value]] c'
  others : ∀ name, name ≠ d.name.value → name ≠ catalogName → s'.table? name = s.table? name
  names : s'.names = s.names ++ [d.name.value]

/-- What a request may come to, by how it reads. -/
inductive Effect (s : Session) : Except SyntaxError Statement → Outcome → Prop where
  | malformed (e : SyntaxError) : Effect s (.error e) (.error (.syntaxError e), s)
  | refused (statement : Statement) (e : RequestError) : Effect s (.ok statement) (.error e, s)
  | selected (q : Selection) (lines : List (List String)) : Effect s (.ok (.select q)) (.ok (.rows lines), s)
  | shown (name : Token) (text : String) : Effect s (.ok (.showCreate name)) (.ok (.text text), s)
  | inserted {i : Insertion} {s' : Session} (h : s.Inserted i s') : Effect s (.ok (.insert i)) (.ok .done, s')
  | created {d : TableDefinition} {s' : Session} (h : s.Created d s') : Effect s (.ok (.create d)) (.ok .done, s')

variable {s : Session}

theorem Sound.inserted {i : Insertion} {t : Table} {rows : List Row} (h : s.Sound) (hn : i.table.value ≠ catalogName)
    (ht : s.table? i.table.value = some t) (hr : t.schema.rowsOf i = .ok rows) :
    s.Inserted i (s.put i.table.value (t.append rows)) where
  writable := hn
  table := by
    obtain ⟨targets, hts, hrows⟩ := Schema.rowsOf_eq_ok_iff.mp hr
    have hg : t.Grows rows (t.append rows) := (h.tables _ t ht).grows (Schema.rowsOf_fits hr)
    exact ⟨t, targets, rows, _, ht, hts, hrows, table?_put_self ht, hg⟩
  others _ hne := table?_put_of_ne hne
  names := names_put

theorem Sound.created {d : TableDefinition} {t : Table} (h : s.Sound) (hd : (Statement.create d).WellFormed)
    (hn : s.table? d.name.value = none) (ht : Table.ofDefinition d = .ok t) :
    s.Created d ((s.add d.name.value t).register d.name.value t.engine) := by
  obtain ⟨hrows, htable, hcolumns, hengine⟩ := Table.ofDefinition_spec hd ht
  obtain ⟨c, hc, hs⟩ := h.catalog
  -- the new table is not the catalog, as there is a catalog already
  have hne : d.name.value ≠ catalogName := by
    intro he
    rw [he, hc] at hn
    nomatch hn
  have hc' : (s.add d.name.value t).table? catalogName = some c := by rw [table?_add_of_ne hne.symm, hc]
  rw [register_eq hc']
  refine ⟨hn, ⟨t, ?_, hrows, htable, hcolumns, hengine⟩, ⟨c, _, hc, table?_put_self hc', ?_⟩, ?_, ?_⟩
  · rw [table?_put_of_ne hne, table?_add_self hn]
  · rw [← hengine]
    exact (h.tables _ c hc).grows (hs ▸ catalogRow_fits _ _)
  · intro name ho hca
    rw [table?_put_of_ne hca, table?_add_of_ne ho]
  · rw [names_put, names_add]

/-- In a sound session every step has one of the effects. -/
theorem Step.effect {parsed : Except SyntaxError Statement} {outcome : Outcome} (h : Step s parsed outcome)
    (hs : s.Sound) (hw : ∀ statement, parsed = .ok statement → statement.WellFormed) : Effect s parsed outcome := by
  cases h with
  | malformed e => exact .malformed e
  | refused statement e => exact .refused statement e
  | selected q lines => exact .selected q lines
  | shown name text => exact .shown name text
  | inserted hn ht hr => exact .inserted (hs.inserted hn ht hr)
  | created hn ht => exact .created (hs.created (hw _ rfl) hn ht)

/-! ## Sessions only grow -/

/-- Every table is still there, with the same layout and engine and with its rows at the front. -/
def Extends (s s' : Session) : Prop :=
  ∀ name t, s.table? name = some t → ∃ t' rows, s'.table? name = some t' ∧ t.Grows rows t'

theorem Extends.refl (s : Session) : s.Extends s :=
  fun _ t ht => ⟨t, [], ht, .refl t⟩

theorem Extends.trans {s' s'' : Session} (h : s.Extends s') (h' : s'.Extends s'') : s.Extends s'' := by
  intro name t ht
  obtain ⟨t', rows, ht', hg⟩ := h name t ht
  obtain ⟨t'', rows', ht'', hg'⟩ := h' name t' ht'
  exact ⟨t'', rows ++ rows', ht'', hg.trans hg'⟩

theorem Inserted.extends {i : Insertion} {s' : Session} (h : s.Inserted i s') : s.Extends s' := by
  intro name t ht
  by_cases hn : name = i.table.value
  · subst hn
    obtain ⟨u, -, rows, t', hu, -, -, ht', hg⟩ := h.table
    rw [ht, Option.some.injEq] at hu
    subst hu
    exact ⟨t', rows, ht', hg⟩
  · exact ⟨t, [], by rw [h.others name hn, ht], .refl t⟩

theorem Created.extends {d : TableDefinition} {s' : Session} (h : s.Created d s') : s.Extends s' := by
  intro name t ht
  by_cases hc : name = catalogName
  · subst hc
    obtain ⟨c, c', hs, hs', hg⟩ := h.catalog
    rw [ht, Option.some.injEq] at hs
    subst hs
    exact ⟨c', _, hs', hg⟩
  · have hn : name ≠ d.name.value := by
      intro he
      rw [he, h.fresh] at ht
      nomatch ht
    exact ⟨t, [], by rw [h.others name hn hc, ht], .refl t⟩

theorem Effect.extends {parsed : Except SyntaxError Statement} {outcome : Outcome} (h : Effect s parsed outcome) :
    s.Extends outcome.2 := by
  cases h with
  | malformed | refused | selected | shown => exact .refl s
  | inserted h => exact h.extends
  | created h => exact h.extends

/-- In a sound session a request that is read from text has one of the effects. -/
theorem Sound.effect (h : s.Sound) (request : String) : Effect s (Statement.ofText request) (s.run request) :=
  (s.step_run request).effect h fun _ hs => Statement.wellFormed_of_ofText hs

/-- Requests extend a sound session, however many there are. -/
theorem Sound.extends_after (h : s.Sound) (requests : List String) : s.Extends (s.after requests) := by
  induction requests generalizing s with
  | nil => exact .refl s
  | cons request requests ih =>
    exact (h.effect request).extends.trans (ih ((s.step_run request).sound h))

/-- **Every request is carried out as a whole or not at all and changes only what it names.** After any requests, the
next one has one of the effects on the session, and whatever follows extends it. -/
theorem effect_run (before : List String) :
    (∀ request, Effect (new.after before) (Statement.ofText request) ((new.after before).run request)) ∧
      ∀ later, (new.after before).Extends (new.after (before ++ later)) := by
  have h := sound_after before
  refine ⟨h.effect, fun later => ?_⟩
  rw [after_append]
  exact h.extends_after later

end Session
end Tabular
