import Tabular.Proofs.Session.Effects

/-!
# What is shown of a table is the statement that made it

A table is shown by the text of its definition. It has the same parts as the definition that made it
(`Table.showCreate_eq_text`), and neither its layout nor its engine ever changes, so the request that created a table
comes back in its canonical form, whatever is carried out in between (`Session.Created.shown`). The main statement is
`Session.reproduces`.
-/

namespace Tabular

/-- The text of a definition depends on the values of its tokens only. -/
theorem TableDefinition.text_congr {d d' : TableDefinition} (hname : d.name.value = d'.name.value)
    (hcolumns : d.columns.map (fun c => (c.name.value, c.datatype.value)) =
      d'.columns.map fun c => (c.name.value, c.datatype.value))
    (hengine : d.engine.value = d'.engine.value) : d.text = d'.text := by
  have htexts (cs : List ColumnDefinition) : cs.map (·.text) =
      (cs.map fun c => (c.name.value, c.datatype.value)).map
        fun column => column.1 ++ " " ++ Text.uppercase column.2 := by
    rw [List.map_map]
    rfl
  unfold TableDefinition.text
  rw [hname, hengine, htexts, hcolumns, ← htexts]

/-- A table that has the parts of a definition is shown by its text. -/
theorem Table.showCreate_eq_text {d : TableDefinition} {t : Table} (hname : t.schema.table = d.name.value)
    (hcolumns : t.schema.columns.map (fun c => (c.name, c.type.name)) =
      d.columns.map fun c => (c.name.value, c.datatype.value))
    (hengine : t.engine.name = d.engine.value) : t.showCreate = d.text := by
  refine TableDefinition.text_congr hname ?_ hengine
  rw [← hcolumns]
  show (t.schema.columns.map _).map _ = _
  rw [List.map_map]
  rfl

/-- Rows that are added do not change what is shown. -/
theorem Table.Grows.showCreate {t t' : Table} {rows : List Row} (h : t.Grows rows t') :
    t'.showCreate = t.showCreate := by
  unfold Table.showCreate Table.definition
  rw [h.schema, h.engine]

namespace Session

variable {s s' s'' : Session} {d : TableDefinition}

/-- What was created is shown as it was written, in every session that extends the one after it. -/
theorem Created.shown (h : s.Created d s') (he : s'.Extends s'') {name : Token} (hn : name.value = d.name.value) :
    (s''.showCreate name).1 = .ok (.text d.text) := by
  obtain ⟨t, ht, -, htable, hcolumns, hengine⟩ := h.table
  obtain ⟨t', rows, ht', hgrows⟩ := he _ t ht
  have htext : t'.showCreate = d.text := by
    rw [hgrows.showCreate, Table.showCreate_eq_text htable hcolumns hengine]
  simp [Session.showCreate, hn, ht', htext]

/-- A definition that is carried out has created its table. -/
theorem Sound.created_of_run (hs : s.Sound) {text : String} {answer : Answer}
    (ht : Statement.ofText text = .ok (.create d)) (h : (s.run text).1 = .ok answer) : s.Created d (s.run text).2 := by
  have heffect := hs.effect text
  rw [ht] at heffect
  generalize s.run text = outcome at heffect h
  cases heffect with
  | refused => nomatch h
  | created hc => exact hc

/-- **What is shown of a table is the statement that made it.** A definition is accepted or reported at its first fault,
the definition of a layout makes an empty table of the layout, and the text that is shown of a table after any requests
is that of the definition that was carried out. -/
theorem reproduces :
    (∀ d : TableDefinition, d.Resolves) ∧
    (∀ (schema : Schema) (engine : Engine), schema.names.Nodup →
      ∃ t, Table.ofDefinition (schema.definition engine) = .ok t ∧ t.schema = schema ∧ t.engine = engine ∧
        t.rows = []) ∧
    ∀ (before between : List String) (text request : String) (d : TableDefinition) (answer : Answer) (name : Token),
      Statement.ofText text = .ok (.create d) → ((new.after before).run text).1 = .ok answer →
        Statement.ofText request = .ok (.showCreate name) → name.value = d.name.value →
          ((new.after (before ++ text :: between)).run request).1 = .ok (.text (Statement.create d).text) := by
  refine ⟨TableDefinition.resolves, fun schema engine hn => ?_, ?_⟩
  · exact ⟨_, Table.ofDefinition_definition hn engine, rfl, Storage.engine_empty _ _, Storage.rows_empty _ _⟩
  · intro before between text request d answer name ht h hr hn
    have hs := sound_after before
    have hcreated := hs.created_of_run ht h
    have hlater := ((step_run _ text).sound hs).extends_after between
    have hafter : new.after (before ++ text :: between) = ((new.after before).run text).2.after between := by
      rw [after_append]
      rfl
    rw [hafter, Session.run, hr]
    exact hcreated.shown hlater hn

/-- Types and engine in any case, and requests in between that fail, insert and create. -/
theorem reproduces_after_three_requests :
    let text := "create table t (a Int,\n b tEXT) engine COLUMN;"
    let between := ["CREATE TABLE t (c int) ENGINE linear;", "INSERT INTO t VALUES (1, x);",
      "CREATE TABLE u (c int) ENGINE linear;"]
    let d : TableDefinition := ⟨⟨"t", .identifier, 13⟩, [⟨⟨"a", .identifier, 16⟩, ⟨"int", .datatype, 18⟩⟩,
      ⟨⟨"b", .identifier, 24⟩, ⟨"text", .datatype, 26⟩⟩], ⟨"column", .engine, 39⟩⟩
    Statement.ofText text = .ok (.create d) ∧ ((new.after []).run text).1 = .ok .done ∧
      Statement.ofText "show create (t);" = .ok (.showCreate ⟨"t", .identifier, 13⟩) ∧
        ((new.after ([] ++ text :: between)).run "show create (t);").1 =
          .ok (.text "CREATE TABLE t (a INT, b TEXT) ENGINE column;") := by
  intro text between d
  have ht : Statement.ofText text = .ok (.create d) := by decide +kernel
  have h : ((new.after []).run text).1 = .ok .done := by decide +kernel
  have hr : Statement.ofText "show create (t);" = .ok (.showCreate ⟨"t", .identifier, 13⟩) := by decide +kernel
  have htext : (Statement.create d).text = "CREATE TABLE t (a INT, b TEXT) ENGINE column;" := by decide +kernel
  have hshown := reproduces.2.2 [] between text _ d .done _ ht h hr rfl
  rw [htext] at hshown
  exact ⟨ht, h, hr, hshown⟩

end Session
end Tabular
