import Mathlib.Data.List.Nodup
import Tabular.Proofs.Schema.Definition
import Tabular.Session.Run

/-!
# The steps of a session

Everything that carrying out a request can do (`Session.Step`, `Session.step_run`): most requests leave the session as
it is, an insertion puts one table with more rows into the place of the old one, and a definition adds a table and
enters it into the catalog. Every session that requests lead to is sound (`Session.sound_after`): no name stands for two
tables, every table is sound, and the catalog is there with its own layout.
-/

namespace Tabular

namespace Session

/-- The names of the tables in the order in which they were created. -/
def names (s : Session) : List String :=
  s.tables.map Prod.fst

/-- The session after requests that are carried out one after the other. -/
def after (s : Session) (requests : List String) : Session :=
  requests.foldl (fun s request => (s.run request).2) s

theorem after_append (s : Session) (before later : List String) :
    s.after (before ++ later) = (s.after before).after later :=
  List.foldl_append

/-- The requests in order, each with what it comes to and the session after it. -/
def trace (s : Session) : List String → List (String × Outcome)
  | [] => []
  | r :: rs => (r, s.run r) :: (s.run r).2.trace rs

/-! ## What a request can do -/

/-- What a request can come to, by how it reads. -/
inductive Step (s : Session) : Except SyntaxError Statement → Outcome → Prop where
  | malformed (e : SyntaxError) : Step s (.error e) (.error (.syntaxError e), s)
  | refused (statement : Statement) (e : RequestError) : Step s (.ok statement) (.error e, s)
  | selected (q : Selection) (lines : List (List String)) : Step s (.ok (.select q)) (.ok (.rows lines), s)
  | shown (name : Token) (text : String) : Step s (.ok (.showCreate name)) (.ok (.text text), s)
  | inserted {i : Insertion} {t : Table} {rows : List Row} (hn : i.table.value ≠ catalogName)
      (ht : s.table? i.table.value = some t) (hr : t.schema.rowsOf i = .ok rows) :
      Step s (.ok (.insert i)) (.ok .done, s.put i.table.value (t.append rows))
  | created {d : TableDefinition} {t : Table} (hn : s.table? d.name.value = none) (ht : Table.ofDefinition d = .ok t) :
      Step s (.ok (.create d)) (.ok .done, (s.add d.name.value t).register d.name.value t.engine)

theorem step_create (s : Session) (d : TableDefinition) : Step s (.ok (.create d)) (s.create d) := by
  unfold create fail
  simp only
  split
  · exact .refused _ _
  · rename_i hn
    split
    · exact .created (by simpa using hn) ‹_›
    · exact .refused _ _

theorem step_insert (s : Session) (i : Insertion) : Step s (.ok (.insert i)) (s.insert i) := by
  unfold insert fail
  simp only
  split
  · exact .refused _ _
  · rename_i hn
    split
    · rename_i t ht
      split
      · rename_i h
        obtain ⟨rows, hr, rfl, -⟩ := Table.insert_eq_ok_iff.mp h
        exact .inserted hn ht hr
      · exact .refused _ _
    · exact .refused _ _

theorem step_select (s : Session) (q : Selection) : Step s (.ok (.select q)) (s.select q) := by
  unfold select fail
  split
  · split
    · exact .selected _ _
    · exact .refused _ _
  · exact .refused _ _

theorem step_showCreate (s : Session) (name : Token) : Step s (.ok (.showCreate name)) (s.showCreate name) := by
  unfold showCreate fail
  split
  · exact .shown _ _
  · exact .refused _ _

/-- Carrying out a request is one of the steps. -/
theorem step_run (s : Session) (request : String) : Step s (Statement.ofText request) (s.run request) := by
  unfold run
  split
  · rename_i statement h
    rw [h]
    cases statement with
    | create d => exact s.step_create d
    | insert i => exact s.step_insert i
    | select q => exact s.step_select q
    | showCreate name => exact s.step_showCreate name
  · rename_i e h
    rw [h]
    exact .malformed e

/-! ## Selections and shown definitions change nothing -/

theorem select_snd (s : Session) (q : Selection) : (s.select q).2 = s := by
  unfold Session.select
  split
  · split <;> rfl
  · rfl

theorem showCreate_snd (s : Session) (name : Token) : (s.showCreate name).2 = s := by
  unfold Session.showCreate
  split <;> rfl

/-! ## Definitions and insertions, case by case -/

section Cases

variable {s : Session} {t : Table} {e : TableError}

theorem create_existing {d : TableDefinition} (ht : s.table? d.name.value = some t) :
    s.create d = s.fail (.existingTable d.name.value) := by
  simp [create, ht]

theorem create_refused {d : TableDefinition} {engine : Engine} (ht : s.table? d.name.value = none)
    (he : Engine.ofToken d.engine = .ok engine) (hd : Schema.ofDefinition d = .error e) : s.create d = s.fail e := by
  have hx : Table.ofDefinition d = .error e := by rw [Table.ofDefinition, he, hd]; rfl
  simp [create, ht, hx]

theorem create_done {d : TableDefinition} {engine : Engine} {schema : Schema} (ht : s.table? d.name.value = none)
    (he : Engine.ofToken d.engine = .ok engine) (hd : Schema.ofDefinition d = .ok schema) :
    s.create d = (.ok .done, (s.add d.name.value (.empty schema engine)).register d.name.value engine) := by
  have hx : Table.ofDefinition d = .ok (.empty schema engine) := by rw [Table.ofDefinition, he, hd]; rfl
  have hengine : (Table.empty schema engine).engine = engine := Storage.engine_empty _ _
  simp [create, ht, hx, hengine]

theorem insert_readOnly {i : Insertion} (hn : i.table.value = catalogName) :
    s.insert i = (.error (.readOnly i.table.value), s) := by
  simp [insert, hn]

theorem insert_unknown {i : Insertion} (hn : i.table.value ≠ catalogName) (ht : s.table? i.table.value = none) :
    s.insert i = s.fail (.unknownTable i.table.value) := by
  simp [insert, hn, ht]

theorem insert_refused {i : Insertion} (hn : i.table.value ≠ catalogName) (ht : s.table? i.table.value = some t)
    (hr : t.schema.rowsOf i = .error e) : s.insert i = s.fail e := by
  have hx : t.insert i = .error e := by rw [Table.insert, hr]; rfl
  simp [insert, hn, ht, hx]

theorem insert_done {i : Insertion} {rows : List Row} (hn : i.table.value ≠ catalogName)
    (ht : s.table? i.table.value = some t) (hr : t.schema.rowsOf i = .ok rows) :
    s.insert i = (.ok .done, s.put i.table.value (t.append rows)) := by
  have hx : t.insert i = .ok (t.append rows, rows.length) := by rw [Table.insert, hr]; rfl
  simp [insert, hn, ht, hx]

end Cases

/-! ## Tables by name -/

section Tables

variable {s : Session} {name other : String} {t u : Table}

theorem names_put : (s.put name t).names = s.names := by
  simp [names, put]

theorem names_add : (s.add name t).names = s.names ++ [name] := by
  simp [names, add]

theorem mem_tables_of_table? (h : s.table? name = some t) : (name, t) ∈ s.tables := by
  obtain ⟨l, l', hl, -⟩ := List.lookup_eq_some_iff.mp h
  rw [hl]
  exact List.mem_append_right _ List.mem_cons_self

theorem not_mem_names (h : s.table? name = none) : name ∉ s.names := by
  intro hn
  obtain ⟨entry, he, rfl⟩ := List.mem_map.mp hn
  have hne := List.lookup_eq_none_iff.mp h entry he
  simp at hne

theorem mem_names_iff : name ∈ s.names ↔ (s.table? name).isSome := by
  constructor
  · intro h
    rw [Option.isSome_iff_ne_none]
    exact fun hn => not_mem_names hn h
  · intro h
    obtain ⟨t, ht⟩ := Option.isSome_iff_exists.mp h
    exact List.mem_map_of_mem (mem_tables_of_table? ht)

/-- Where no name stands for two tables, each of them is the one that is found under its name. -/
theorem table?_of_mem (hs : s.names.Nodup) (h : (name, t) ∈ s.tables) :
    s.table? name = some t :=
  lookup_eq_some_of_mem hs h

theorem table?_put_self (h : s.table? name = some t) : (s.put name u).table? name = some u := by
  rw [table?_put, h, Option.map_some, if_pos rfl]

theorem table?_put_of_ne (h : other ≠ name) : (s.put name u).table? other = s.table? other := by
  rw [table?_put]
  simp [h]

theorem table?_add_self (h : s.table? name = none) : (s.add name t).table? name = some t := by
  rw [table?_add, h, if_pos rfl]
  rfl

theorem table?_add_of_ne (h : other ≠ name) : (s.add name t).table? other = s.table? other := by
  rw [table?_add, if_neg h, Option.or_none]

theorem table?_new_of_ne (h : name ≠ catalogName) : new.table? name = none := by
  simp [new, table?, List.lookup_cons, beq_eq_false_iff_ne.mpr h]

theorem register_eq {engine : Engine} (h : s.table? catalogName = some t) :
    s.register name engine = s.put catalogName (t.append [catalogRow name engine]) := by
  rw [register, h]

theorem table?_register (s : Session) (name other : String) (engine : Engine) :
    (s.register name engine).table? other =
      (s.table? other).map fun t => if other = catalogName then t.append [catalogRow name engine] else t := by
  cases hc : s.table? catalogName with
  | none =>
    have hr : s.register name engine = s := by rw [register, hc]
    rw [hr]
    by_cases ho : other = catalogName
    · rw [ho, hc, Option.map_none]
    · simp [ho]
  | some c =>
    rw [register_eq hc, table?_put]
    by_cases ho : other = catalogName
    · simp [ho, hc]
    · simp [ho]

/-! ### What holds of every table -/

variable {P : String → Table → Prop}

theorem forall_tables_put (h : ∀ name t, s.table? name = some t → P name t) (hu : P name u) :
    ∀ other t, (s.put name u).table? other = some t → P other t := by
  intro other t ht
  rw [table?_put] at ht
  obtain ⟨v, hv, rfl⟩ := Option.map_eq_some_iff.mp ht
  by_cases ho : other = name
  · rw [if_pos ho, ho]
    exact hu
  · rw [if_neg ho]
    exact h other v hv

theorem forall_tables_add (h : ∀ name t, s.table? name = some t → P name t) (ht : P name t) :
    ∀ other u, (s.add name t).table? other = some u → P other u := by
  intro other u hu
  rw [table?_add, Option.or_eq_some_iff] at hu
  rcases hu with hu | ⟨-, hu⟩
  · exact h other u hu
  · split at hu
    · rename_i ho
      rw [Option.some.injEq] at hu
      rw [ho, ← hu]
      exact ht
    · nomatch hu

theorem forall_tables_register {engine : Engine} (h : ∀ name t, s.table? name = some t → P name t)
    (hc : ∀ t, s.table? catalogName = some t → P catalogName (t.append [catalogRow name engine])) :
    ∀ other t, (s.register name engine).table? other = some t → P other t := by
  intro other t ht
  rw [table?_register] at ht
  obtain ⟨u, hu, rfl⟩ := Option.map_eq_some_iff.mp ht
  by_cases ho : other = catalogName
  · subst ho
    rw [if_pos rfl]
    exact hc u hu
  · rw [if_neg ho]
    exact h other u hu

end Tables

/-! ## Sound sessions -/

/-- Names are unique, tables are sound, and the catalog is there. -/
structure Sound (s : Session) : Prop where
  nodup : s.names.Nodup
  tables : ∀ name t, s.table? name = some t → t.Sound
  catalog : ∃ t, s.table? catalogName = some t ∧ t.schema = catalogSchema

theorem catalogRow_fits (name : String) (engine : Engine) :
    ∀ r ∈ [catalogRow name engine], Row.Fits catalogSchema.columns r :=
  List.forall_mem_singleton.mpr (.cons rfl (.cons rfl .nil))

variable {s : Session}

/-- A table may get more rows that fit. -/
theorem Sound.put {name : String} {t : Table} {rows : List Row} (h : s.Sound) (ht : s.table? name = some t)
    (hr : ∀ r ∈ rows, Row.Fits t.schema.columns r) : (s.put name (t.append rows)).Sound where
  nodup := by rw [names_put]; exact h.nodup
  tables := forall_tables_put h.tables ((h.tables _ t ht).append hr)
  catalog := by
    obtain ⟨c, hc, hs⟩ := h.catalog
    by_cases hn : catalogName = name
    · subst hn
      rw [ht, Option.some.injEq] at hc
      exact ⟨_, table?_put_self ht, hc ▸ hs⟩
    · exact ⟨c, by rw [table?_put_of_ne hn, hc], hs⟩

theorem Sound.add {name : String} {t : Table} (h : s.Sound) (hn : s.table? name = none) (ht : t.Sound) :
    (s.add name t).Sound where
  nodup := by
    rw [names_add, ← List.concat_eq_append]
    exact List.Nodup.concat (not_mem_names hn) h.nodup
  tables := forall_tables_add h.tables ht
  catalog := by
    obtain ⟨c, hc, hs⟩ := h.catalog
    refine ⟨c, ?_, hs⟩
    rw [table?_add, hc]
    rfl

theorem Sound.register {name : String} {engine : Engine} (h : s.Sound) : (s.register name engine).Sound := by
  obtain ⟨c, hc, hs⟩ := h.catalog
  rw [register_eq hc]
  exact h.put hc (hs ▸ catalogRow_fits name engine)

theorem sound_new : new.Sound where
  nodup := List.pairwise_singleton _ _
  tables name t ht := by
    cases List.mem_singleton.mp (mem_tables_of_table? ht)
    exact (Table.sound_empty catalogSchema .linear).append (catalogRow_fits _ _)
  catalog := ⟨newCatalog, rfl, rfl⟩

/-- No request makes a sound session unsound. -/
theorem Step.sound {parsed : Except SyntaxError Statement} {outcome : Outcome} (h : Step s parsed outcome)
    (hs : s.Sound) : outcome.2.Sound := by
  cases h with
  | malformed | refused | selected | shown => exact hs
  | inserted hn ht hr => exact hs.put ht (Schema.rowsOf_fits hr)
  | created hn ht => exact (hs.add hn (Table.sound_ofDefinition ht)).register

theorem Sound.after (h : s.Sound) (requests : List String) : (s.after requests).Sound := by
  induction requests generalizing s with
  | nil => exact h
  | cons request requests ih => exact ih ((s.step_run request).sound h)

/-- Every session that requests lead to is sound. -/
theorem sound_after (requests : List String) : (new.after requests).Sound :=
  sound_new.after requests

end Session
end Tabular
