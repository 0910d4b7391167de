import Tabular.Proofs.Session.Step
import Tabular.Proofs.Statement.EngineWord

/-!
# The engines are alike

Two lists of requests that differ only in the engine words of definitions (`EngineVariant`) lead through sessions that
cannot be told apart but by the engines themselves: at every step the results are the same (`Session.SameResult`) and so
is what the sessions hold (`Session.Alike`). The main statement is `Session.trace_alike`.

The proof is a simulation. Matching sessions (`Session.Matches`) are sound and have the same tables in the same order,
with the same layouts and, the catalog aside, with the same rows; one request keeps them so (`Matches.run`).
-/

namespace Tabular

/-- The second request is the first one, or it is a definition in which the engine word has been exchanged. -/
def EngineVariant (r r' : String) : Prop :=
  r' = r ∨ SwapsEngine r r'

namespace Session

/-- The results of a request are the same, but the engine of a definition that is shown may be another one, and
selections from the catalog are not compared. -/
inductive SameResult (request : String) : Except RequestError Answer → Except RequestError Answer → Prop where
  | same (result : Except RequestError Answer) : SameResult request result result
  | shown {name : Token} (h : Statement.ofText request = .ok (.showCreate name)) (front : String) (e e' : Engine) :
      SameResult request (.ok (.text (front ++ e.name ++ ";"))) (.ok (.text (front ++ e'.name ++ ";")))
  | catalog {q : Selection} (h : Statement.ofText request = .ok (.select q)) (hq : q.table.value = catalogName)
      (result result' : Except RequestError Answer) : SameResult request result result'

/-- The sessions have the same names with the same numbers of rows, tables of one name have the same layout, and the
catalog aside they have the same rows, also when these are visited. -/
structure Alike (s s' : Session) : Prop where
  tableCount : s.tableCount = s'.tableCount
  rowCounts : s.rowCounts = s'.rowCounts
  schema : ∀ name t t', s.table? name = some t → s'.table? name = some t' → t.schema = t'.schema
  rows : ∀ name t t', name ≠ catalogName → s.table? name = some t → s'.table? name = some t' → t.rows = t'.rows
  scan : ∀ name t t', name ≠ catalogName → s.table? name = some t → s'.table? name = some t' →
    ∀ {m : Type → Type} [Monad m] [LawfulMonad m] (visit : Row → m Unit), t.forRows visit = t'.forRows visit

end Session

/-! ## Matching tables -/

/-- The tables of this name have the same layout, equally many rows and, if it is not the catalog, the same rows. -/
structure Table.Matches (name : String) (t t' : Table) : Prop where
  schema : t.schema = t'.schema
  rowCount : t.rowCount = t'.rowCount
  rows : name ≠ catalogName → t.rows = t'.rows

namespace Table

variable {name : String} {t t' : Table}

theorem rowCount_append (t : Table) (rows : List Row) : (t.append rows).rowCount = t.rowCount + rows.length :=
  Storage.rowCount_append t.storage rows

theorem Matches.append {rows : List Row} (h : Matches name t t') (ht : t.Sound) (ht' : t'.Sound)
    (hr : ∀ r ∈ rows, Row.Fits t.schema.columns r) : Matches name (t.append rows) (t'.append rows) where
  schema := h.schema
  rowCount := by rw [rowCount_append, rowCount_append, h.rowCount]
  rows hn := by rw [ht.rows_append hr, ht'.rows_append (h.schema ▸ hr), h.rows hn]

/-- The rows of the catalog may differ, but not in number. -/
theorem Matches.append_catalog (h : Matches catalogName t t') (r r' : Row) :
    Matches catalogName (t.append [r]) (t'.append [r']) where
  schema := h.schema
  rowCount := by rw [rowCount_append, rowCount_append, h.rowCount]; rfl
  rows hn := absurd rfl hn

theorem matches_empty (name : String) (schema : Schema) (e e' : Engine) :
    Matches name (empty schema e) (empty schema e') where
  schema := rfl
  rowCount := by cases e <;> cases e' <;> rfl
  rows _ := (Storage.rows_empty e schema.columns).trans (Storage.rows_empty e' schema.columns).symm

/-- The layout and the rows are all that a selection looks at. -/
theorem select_congr (hs : t.schema = t'.schema) (hr : t.rows = t'.rows) (q : Selection) : t.select q = t'.select q := by
  unfold Table.select
  rw [hs, hr]

/-- The engine word is the last but one part of the text that is shown. -/
theorem exists_showCreate (schema : Schema) :
    ∃ front, ∀ t : Table, t.schema = schema → t.showCreate = front ++ t.engine.name ++ ";" :=
  ⟨"CREATE TABLE " ++ schema.table ++ " (" ++ ", ".intercalate ((schema.definition .linear).columns.map (·.text)) ++
      ") ENGINE ", fun t ht => by subst ht; rfl⟩

end Table

namespace Session

/-! ## Matching sessions -/

/-- The sessions have the same names in the same order, and the tables match. -/
def SameTables (s s' : Session) : Prop :=
  List.Forall₂ (fun a b => a.1 = b.1 ∧ Table.Matches a.1 a.2 b.2) s.tables s'.tables

variable {s s' : Session} {name : String} {t t' : Table}

theorem SameTables.table? (h : s.SameTables s') (name : String) :
    s.table? name = none ∧ s'.table? name = none ∨
      ∃ t t', s.table? name = some t ∧ s'.table? name = some t' ∧ Table.Matches name t t' := by
  obtain ⟨tables⟩ := s
  obtain ⟨tables'⟩ := s'
  unfold SameTables at h
  simp only [Session.table?] at h ⊢
  induction h with
  | nil => exact .inl ⟨rfl, rfl⟩
  | @cons a b as bs hab _ ih =>
    obtain ⟨n, t⟩ := a
    obtain ⟨n', t'⟩ := b
    obtain ⟨rfl, hm⟩ := hab
    rw [List.lookup_cons, List.lookup_cons]
    by_cases hn : name = n
    · subst hn
      exact .inr ⟨t, t', by simp, by simp, hm⟩
    · rw [beq_eq_false_iff_ne.mpr hn]
      exact ih

theorem SameTables.rowCounts (h : s.SameTables s') : s.rowCounts = s'.rowCounts := by
  unfold Session.rowCounts
  congr 1
  rw [← List.forall₂_eq_eq_eq, List.forall₂_map_left_iff, List.forall₂_map_right_iff]
  refine List.Forall₂.imp (fun a b hab => ?_) h
  obtain ⟨hn, hm⟩ := hab
  exact Prod.ext hn hm.rowCount

theorem SameTables.put (h : s.SameTables s') (ht : Table.Matches name t t') :
    (s.put name t).SameTables (s'.put name t') := by
  unfold SameTables Session.put
  rw [List.forall₂_map_left_iff, List.forall₂_map_right_iff]
  refine List.Forall₂.imp (fun a b hab => ?_) h
  obtain ⟨n, u⟩ := a
  obtain ⟨n', u'⟩ := b
  obtain ⟨rfl, hm⟩ := hab
  refine ⟨rfl, ?_⟩
  by_cases hn : n = name
  · simpa [hn] using ht
  · simpa [hn] using hm

theorem SameTables.add (h : s.SameTables s') (ht : Table.Matches name t t') :
    (s.add name t).SameTables (s'.add name t') :=
  List.rel_append h (.cons ⟨rfl, ht⟩ .nil)

theorem SameTables.register (h : s.SameTables s') (name : String) (e e' : Engine) :
    (s.register name e).SameTables (s'.register name e') := by
  obtain ⟨hn, hn'⟩ | ⟨c, c', hc, hc', hm⟩ := h.table? catalogName
  · rw [Session.register, Session.register, hn, hn']
    exact h
  · rw [register_eq hc, register_eq hc']
    exact h.put (hm.append_catalog _ _)

/-! ## One request -/

section Requests

variable (h : s.SameTables s')
include h

/-- Definitions that differ in the engine come to the same. -/
theorem SameTables.create {d d' : TableDefinition} {e e' : Engine} (hn : d.name.value = d'.name.value)
    (hs : Schema.ofDefinition d = Schema.ofDefinition d') (he : Engine.ofToken d.engine = .ok e)
    (he' : Engine.ofToken d'.engine = .ok e') :
    (s.create d).1 = (s'.create d').1 ∧ (s.create d).2.SameTables (s'.create d').2 := by
  obtain ⟨ht, ht'⟩ | ⟨t, t', ht, ht', -⟩ := h.table? d.name.value
  · rw [hn] at ht'
    cases hd : Schema.ofDefinition d with
    | error x =>
      rw [create_refused ht he hd, create_refused ht' he' (hs ▸ hd)]
      exact ⟨rfl, h⟩
    | ok schema =>
      rw [create_done ht he hd, create_done ht' he' (hs ▸ hd), hn]
      exact ⟨rfl, (h.add (Table.matches_empty _ schema e e')).register _ _ _⟩
  · rw [hn] at ht'
    rw [create_existing ht, create_existing ht', hn]
    exact ⟨rfl, h⟩

theorem SameTables.insert (hs : s.Sound) (hs' : s'.Sound) (i : Insertion) :
    (s.insert i).1 = (s'.insert i).1 ∧ (s.insert i).2.SameTables (s'.insert i).2 := by
  by_cases hn : i.table.value = catalogName
  · rw [insert_readOnly hn, insert_readOnly hn]
    exact ⟨rfl, h⟩
  obtain ⟨ht, ht'⟩ | ⟨t, t', ht, ht', hm⟩ := h.table? i.table.value
  · rw [insert_unknown hn ht, insert_unknown hn ht']
    exact ⟨rfl, h⟩
  cases hr : t.schema.rowsOf i with
  | error x =>
    rw [insert_refused hn ht hr, insert_refused hn ht' (hm.schema ▸ hr)]
    exact ⟨rfl, h⟩
  | ok rows =>
    rw [insert_done hn ht hr, insert_done hn ht' (hm.schema ▸ hr)]
    exact ⟨rfl, h.put (hm.append (hs.tables _ t ht) (hs'.tables _ t' ht') (Schema.rowsOf_fits hr))⟩

theorem SameTables.select {q : Selection} (hq : q.table.value ≠ catalogName) :
    (s.select q).1 = (s'.select q).1 := by
  obtain ⟨ht, ht'⟩ | ⟨t, t', ht, ht', hm⟩ := h.table? q.table.value
  · simp only [Session.select, ht, ht']
    rfl
  · simp only [Session.select, ht, ht', Table.select_congr hm.schema (hm.rows hq) q]
    split <;> rfl

theorem SameTables.showCreate {request : String} {name : Token}
    (hr : Statement.ofText request = .ok (.showCreate name)) :
    SameResult request (s.showCreate name).1 (s'.showCreate name).1 := by
  obtain ⟨ht, ht'⟩ | ⟨t, t', ht, ht', hm⟩ := h.table? name.value
  · simp only [Session.showCreate, ht, ht']
    exact .same _
  · obtain ⟨front, hf⟩ := Table.exists_showCreate t.schema
    simp only [Session.showCreate, ht, ht', hf t rfl, hf t' hm.schema.symm]
    exact .shown hr front t.engine t'.engine

end Requests

/-- Sound sessions with the same tables. -/
structure Matches (s s' : Session) : Prop where
  sound : s.Sound
  sound' : s'.Sound
  tables : s.SameTables s'

/-- Matching sessions answer a request alike and match after it. -/
theorem Matches.run (h : Matches s s') {r r' : String} (hr : EngineVariant r r') :
    SameResult r (s.run r).1 (s'.run r').1 ∧ Matches (s.run r).2 (s'.run r').2 := by
  suffices hm : SameResult r (s.run r).1 (s'.run r').1 ∧ (s.run r).2.SameTables (s'.run r').2 from
    ⟨hm.1, (s.step_run r).sound h.sound, (s'.step_run r').sound h.sound', hm.2⟩
  obtain rfl | hr := hr
  · unfold Session.run
    cases hp : Statement.ofText r' with
    | error x => exact ⟨.same _, h.tables⟩
    | ok statement =>
      cases statement with
      | create d =>
        obtain ⟨e, he⟩ := Table.exists_engine_of_wellFormed (Statement.wellFormed_of_ofText hp)
        obtain ⟨hres, htab⟩ := h.tables.create rfl rfl he he
        refine ⟨?_, htab⟩
        simp only [perform, hres]
        exact .same _
      | insert i =>
        obtain ⟨hres, htab⟩ := h.tables.insert h.sound h.sound' i
        refine ⟨?_, htab⟩
        simp only [perform, hres]
        exact .same _
      | select q =>
        simp only [perform, select_snd]
        refine ⟨?_, h.tables⟩
        by_cases hq : q.table.value = catalogName
        · exact .catalog hp hq _ _
        · rw [h.tables.select hq]
          exact .same _
      | showCreate name =>
        simp only [perform, showCreate_snd]
        exact ⟨h.tables.showCreate hp, h.tables⟩
  · obtain ⟨d, d', e, hd, hd', hsame⟩ := hr.ofText
    have hparts : d'.name.unplaced = d.name.unplaced ∧
        d'.columns.map (·.mapTokens Token.unplaced) = d.columns.map (·.mapTokens Token.unplaced) := by
      simp only [Statement.Same, Statement.mapTokens, Statement.create.injEq, TableDefinition.mk.injEq] at hsame
      exact ⟨hsame.1, hsame.2.1⟩
    have hn : d.name.value = d'.name.value := by
      have := congrArg Token.value hparts.1.symm
      exact this
    obtain ⟨e, he⟩ := Table.exists_engine_of_wellFormed (Statement.wellFormed_of_ofText hd)
    obtain ⟨e', he'⟩ := Table.exists_engine_of_wellFormed (Statement.wellFormed_of_ofText hd')
    obtain ⟨hres, htab⟩ := h.tables.create hn (Schema.ofDefinition_congr hn hparts.2.symm) he he'
    unfold Session.run
    simp only [hd, hd', perform, hres]
    exact ⟨.same _, htab⟩

/-! ## Lists of requests -/

theorem matches_new : Matches new new :=
  ⟨sound_new, sound_new, .cons ⟨rfl, rfl, rfl, fun _ => rfl⟩ .nil⟩

theorem Matches.alike (h : Matches s s') : Alike s s' := by
  have hlook (name t t') (ht : s.table? name = some t) (ht' : s'.table? name = some t') : Table.Matches name t t' := by
    obtain ⟨hn, -⟩ | ⟨u, u', hu, hu', hm⟩ := h.tables.table? name
    · rw [ht] at hn
      cases hn
    · rw [ht, Option.some.injEq] at hu
      rw [ht', Option.some.injEq] at hu'
      rwa [hu, hu']
  refine ⟨List.Forall₂.length_eq h.tables, h.tables.rowCounts, ?_, ?_, ?_⟩
  · exact fun name t t' ht ht' => (hlook name t t' ht ht').schema
  · exact fun name t t' hn ht ht' => (hlook name t t' ht ht').rows hn
  · intro name t t' hn ht ht' m _ _ visit
    rw [Table.forRows, Table.forRows, Storage.forRows_eq_forM, Storage.forRows_eq_forM]
    exact congrArg (List.forM · visit) ((hlook name t t' ht ht').rows hn)

theorem Matches.trace {rs rs' : List String} (h : Matches s s') (hr : List.Forall₂ EngineVariant rs rs') :
    List.Forall₂ (fun a b => SameResult a.1 a.2.1 b.2.1 ∧ Alike a.2.2 b.2.2) (s.trace rs) (s'.trace rs') := by
  induction hr generalizing s s' with
  | nil => exact .nil
  | cons hr _ ih =>
    obtain ⟨hres, hm⟩ := h.run hr
    exact .cons ⟨hres, hm.alike⟩ (ih hm)

/-- **The engines are alike.** Requests that differ only in the engine words of definitions have the same results at
every step, and lead through sessions with the same contents. -/
theorem trace_alike {rs rs' : List String} (h : List.Forall₂ EngineVariant rs rs') :
    List.Forall₂ (fun a b => SameResult a.1 a.2.1 b.2.1 ∧ Alike a.2.2 b.2.2) (new.trace rs) (new.trace rs') :=
  matches_new.trace h

/-- A table is created in either engine and gets a row. -/
theorem trace_alike_linear_column :
    List.Forall₂ EngineVariant
        ["CREATE TABLE t (a int) ENGINE " ++ "linear" ++ ";", "INSERT INTO t VALUES (1);"]
        ["CREATE TABLE t (a int) ENGINE " ++ "Column" ++ ";", "INSERT INTO t VALUES (1);"] ∧
      List.Forall₂ (fun a b => SameResult a.1 a.2.1 b.2.1 ∧ Alike a.2.2 b.2.2)
        (new.trace ["CREATE TABLE t (a int) ENGINE " ++ "linear" ++ ";", "INSERT INTO t VALUES (1);"])
        (new.trace ["CREATE TABLE t (a int) ENGINE " ++ "Column" ++ ";", "INSERT INTO t VALUES (1);"]) := by
  have hd : Statement.ofText ("CREATE TABLE t (a int) ENGINE " ++ "linear" ++ ";") = .ok (.create
      ⟨⟨"t", .identifier, 13⟩, [⟨⟨"a", .identifier, 16⟩, ⟨"int", .datatype, 18⟩⟩], ⟨"linear", .engine, 30⟩⟩) := by
    decide +kernel
  have hs : SwapsEngine ("CREATE TABLE t (a int) ENGINE " ++ "linear" ++ ";")
      ("CREATE TABLE t (a int) ENGINE " ++ "Column" ++ ";") :=
    .intro (e := .linear) hd (by decide) (by decide) (by decide)
  have h : List.Forall₂ EngineVariant [_, "INSERT INTO t VALUES (1);"] [_, "INSERT INTO t VALUES (1);"] :=
    .cons (.inr hs) (.cons (.inl rfl) .nil)
  exact ⟨h, trace_alike h⟩

end Session
end Tabular
