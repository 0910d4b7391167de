import Mathlib.Data.List.Nodup
import Tabular.Proofs.Schema.Rows
import Tabular.Proofs.Statement.WellFormed
import Tabular.Proofs.Table.Aligned

/-!
# The table that a definition makes

A definition that is accepted makes an empty table with the columns that it lists, in order (`Table.ofDefinition_spec`).
The words for types and engines count in any case, and those of a well-formed definition are in lower case. A definition
is accepted if no name of a column comes twice and every type is one that there is (`SoundColumns`);
otherwise the first column from the left that is at fault is reported (`TableDefinition.resolves`). The definition of a
layout makes an empty table of that layout again (`Table.ofDefinition_definition`).
-/

namespace Tabular

/-! ## Types and engines by their names -/

theorem ColumnType.ofToken_eq_ok_iff {t : Token} {type : ColumnType} :
    ColumnType.ofToken t = .ok type ↔ Text.lowercase t.value = type.name := by
  unfold ColumnType.ofToken
  generalize Text.lowercase t.value = name
  by_cases hi : name = "int"
  · cases type <;> simp [hi, ColumnType.name]
  · by_cases ht : name = "text"
    · cases type <;> simp [ht, ColumnType.name]
    · cases type <;> simp [hi, ht, ColumnType.name]

theorem Engine.ofToken_eq_ok_iff {t : Token} {engine : Engine} :
    Engine.ofToken t = .ok engine ↔ Text.lowercase t.value = engine.name := by
  unfold Engine.ofToken
  generalize Text.lowercase t.value = name
  by_cases hl : name = "linear"
  · cases engine <;> simp [hl, Engine.name]
  · by_cases hc : name = "column"
    · cases engine <;> simp [hc, Engine.name]
    · cases engine <;> simp [hl, hc, Engine.name]

theorem ColumnType.name_mem_reserved (type : ColumnType) : type.name ∈ TokenKind.datatype.reserved := by
  cases type <;> decide

theorem ColumnType.lowercase_name (type : ColumnType) : Text.lowercase type.name = type.name :=
  (Token.faithful_of_mem_reserved type.name_mem_reserved).lowercase_of_isFolded rfl

theorem Engine.mem_reserved_iff {w : String} : w ∈ TokenKind.engine.reserved ↔ ∃ e : Engine, w = e.name := by
  constructor
  · intro h
    simp only [TokenKind.reserved, List.mem_cons, List.not_mem_nil, or_false] at h
    rcases h with rfl | rfl
    · exact ⟨.linear, rfl⟩
    · exact ⟨.column, rfl⟩
  · rintro ⟨e, rfl⟩
    cases e <;> decide

theorem Engine.lowercase_name (engine : Engine) : Text.lowercase engine.name = engine.name :=
  (Token.faithful_of_mem_reserved (mem_reserved_iff.mpr ⟨engine, rfl⟩)).lowercase_of_isFolded rfl

/-! ## What a definition has to say of its columns -/

/-- The datatype of the column is one that there is, written in any case. -/
def ColumnDefinition.Typed (c : ColumnDefinition) : Prop :=
  Text.lowercase c.datatype.value = "int" ∨ Text.lowercase c.datatype.value = "text"

/-- What is wrong with a column of a table behind columns of the given names. That its name is repeated comes before
anything that its type may be. -/
inductive ColumnDefinition.Fault (table : String) (earlier : List String) (c : ColumnDefinition) :
    TableError → Prop where
  | repeated (h : c.name.value ∈ earlier) : Fault table earlier c (.repeatedColumn table c.name.value)
  | unsupported (hn : c.name.value ∉ earlier) (ht : ¬ c.Typed) :
      Fault table earlier c (.unknownType c.datatype.value)

/-- No name comes twice among the columns, and every type is one that there is. -/
structure SoundColumns (cs : List ColumnDefinition) : Prop where
  nodup : (cs.map (·.name.value)).Nodup
  typed : ∀ c ∈ cs, c.Typed

/-- What becomes of a definition, whatever tokens it is made of. -/
structure TableDefinition.Resolves (d : TableDefinition) : Prop where
  succeeds : (∃ s, Schema.ofDefinition d = .ok s) ↔ SoundColumns d.columns
  keeps : ∀ s, Schema.ofDefinition d = .ok s → s.table = d.name.value ∧
    s.columns.map (fun c => (c.name, c.type.name)) =
      d.columns.map fun c => (c.name.value, Text.lowercase c.datatype.value)
  /-- The first column that is at fault is reported. -/
  fails : ∀ e, Schema.ofDefinition d = .error e ↔ ∃ before c after, d.columns = before ++ c :: after ∧
    SoundColumns before ∧ c.Fault d.name.value (before.map (·.name.value)) e

theorem ColumnDefinition.typed_iff {c : ColumnDefinition} :
    c.Typed ↔ ∃ type, ColumnType.ofToken c.datatype = .ok type := by
  simp only [ColumnType.ofToken_eq_ok_iff]
  constructor
  · rintro (h | h)
    · exact ⟨.int, h⟩
    · exact ⟨.text, h⟩
  · rintro ⟨type, h⟩
    cases type with
    | int => exact .inl h
    | text => exact .inr h

theorem ColumnType.ofToken_eq_error_iff {c : ColumnDefinition} {e : TableError} :
    ofToken c.datatype = .error e ↔ ¬ c.Typed ∧ e = .unknownType c.datatype.value := by
  unfold ofToken ColumnDefinition.Typed
  generalize Text.lowercase c.datatype.value = name
  by_cases hi : name = "int"
  · simp [hi]
  · by_cases ht : name = "text"
    · simp [ht]
    · simpa [hi, ht] using eq_comm

/-! ## Schemas -/

namespace Schema

/-- The column that a definition describes. -/
def Describes (c : ColumnDefinition) (column : Column) : Prop :=
  column.name = c.name.value ∧ ColumnType.ofToken c.datatype = .ok column.type

theorem addColumn_eq_ok_iff {s s' : Schema} {c : ColumnDefinition} : s.addColumn c = .ok s' ↔
    ∃ column, Describes c column ∧ column.name ∉ s.names ∧ s' = { s with columns := s.columns ++ [column] } := by
  unfold addColumn
  constructor
  · intro h
    split at h
    · nomatch h
    · rename_i hn
      obtain ⟨type, ht, h⟩ := bind_eq_ok_iff.mp h
      cases h
      exact ⟨⟨c.name.value, type⟩, ⟨rfl, ht⟩, by simpa using hn, rfl⟩
  · rintro ⟨⟨name, type⟩, ⟨rfl, ht⟩, hn, rfl⟩
    have hc : s.names.contains c.name.value = false := by simpa using hn
    rw [hc, ht]
    rfl

/-- A column is refused for what is wrong with it. -/
theorem addColumn_eq_error_iff {s : Schema} {c : ColumnDefinition} {e : TableError} :
    s.addColumn c = .error e ↔ c.Fault s.table s.names e := by
  unfold addColumn
  by_cases hn : c.name.value ∈ s.names
  · rw [if_pos (by simpa using hn)]
    constructor
    · intro h
      cases h
      exact .repeated hn
    · intro h
      cases h with
      | repeated => rfl
      | unsupported hn' => exact absurd hn hn'
  · rw [if_neg (by simpa using hn), bind_pure_eq_error_iff, ColumnType.ofToken_eq_error_iff]
    constructor
    · rintro ⟨ht, rfl⟩
      exact .unsupported hn ht
    · intro h
      cases h with
      | repeated hn' => exact absurd hn' hn
      | unsupported _ ht => exact ⟨ht, rfl⟩

/-- Columns are added at the end, one for each definition, as long as no name comes twice. -/
theorem foldlM_addColumn {s s' : Schema} {cs : List ColumnDefinition} (hs : s.names.Nodup) :
    cs.foldlM addColumn s = .ok s' ↔ ∃ columns, List.Forall₂ Describes cs columns ∧
      (s.names ++ columns.map (·.name)).Nodup ∧ s' = { s with columns := s.columns ++ columns } := by
  induction cs generalizing s with
  | nil =>
    rw [List.foldlM_nil]
    constructor
    · intro h
      cases h
      exact ⟨[], .nil, by simpa using hs, by rw [List.append_nil]⟩
    · rintro ⟨columns, hc, -, rfl⟩
      cases hc
      rw [List.append_nil]
      rfl
  | cons c cs ih =>
    have hnames (column : Column) :
        ({ s with columns := s.columns ++ [column] } : Schema).names = s.names ++ [column.name] := by
      simp [names]
    rw [List.foldlM_cons, bind_eq_ok_iff]
    constructor
    · rintro ⟨s₁, h₁, h⟩
      obtain ⟨column, hc, hn, rfl⟩ := addColumn_eq_ok_iff.mp h₁
      have hnew : (s.names ++ [column.name]).Nodup := by
        rw [← List.concat_eq_append]
        exact List.Nodup.concat hn hs
      obtain ⟨columns, hcs, hnd, rfl⟩ := (ih (hnames column ▸ hnew)).mp h
      rw [hnames] at hnd
      exact ⟨column :: columns, .cons hc hcs, by simpa using hnd, by simp⟩
    · rintro ⟨_, h, hnd, rfl⟩
      obtain ⟨column, columns, hc, hcs, rfl⟩ := List.forall₂_cons_left_iff.mp h
      rw [List.map_cons, List.append_cons] at hnd
      have hnew : (s.names ++ [column.name]).Nodup := (List.nodup_append.mp hnd).1
      have hn : column.name ∉ s.names := fun hm =>
        (List.nodup_append.mp hnew).2.2 _ hm _ (List.mem_singleton_self _) rfl
      refine ⟨_, addColumn_eq_ok_iff.mpr ⟨column, hc, hn, rfl⟩, ?_⟩
      refine (ih (hnames column ▸ hnew)).mpr ⟨columns, hcs, ?_, by simp⟩
      rwa [hnames]

/-- **The layout of a definition** has its name and its columns in order, and it exists exactly if the types do and no
column name comes twice. -/
theorem ofDefinition_eq_ok_iff {d : TableDefinition} {s : Schema} : ofDefinition d = .ok s ↔
    s.table = d.name.value ∧ List.Forall₂ Describes d.columns s.columns ∧ s.names.Nodup := by
  have hs : (⟨d.name.value, []⟩ : Schema).names.Nodup := List.nodup_nil
  rw [ofDefinition, foldlM_addColumn hs]
  constructor
  · rintro ⟨columns, hc, hn, rfl⟩
    exact ⟨rfl, hc, hn⟩
  · rintro ⟨ht, hc, hn⟩
    exact ⟨s.columns, hc, hn, by rw [← ht]; rfl⟩

/-- The layout does not depend on where the tokens stand, nor on the engine. -/
theorem ofDefinition_congr {d d' : TableDefinition} (hn : d.name.value = d'.name.value)
    (hc : d.columns.map (·.mapTokens Token.unplaced) = d'.columns.map (·.mapTokens Token.unplaced)) :
    ofDefinition d = ofDefinition d' := by
  have h (d : TableDefinition) :
      ofDefinition d = (d.columns.map (·.mapTokens Token.unplaced)).foldlM addColumn ⟨d.name.value, []⟩ := by
    rw [List.foldlM_map]
    rfl
  rw [h d, h d', hn, hc]

/-- Columns have the names that are written, and the types in lower case. -/
theorem map_columns_of_describes {cs : List ColumnDefinition} {columns : List Column}
    (h : List.Forall₂ Describes cs columns) : columns.map (fun c => (c.name, c.type.name)) =
      cs.map fun c => (c.name.value, Text.lowercase c.datatype.value) := by
  induction h with
  | nil => rfl
  | cons hc _ ih => rw [List.map_cons, List.map_cons, ih, hc.1, ColumnType.ofToken_eq_ok_iff.mp hc.2]

theorem map_name_of_describes {cs : List ColumnDefinition} {columns : List Column}
    (h : List.Forall₂ Describes cs columns) : columns.map (·.name) = cs.map (·.name.value) := by
  have hmap := congrArg (List.map Prod.fst) (map_columns_of_describes h)
  rwa [List.map_map, List.map_map] at hmap

/-- There are columns for definitions exactly if all their types are there. -/
theorem exists_describes_iff {cs : List ColumnDefinition} :
    (∃ columns, List.Forall₂ Describes cs columns) ↔ ∀ c ∈ cs, c.Typed := by
  induction cs with
  | nil => exact iff_of_true ⟨[], .nil⟩ fun _ h => absurd h List.not_mem_nil
  | cons c cs ih =>
    rw [List.forall_mem_cons, ← ih, ColumnDefinition.typed_iff]
    constructor
    · rintro ⟨_, h⟩
      obtain ⟨column, columns, hc, hcs, -⟩ := List.forall₂_cons_left_iff.mp h
      exact ⟨⟨column.type, hc.2⟩, columns, hcs⟩
    · rintro ⟨⟨type, ht⟩, columns, hcs⟩
      exact ⟨⟨c.name.value, type⟩ :: columns, .cons ⟨rfl, ht⟩ hcs⟩

theorem exists_ofDefinition_iff {d : TableDefinition} : (∃ s, ofDefinition d = .ok s) ↔ SoundColumns d.columns := by
  simp only [ofDefinition_eq_ok_iff]
  constructor
  · rintro ⟨s, -, hc, hn⟩
    refine ⟨?_, exists_describes_iff.mp ⟨_, hc⟩⟩
    rw [← map_name_of_describes hc]
    exact hn
  · rintro ⟨hn, ht⟩
    obtain ⟨columns, hc⟩ := exists_describes_iff.mpr ht
    refine ⟨⟨d.name.value, columns⟩, rfl, hc, ?_⟩
    rw [← map_name_of_describes hc] at hn
    exact hn

/-- A definition fails at a column that is at fault behind columns that are not. -/
theorem ofDefinition_eq_error_iff {d : TableDefinition} {e : TableError} : ofDefinition d = .error e ↔
    ∃ before c after, d.columns = before ++ c :: after ∧ SoundColumns before ∧
      c.Fault d.name.value (before.map (·.name.value)) e := by
  -- the columns before it are read as a definition of their own
  have hfront (before : List ColumnDefinition) {s : Schema} (h : before.foldlM addColumn ⟨d.name.value, []⟩ = .ok s) :
      s.table = d.name.value ∧ s.names = before.map (·.name.value) := by
    obtain ⟨ht, hc, -⟩ := (ofDefinition_eq_ok_iff (d := ⟨d.name, before, d.engine⟩)).mp h
    exact ⟨ht, map_name_of_describes hc⟩
  rw [ofDefinition, foldlM_eq_error_iff]
  constructor
  · rintro ⟨before, c, after, s, hsplit, hread, hc⟩
    obtain ⟨ht, hn⟩ := hfront before hread
    rw [addColumn_eq_error_iff, ht, hn] at hc
    have hsound := (exists_ofDefinition_iff (d := ⟨d.name, before, d.engine⟩)).mp ⟨s, hread⟩
    exact ⟨before, c, after, hsplit, hsound, hc⟩
  · rintro ⟨before, c, after, hsplit, hsound, hc⟩
    obtain ⟨s, hread⟩ := (exists_ofDefinition_iff (d := ⟨d.name, before, d.engine⟩)).mpr hsound
    obtain ⟨ht, hn⟩ := hfront before hread
    refine ⟨before, c, after, s, hsplit, hread, ?_⟩
    rwa [addColumn_eq_error_iff, ht, hn]

/-- The definition of a layout describes the layout, if it has no name twice. -/
theorem ofDefinition_definition {s : Schema} (hn : s.names.Nodup) (engine : Engine) :
    ofDefinition (s.definition engine) = .ok s := by
  refine ofDefinition_eq_ok_iff.mpr ⟨rfl, ?_, hn⟩
  simp only [definition, List.forall₂_map_left_iff, List.forall₂_same]
  intro c _
  exact ⟨rfl, ColumnType.ofToken_eq_ok_iff.mpr c.type.lowercase_name⟩

end Schema

/-- **A definition is accepted or reported at its first column that is at fault.** -/
theorem TableDefinition.resolves (d : TableDefinition) : d.Resolves where
  succeeds := Schema.exists_ofDefinition_iff
  keeps s h := by
    obtain ⟨ht, hc, -⟩ := Schema.ofDefinition_eq_ok_iff.mp h
    exact ⟨ht, Schema.map_columns_of_describes hc⟩
  fails _ := Schema.ofDefinition_eq_error_iff

/-! ## Tables -/

namespace Table

theorem ofDefinition_eq_ok_iff {d : TableDefinition} {t : Table} :
    ofDefinition d = .ok t ↔ ∃ engine schema, Engine.ofToken d.engine = .ok engine ∧
      Schema.ofDefinition d = .ok schema ∧ t = empty schema engine := by
  unfold ofDefinition
  simp only [bind_eq_ok_iff, exists_and_left]
  refine exists_congr fun _ => and_congr_right fun _ => exists_congr fun _ => and_congr_right fun _ => ?_
  exact ⟨fun h => by cases h; rfl, fun h => by rw [h]; rfl⟩

/-- A well-formed definition names an engine. -/
theorem exists_engine_of_wellFormed {d : TableDefinition} (hd : (Statement.create d).WellFormed) :
    ∃ engine, Engine.ofToken d.engine = .ok engine := by
  obtain ⟨-, -, hef, hek⟩ := hd
  have hm := hef.mem_reserved (by simp [hek]) (by simp [hek])
  have hv : Text.lowercase d.engine.value = d.engine.value := hef.lowercase_of_isFolded (by rw [hek]; rfl)
  rw [hek] at hm
  obtain ⟨engine, he⟩ := Engine.mem_reserved_iff.mp hm
  exact ⟨engine, Engine.ofToken_eq_ok_iff.mpr (hv.trans he)⟩

theorem sound_ofDefinition {d : TableDefinition} {t : Table} (h : ofDefinition d = .ok t) : t.Sound := by
  obtain ⟨engine, schema, -, -, rfl⟩ := ofDefinition_eq_ok_iff.mp h
  exact sound_empty schema engine

/-- What a well-formed definition says of its table: the name, the columns with their types, and the engine. -/
theorem ofDefinition_spec {d : TableDefinition} {t : Table} (hd : (Statement.create d).WellFormed)
    (h : ofDefinition d = .ok t) : t.rows = [] ∧ t.schema.table = d.name.value ∧
      t.schema.columns.map (fun c => (c.name, c.type.name)) =
        d.columns.map (fun c => (c.name.value, c.datatype.value)) ∧ t.engine.name = d.engine.value := by
  obtain ⟨-, ⟨-, hcs⟩, hef, hek⟩ := hd
  obtain ⟨engine, schema, he, hs, rfl⟩ := ofDefinition_eq_ok_iff.mp h
  obtain ⟨hn, hc, -⟩ := Schema.ofDefinition_eq_ok_iff.mp hs
  refine ⟨Storage.rows_empty _ _, hn, ?_, ?_⟩
  · refine (Schema.map_columns_of_describes hc).trans ?_
    refine List.map_congr_left fun c hm => ?_
    obtain ⟨-, hf, hk⟩ := hcs c hm
    rw [hf.lowercase_of_isFolded (by rw [hk]; rfl)]
  · have hv : Text.lowercase d.engine.value = d.engine.value := hef.lowercase_of_isFolded (by rw [hek]; rfl)
    calc (empty schema engine).engine.name = engine.name := congrArg Engine.name (Storage.engine_empty _ _)
      _ = d.engine.value := by rw [← hv, Engine.ofToken_eq_ok_iff.mp he]

/-- **The definition of a layout makes an empty table of that layout.** -/
theorem ofDefinition_definition {s : Schema} (hn : s.names.Nodup) (engine : Engine) :
    ofDefinition (s.definition engine) = .ok (empty s engine) :=
  ofDefinition_eq_ok_iff.mpr ⟨engine, s, Engine.ofToken_eq_ok_iff.mpr engine.lowercase_name,
    Schema.ofDefinition_definition hn engine, rfl⟩

end Table
end Tabular
