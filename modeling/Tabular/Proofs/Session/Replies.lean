import Tabular.Proofs.Session.Catalog
import Tabular.Proofs.Session.Messages
import Tabular.Proofs.Session.Restoring
import Tabular.Server.Connection

/-!
# Replies are blocks

Every reply to a request consists of one or more lines, none of which is empty, whatever requests were made before
(`Session.isBlock_reply`). So it can be followed by an empty line, and a client can tell where it ends.

The lines of a selection are made of names and cells, all of which are displayed as words (`Session.ShowsWords`). For
the catalog this is known from the record of what was carried out: its rows hold the names of tables and engines.
-/

namespace Tabular

open Text

/-! ## What a selection shows -/

/-- The pieces of a line are words, and there is at least one. -/
def IsWordLine (pieces : List String) : Prop :=
  pieces ≠ [] ∧ ∀ p ∈ pieces, Lexeme.IsWord p.toList

theorem IsWordLine.lineOf {pieces : List String} (h : IsWordLine pieces) :
    lineOf pieces ≠ [] ∧ '\n' ∉ lineOf pieces := by
  obtain ⟨hne, hw⟩ := h
  refine ⟨?_, not_mem_lineOf fun p hp => oneLine_of_isWord (hw p hp)⟩
  obtain ⟨p, pieces, rfl⟩ := List.exists_cons_of_ne_nil hne
  have hp : p.toList ≠ [] := (hw p List.mem_cons_self).1
  cases pieces with
  | nil => simpa [Tabular.lineOf] using hp
  | cons q pieces => simp [Tabular.lineOf, List.intercalate_cons_cons]

theorem isBlock_rows {lines : List (List String)} (hne : lines ≠ []) (h : ∀ l ∈ lines, IsWordLine l) :
    IsBlock (Answer.display (.rows lines)) := by
  refine ⟨lines.map lineOf, by simpa using hne, ?_, display_rows lines⟩
  exact List.forall_mem_map.mpr fun l hl => (h l hl).lineOf

/-- What lies outside of a row is null. -/
theorem Row.cell_mem_or_eq_null (r : Row) (i : Nat) : r.cell i ∈ r ∨ r.cell i = .null := by
  rw [Row.cell, List.getD_eq_getElem?_getD]
  cases hi : r[i]? with
  | none => exact .inr rfl
  | some c => exact .inl (List.mem_of_getElem? hi)

/-- A cell that lies outside of a row is displayed as a word like those in it. -/
theorem Row.isWord_cell {r : Row} (h : ∀ c ∈ r, Lexeme.IsWord c.display.toList) (i : Nat) :
    Lexeme.IsWord (r.cell i).display.toList := by
  rcases r.cell_mem_or_eq_null i with hm | hnull
  · exact h _ hm
  · rw [hnull]
    exact Cell.storable_null.isWord

namespace Table

variable {name : String} {t : Table}

theorem Proper.isWord_names (h : t.Proper name) : ∀ n ∈ t.schema.names, Lexeme.IsWord n.toList := by
  refine List.forall_mem_map.mpr fun c hc => ?_
  exact (Token.faithful_identifier_iff.mp (h.columnNames c hc).1).isWord

/-- The columns that are asked for have names that are words, and there is at least one. -/
theorem Proper.isWordLine_wanted (h : t.Proper name) {p : Projection} (hp : p.WellFormed) :
    IsWordLine (p.wanted t.schema) := by
  cases p with
  | all => exact ⟨by simpa [Projection.wanted, Schema.names] using h.columns, h.isWord_names⟩
  | columns names =>
    obtain ⟨hne, hn⟩ := hp
    refine ⟨by simpa [Projection.wanted] using hne, List.forall_mem_map.mpr fun t ht => ?_⟩
    exact (Token.faithful_identifier_iff.mp (hn t ht).fresh.1).isWord

/-- What a selection finds is shown as lines of words. -/
theorem Proper.isWordLine_select (h : t.Proper name) (hw : ∀ r ∈ t.rows, ∀ c ∈ r, Lexeme.IsWord c.display.toList)
    {q : Selection} (hq : (Statement.select q).WellFormed) {found : Selected} (hf : t.select q = .ok found) :
    ∀ l ∈ found.lines, IsWordLine l := by
  obtain ⟨hp, -, hcs⟩ := hq
  have hwanted := h.isWordLine_wanted hp
  rw [((select_eq_ok_iff h.sound.fits h.nodup hcs).mp hf).2]
  refine List.forall_mem_cons.mpr ⟨hwanted, ?_⟩
  refine List.forall_mem_map.mpr (List.forall_mem_map.mpr fun r hr => ⟨?_, ?_⟩)
  · simpa using hwanted.1
  · rw [List.map_map]
    exact List.forall_mem_map.mpr fun n _ => Row.isWord_cell (hw r (List.mem_filter.mp hr).1) _

theorem Proper.isBlock_select (h : t.Proper name) (hw : ∀ r ∈ t.rows, ∀ c ∈ r, Lexeme.IsWord c.display.toList)
    {q : Selection} (hq : (Statement.select q).WellFormed) {found : Selected} (hf : t.select q = .ok found) :
    IsBlock (Answer.display (.rows found.lines)) :=
  isBlock_rows (List.cons_ne_nil _ _) (h.isWordLine_select hw hq hf)

/-- The definition of a table is shown on one line. -/
theorem Proper.isBlock_showCreate (h : t.Proper name) : IsBlock (Answer.display (.text t.showCreate)) := by
  have htable : OneLine t.schema.table := h.isLegible.table
  have hcolumns : OneLine (", ".intercalate (t.definition.columns.map (·.text))) := by
    refine OneLine.intercalate (by decide) (List.forall_mem_map.mpr (List.forall_mem_map.mpr fun c hc => ?_))
    have htype : OneLine (Text.uppercase c.type.name) := by cases c.type <;> decide +kernel
    simp only [ColumnDefinition.text, Token.fresh, oneLine_append, h.isLegible.columns c hc, htype, and_true]
    decide +kernel
  have hengine : OneLine t.engine.name := by cases t.engine <;> decide +kernel
  have htext : t.showCreate = "CREATE TABLE " ++ t.schema.table ++ " (" ++
      ", ".intercalate (t.definition.columns.map (·.text)) ++ ") ENGINE " ++ t.engine.name ++ ";" := rfl
  have hline : OneLine t.showCreate := by
    simp only [htext, oneLine_append, htable, hcolumns, hengine, and_true]
    decide +kernel
  refine hline.isBlock ?_
  simp [htext]

end Table

namespace Session

/-! ## What the tables of a session show -/

/-- Every cell of every table is displayed as a word. -/
def ShowsWords (s : Session) : Prop :=
  ∀ name t, s.table? name = some t → ∀ r ∈ t.rows, ∀ c ∈ r, Lexeme.IsWord c.display.toList

theorem Recorded.isWord_catalog {done : List Statement} {s : Session} (h : Recorded done s) (hp : s.Proper)
    {t : Table} (ht : s.table? catalogName = some t) : ∀ r ∈ t.rows, ∀ c ∈ r, Lexeme.IsWord c.display.toList := by
  obtain ⟨c, hc, hrows⟩ := h.catalog
  rw [ht, Option.some.injEq] at hc
  subst hc
  rw [hrows]
  refine List.forall_mem_map.mpr fun entry he => ?_
  obtain ⟨u, hu, hengine⟩ := h.engines entry he
  simp only [List.forall_mem_cons, Cell.display]
  refine ⟨(Token.faithful_identifier_iff.mp (hp _ u hu).isName.1).isWord, ?_, fun _ h => absurd h List.not_mem_nil⟩
  rw [← hengine]
  cases u.engine <;> decide +kernel

theorem showsWords_after (requests : List String) : (new.after requests).ShowsWords := by
  have hp := proper_after requests
  intro name t ht
  by_cases hn : name = catalogName
  · subst hn
    exact (recorded_new.after sound_new requests).isWord_catalog hp ht
  · exact fun r hr c hc => ((hp name t ht).storable hn r hr c hc).isWord

/-! ## Replies -/

theorem message_ne_empty (e : RequestError) : e.message ≠ "" := by
  cases e with
  | syntaxError e =>
    show e.message ≠ ""
    unfold SyntaxError.message
    cases e <;> simp [String.append_eq_empty_iff]
  | tableError e =>
    show e.message ≠ ""
    unfold TableError.message
    cases e <;> simp [String.append_eq_empty_iff]
  | readOnly name =>
    show "table " ++ name ++ " is read-only" ≠ ""
    simp [String.append_eq_empty_iff]

theorem isBlock_error {e : RequestError} (h : OneLine e.message) : IsBlock (reply (.error e)) :=
  h.isBlock (message_ne_empty e)

theorem isBlock_done : IsBlock (reply (.ok .done)) := by
  have hline : OneLine "ok" := by decide
  exact hline.isBlock (by decide)

variable {s : Session}

theorem isBlock_fail {e : TableError} (h : e.IsLegible) : IsBlock (reply (s.fail e).1) :=
  isBlock_error (e := .tableError e) h.message

theorem isBlock_create {d : TableDefinition} (hd : (Statement.create d).WellFormed) :
    IsBlock (reply (s.create d).1) := by
  have hname : OneLine d.name.value := hd.1.1.oneLine
  unfold Session.create
  simp only
  split
  · exact isBlock_fail hname
  split
  · exact isBlock_done
  · exact isBlock_fail (Table.legible_ofDefinition hd _ ‹_›)

theorem isBlock_insert (hp : s.Proper) {i : Insertion} (hi : (Statement.insert i).WellFormed) :
    IsBlock (reply (s.insert i).1) := by
  have hname : OneLine i.table.value := hi.1.1.oneLine
  by_cases hn : i.table.value = catalogName
  · rw [insert_readOnly hn]
    refine isBlock_error ?_
    show OneLine ("table " ++ i.table.value ++ " is read-only")
    simp only [oneLine_append, hname, and_true]
    decide +kernel
  cases ht : s.table? i.table.value with
  | none =>
    rw [insert_unknown hn ht]
    exact isBlock_fail hname
  | some t =>
    cases hr : t.schema.rowsOf i with
    | error e =>
      rw [insert_refused hn ht hr]
      exact isBlock_fail (Schema.legible_rowsOf (hp _ t ht).isLegible hi e hr)
    | ok rows =>
      rw [insert_done hn ht hr]
      exact isBlock_done

theorem isBlock_select (hp : s.Proper) (hw : s.ShowsWords) {q : Selection} (hq : (Statement.select q).WellFormed) :
    IsBlock (reply (s.select q).1) := by
  unfold Session.select
  split
  · rename_i t ht
    split
    · exact (hp _ t ht).isBlock_select (hw _ t ht) hq ‹_›
    · rename_i e he
      have hproper := hp _ t ht
      exact isBlock_fail (Table.legible_select hproper.isLegible hproper.sound.fits hproper.nodup hq e he)
  · exact isBlock_fail (e := .unknownTable _) hq.2.1.1.oneLine

theorem isBlock_showCreate (hp : s.Proper) {name : Token} (hn : name.IsName) :
    IsBlock (reply (s.showCreate name).1) := by
  unfold Session.showCreate
  split
  · rename_i t ht
    exact (hp _ t ht).isBlock_showCreate
  · exact isBlock_fail (e := .unknownTable _) hn.1.oneLine

/-- Every reply to a request is a block. -/
theorem isBlock_reply (hp : s.Proper) (hw : s.ShowsWords) (request : String) : IsBlock (reply (s.run request).1) := by
  unfold Session.run
  split
  · rename_i statement h
    have hwell := Statement.wellFormed_of_ofText h
    cases statement with
    | create d => exact isBlock_create hwell
    | insert i => exact isBlock_insert hp hwell
    | select q => exact isBlock_select hp hw hwell
    | showCreate name => exact isBlock_showCreate hp hwell
  · rename_i e h
    exact isBlock_error (e := .syntaxError e) (Statement.oneLine_message h)

end Session
end Tabular
