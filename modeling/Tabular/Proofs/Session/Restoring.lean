import Tabular.Proofs.Session.Effects
import Tabular.Proofs.Session.Representation
import Tabular.Proofs.Text.Lines

/-!
# Restoring a table from what is shown of it

The definition that is shown of a table and the lines of a selection of everything in it are all that is needed to make
the table again: from them come requests (`restoreRequests`) all of which succeed in a new session, and the table that
they leave there has the same layout, engine and rows (`Session.restore_after`).

A line can be cut at its commas, since no cell is displayed with a comma or a newline in it: cells that can be stored
are displayed as words (`Cell.Storable.isWord`). Each piece is then the value that stands for its cell.
-/

namespace Tabular

/-! ## Requests from replies -/

/-- The request that shows the definition of a table. -/
def showRequest (name : String) : String :=
  "SHOW CREATE (" ++ name ++ ");"

/-- The request for everything in a table. -/
def selectRequest (name : String) : String :=
  "SELECT * FROM " ++ name ++ ";"

/-- The request that inserts the pieces of a line into a table. -/
def insertRequest (name : String) (line : List Char) : String :=
  "INSERT INTO " ++ name ++ " VALUES (" ++ ", ".intercalate ((line.splitOn ',').map String.ofList) ++ ");"

/-- The requests that make a table again: the definition that is shown, and an insertion for each line that is selected,
the first of them aside, which has the names of the columns. -/
def restoreRequests (name shown selected : String) : List String :=
  shown :: ((linesOf selected).drop 1).map (insertRequest name)

namespace Session

/-- The requests that make the table of a name again, by what is shown of it. -/
def restoreRequests (s : Session) (name : String) : List String :=
  Tabular.restoreRequests name (reply (s.run (showRequest name)).1) (reply (s.run (selectRequest name)).1)

/-- The table is shown, the requests that are made from the replies all succeed in a new session, and there they make a
table with the same layout, the same engine and the same rows. -/
structure Restores (s : Session) (name : String) (t : Table) : Prop where
  shown : ∃ text, (s.run (showRequest name)).1 = .ok (.text text)
  selected : ∃ lines, (s.run (selectRequest name)).1 = .ok (.rows lines)
  done : ∀ entry ∈ new.trace (s.restoreRequests name), entry.2.1 = .ok .done
  table : ∃ t', (new.after (s.restoreRequests name)).table? name = some t' ∧
    t'.schema = t.schema ∧ t'.engine = t.engine ∧ t'.rows = t.rows

end Session

/-! ## Lines and pieces -/

/-- The pieces of a line, without the newline. -/
def lineOf (pieces : List String) : List Char :=
  [','].intercalate (pieces.map String.toList)

theorem toList_csvLine (pieces : List String) : (csvLine pieces).toList = lineOf pieces ++ ['\n'] := by
  rw [csvLine, String.toList_append, String.toList_intercalate]
  rfl

theorem display_rows (lines : List (List String)) : Answer.display (.rows lines) = textOf (lines.map lineOf) := by
  rw [← String.toList_inj, toList_textOf]
  simp only [Answer.display, String.toList_join, List.flatMap_def, List.map_map, Function.comp_def, toList_csvLine]

theorem not_mem_lineOf {pieces : List String} (h : ∀ p ∈ pieces, '\n' ∉ p.toList) : '\n' ∉ lineOf pieces :=
  not_mem_intercalate (by decide) (List.forall_mem_map.mpr h)

/-- Pieces without newlines are found again as lines. -/
theorem linesOf_display {lines : List (List String)} (h : ∀ l ∈ lines, ∀ p ∈ l, '\n' ∉ p.toList) :
    linesOf (Answer.display (.rows lines)) = lines.map lineOf := by
  rw [display_rows]
  exact linesOf_textOf (List.forall_mem_map.mpr fun l hl => not_mem_lineOf (h l hl))

/-- Pieces without commas are found again in their line. -/
theorem splitOn_lineOf {pieces : List String} (hne : pieces ≠ []) (h : ∀ p ∈ pieces, ',' ∉ p.toList) :
    ((lineOf pieces).splitOn ',').map String.ofList = pieces := by
  have hp : ∀ p ∈ pieces.map String.toList, ',' ∉ p := List.forall_mem_map.mpr h
  rw [lineOf, List.splitOn_intercalate ',' hp (by simpa using hne), List.map_map]
  simp [Function.comp_def]

/-! ## Everything in a table -/

theorem ResolvedSelection.output_slots {s : Schema} {r : Row} (h : r.length = s.width) (filters : List Filter) :
    ResolvedSelection.output ⟨s.slots, filters⟩ r = r := by
  have hcells : s.slots.map (fun slot => r.cell slot.index) = (s.slots.map (·.index)).map r.cell := by
    rw [List.map_map]
    rfl
  rw [ResolvedSelection.output, hcells, Schema.map_index_slots, ← h]
  apply List.ext_getElem
  · simp
  · intro i _ hi
    simp [Row.cell, List.getElem?_eq_getElem hi]

/-- A selection of everything finds all rows as they are. -/
theorem Table.Sound.select_all {t : Table} (h : t.Sound) (table : Token) :
    t.select ⟨.all, table, []⟩ = .ok ⟨t.schema.names, t.rows⟩ := by
  have hrow : ∀ r ∈ t.rows, ResolvedSelection.output? ⟨t.schema.slots, []⟩ r = .ok (some r) := by
    intro r hr
    have hw : r.length = t.schema.width := (List.Forall₂.length_eq (h.fits r hr)).symm
    have hout := ResolvedSelection.output_slots hw []
    calc ResolvedSelection.output? ⟨t.schema.slots, []⟩ r
        = .ok (some (ResolvedSelection.output ⟨t.schema.slots, []⟩ r)) := rfl
      _ = .ok (some r) := by rw [hout]
  have hrows : t.rows.filterMapM (ResolvedSelection.output? ⟨t.schema.slots, []⟩) = .ok t.rows := by
    rw [filterMapM_eq_ok hrow, List.filterMap_some]
  have hresolve : t.schema.resolve ⟨.all, table, []⟩ = .ok ⟨t.schema.slots, []⟩ := rfl
  rw [Table.select, hresolve]
  refine bind_eq_ok_iff.mpr ⟨_, rfl, bind_eq_ok_iff.mpr ⟨_, hrows, ?_⟩⟩
  rw [ResolvedSelection.header, Schema.map_name_slots]
  rfl

/-! ## The requests are read as what they are -/

/-- The text of an insertion of one value set into all columns. -/
theorem Insertion.text_single (name : String) (values : List Token) :
    Insertion.text ⟨.fresh name .identifier, [], [values]⟩ =
      "INSERT INTO " ++ name ++ " VALUES (" ++ ", ".intercalate (values.map (·.value)) ++ ");" := by
  have htext : Insertion.text ⟨.fresh name .identifier, [], [values]⟩ =
      "INSERT INTO " ++ name ++ "" ++ " VALUES " ++ ("(" ++ ", ".intercalate (values.map (·.value)) ++ ")") ++ ";" :=
    rfl
  have hopen : " VALUES (" = " VALUES " ++ "(" := by decide
  have hclose : ");" = ")" ++ ";" := by decide
  rw [htext, String.append_empty, hopen, hclose]
  simp only [String.append_assoc]

/-- The request for the line of a row inserts the values that stand for its cells. -/
theorem insertRequest_lineOf (name : String) {r : Row} (hne : r ≠ []) (hs : ∀ c ∈ r, c.Storable) :
    insertRequest name (lineOf (r.map Cell.display)) =
      (Statement.insert ⟨.fresh name .identifier, [], [r.map Cell.token]⟩).text := by
  have hpieces : ((lineOf (r.map Cell.display)).splitOn ',').map String.ofList = r.map Cell.display := by
    refine splitOn_lineOf (by simpa using hne) ?_
    rw [List.forall_mem_map]
    exact fun c hc => (hs c hc).isWord.not_mem rfl
  have hvalues : (r.map Cell.token).map (·.value) = r.map Cell.display := by
    rw [List.map_map]
    exact List.map_congr_left fun c _ => c.value_token
  have hrequest : insertRequest name (lineOf (r.map Cell.display)) = "INSERT INTO " ++ name ++ " VALUES (" ++
      ", ".intercalate (((lineOf (r.map Cell.display)).splitOn ',').map String.ofList) ++ ");" := rfl
  rw [hrequest, hpieces, ← hvalues]
  exact (Insertion.text_single name (r.map Cell.token)).symm

/-- The definition of a proper table is well-formed. -/
theorem Table.Proper.wellFormed_definition {name : String} {t : Table} (h : t.Proper name) :
    (Statement.create t.definition).WellFormed := by
  have hname : t.definition.name.IsName := by
    have hn := h.isName
    rw [← h.named] at hn
    exact hn
  refine ⟨hname, ⟨by simpa [Table.definition, Schema.definition] using h.columns, ?_⟩, ?_, rfl⟩
  · simp only [Table.definition, Schema.definition, List.forall_mem_map]
    exact fun c hc => ⟨h.columnNames c hc, Token.faithful_of_mem_reserved c.type.name_mem_reserved, rfl⟩
  · exact Token.faithful_of_mem_reserved (Engine.mem_reserved_iff.mpr ⟨t.engine, rfl⟩)

/-- The lines behind the header of a selection of everything are those of the rows. -/
theorem Table.Proper.lines_rows {name : String} {t : Table} (hp : t.Proper name) (hn : name ≠ catalogName) :
    (linesOf (reply (.ok (.rows (Selected.lines ⟨t.schema.names, t.rows⟩))))).drop 1 =
      t.rows.map fun r => lineOf (r.map Cell.display) := by
  have hblank : Lexeme.isBreak '\n' = true := rfl
  have h : ∀ l ∈ Selected.lines ⟨t.schema.names, t.rows⟩, ∀ p ∈ l, '\n' ∉ p.toList := by
    refine List.forall_mem_cons.mpr ⟨?_, ?_⟩
    · refine List.forall_mem_map.mpr fun c hc => Lexeme.IsWord.not_mem ?_ hblank
      exact (Token.faithful_identifier_iff.mp (hp.columnNames c hc).1).isWord
    · refine List.forall_mem_map.mpr fun r hr => List.forall_mem_map.mpr fun c hc => ?_
      exact (hp.storable hn r hr c hc).isWord.not_mem hblank
  rw [reply, linesOf_display h, Selected.lines, List.map_cons, List.drop_one, List.tail_cons, List.map_map]
  rfl

namespace Session

variable {s : Session} {name : String} {t : Table}

/-- The definition of a proper table is shown by the request for it. -/
theorem run_showRequest (hp : t.Proper name) (ht : s.table? name = some t) :
    (s.run (showRequest name)).1 = .ok (.text t.showCreate) := by
  have hw : (Statement.showCreate (.fresh name .identifier)).WellFormed := hp.isName
  obtain ⟨s', hread, hsame⟩ := hw.exists_ofText (reads_text hw)
  cases s' with
  | showCreate table =>
    have hname : table.value = name := by
      simp only [Statement.Same, Statement.mapTokens, Statement.showCreate.injEq] at hsame
      exact congrArg Token.value hsame
    have hread : Statement.ofText (showRequest name) = .ok (.showCreate table) := hread
    simp [run, hread, perform, Session.showCreate, hname, ht]
  | create | insert | select => cases hsame

/-- All rows of a proper table are selected by the request for everything in it. -/
theorem run_selectRequest (hp : t.Proper name) (ht : s.table? name = some t) :
    (s.run (selectRequest name)).1 = .ok (.rows (Selected.lines ⟨t.schema.names, t.rows⟩)) := by
  have hw : (Statement.select ⟨.all, .fresh name .identifier, []⟩).WellFormed :=
    ⟨trivial, hp.isName, fun _ h => absurd h List.not_mem_nil⟩
  obtain ⟨s', hread, hsame⟩ := hw.exists_ofText (reads_text hw)
  have htext : (Statement.select ⟨.all, .fresh name .identifier, []⟩).text = selectRequest name := by
    have hempty : ("SELECT * FROM " ++ name ++ "") ++ ";" = "SELECT * FROM " ++ name ++ ";" := by
      rw [String.append_empty]
    exact hempty
  rw [htext] at hread
  cases s' with
  | select q =>
    obtain ⟨projection, table, conditions⟩ := q
    simp only [Statement.Same, Statement.mapTokens, Statement.select.injEq, Selection.mk.injEq] at hsame
    obtain ⟨hprojection, htable, hconditions⟩ := hsame
    have hname : table.value = name := congrArg Token.value htable
    cases projection with
    | columns names => cases hprojection
    | all =>
      rw [List.map_nil, List.map_eq_nil_iff] at hconditions
      subst hconditions
      simp [run, hread, perform, Session.select, hname, ht, hp.sound.select_all]
  | create | insert | showCreate => cases hsame

/-- The definition that is shown of a proper table makes an empty table with the same layout and engine. -/
theorem run_showCreate (hp : t.Proper name) (hn : s.table? name = none) :
    s.run (t.showCreate ++ "\n") =
      (.ok .done, (s.add name (.empty t.schema t.engine)).register name t.engine) := by
  have hw := hp.wellFormed_definition
  have hend : Token.Reads "\n".toList [] := by decide +kernel
  have hreads : Token.Reads (t.showCreate ++ "\n").toList ((Statement.create t.definition).tokens ++ []) := by
    rw [String.toList_append]
    exact (reads_text hw).append (.inr rfl) hend
  rw [List.append_nil] at hreads
  obtain ⟨s', hread, hsame⟩ := hw.exists_ofText hreads
  cases s' with
  | create d =>
    simp only [Statement.Same, Statement.mapTokens, Statement.create.injEq, TableDefinition.mk.injEq] at hsame
    obtain ⟨hname, hcolumns, hengine⟩ := hsame
    have hname : d.name.value = t.definition.name.value := by
      have := congrArg Token.value hname
      exact this
    have hvalue : d.name.value = name := hname.trans hp.named
    have hd : Schema.ofDefinition d = .ok t.schema := by
      rw [Schema.ofDefinition_congr hname hcolumns]
      exact Schema.ofDefinition_definition hp.nodup t.engine
    have he : Engine.ofToken d.engine = .ok t.engine := by
      have hv : d.engine.value = t.engine.name := congrArg Token.value hengine
      rw [Engine.ofToken_eq_ok_iff, hv, Engine.lowercase_name]
    have hdone := create_done (hvalue.symm ▸ hn) he hd
    rw [hvalue] at hdone
    rw [run, hread]
    exact hdone
  | insert | select | showCreate => cases hsame

/-- The line of a row that can be stored adds the row. -/
theorem run_insertRequest {r : Row} (hname : (Token.fresh name .identifier).IsName) (hn : name ≠ catalogName)
    (ht : s.table? name = some t) (hne : r ≠ []) (hf : Row.Fits t.schema.columns r) (hs : ∀ c ∈ r, c.Storable) :
    s.run (insertRequest name (lineOf (r.map Cell.display))) = (.ok .done, s.put name (t.append [r])) := by
  have hw : (Statement.insert ⟨.fresh name .identifier, [], [r.map Cell.token]⟩).WellFormed := by
    refine ⟨hname, fun _ h => absurd h List.not_mem_nil, List.cons_ne_nil _ _, ?_⟩
    rw [List.forall_mem_singleton, List.forall_mem_map]
    exact ⟨by simpa using hne, fun c hc => (hs c hc).isValue⟩
  obtain ⟨s', hread, hsame⟩ := hw.exists_ofText (reads_text hw)
  rw [← insertRequest_lineOf name hne hs] at hread
  cases s' with
  | insert i =>
    obtain ⟨table, columns, valueSets⟩ := i
    simp only [Statement.Same, Statement.mapTokens, Statement.insert.injEq, Insertion.mk.injEq] at hsame
    obtain ⟨htable, hcolumns, hsets⟩ := hsame
    have hvalue : table.value = name := congrArg Token.value htable
    rw [List.map_nil, List.map_eq_nil_iff] at hcolumns
    obtain ⟨values, rfl, hvalues⟩ := List.map_eq_singleton_iff.mp hsets
    have hvalues : values.map Token.unplaced = r.map Cell.token := by
      rw [hvalues]
      show (r.map Cell.token).map Token.unplaced = r.map Cell.token
      rw [List.map_map]
      exact List.map_congr_left fun c _ => c.unplaced_token
    have hrow : t.schema.rowsOf ⟨table, columns, [values]⟩ = .ok [r] := by
      refine Schema.rowsOf_eq_ok_iff.mpr ⟨t.schema.slots, by rw [hcolumns]; rfl, ?_⟩
      exact .cons (Schema.rowOf_tokens hf hs hvalues) .nil
    have hdone := insert_done (i := ⟨table, columns, [values]⟩) (hvalue.symm ▸ hn) (hvalue.symm ▸ ht) hrow
    rw [run, hread]
    exact hvalue ▸ hdone
  | create | select | showCreate => cases hsame

/-! ## Restoring -/

/-- The lines of rows that can be stored add the rows, one after the other. -/
theorem trace_insertRequests {rows : List Row} (hname : (Token.fresh name .identifier).IsName)
    (hn : name ≠ catalogName) (ht : s.table? name = some t) (hsound : t.Sound) (hne : t.schema.columns ≠ [])
    (hf : ∀ r ∈ rows, Row.Fits t.schema.columns r) (hs : ∀ r ∈ rows, ∀ c ∈ r, c.Storable) :
    let requests := rows.map fun r => insertRequest name (lineOf (r.map Cell.display))
    (∀ entry ∈ s.trace requests, entry.2.1 = .ok .done) ∧
      ∃ t', (s.after requests).table? name = some t' ∧ t.Grows rows t' := by
  induction rows generalizing s t with
  | nil => exact ⟨fun _ h => absurd h List.not_mem_nil, t, ht, .refl t⟩
  | cons r rows ih =>
    obtain ⟨hfr, hfrows⟩ := List.forall_mem_cons.mp hf
    obtain ⟨hsr, hsrows⟩ := List.forall_mem_cons.mp hs
    have hcells : r ≠ [] := by
      intro he
      rw [he, Row.Fits, List.forall₂_nil_right_iff] at hfr
      exact hne hfr
    have hrun := run_insertRequest hname hn ht hcells hfr hsr
    have hfits : ∀ r' ∈ [r], Row.Fits t.schema.columns r' := List.forall_mem_singleton.mpr hfr
    have hgrows := hsound.grows hfits
    obtain ⟨hdone, t', ht', hg⟩ := ih (table?_put_self ht) (hsound.append hfits) hne hfrows hsrows
    refine ⟨?_, t', ?_, hgrows.trans hg⟩
    · simp only [List.map_cons, trace, hrun]
      exact List.forall_mem_cons.mpr ⟨rfl, hdone⟩
    · simp only [List.map_cons, after, List.foldl_cons, hrun]
      exact ht'

/-- **A table is restored from what is shown of it**, whatever requests were made and whichever table it is, the catalog
aside. -/
theorem restore_after (requests : List String) {name : String} {t : Table} (hn : name ≠ catalogName)
    (ht : (new.after requests).table? name = some t) : (new.after requests).Restores name t := by
  have hp := proper_after requests name t ht
  have hshow := run_showRequest hp ht
  have hselect := run_selectRequest hp ht
  have hrequests : (new.after requests).restoreRequests name =
      (t.showCreate ++ "\n") :: t.rows.map fun r => insertRequest name (lineOf (r.map Cell.display)) := by
    rw [Session.restoreRequests, hshow, hselect, Tabular.restoreRequests, hp.lines_rows hn, List.map_map]
    rfl
  have hnew := table?_new_of_ne hn
  have hcreate := run_showCreate hp hnew
  have hempty : ((new.add name (.empty t.schema t.engine)).register name t.engine).table? name =
      some (.empty t.schema t.engine) := by
    rw [table?_register, table?_add_self hnew]
    simp [hn]
  obtain ⟨hdone, t', ht', hg⟩ := trace_insertRequests hp.isName hn hempty (Table.sound_empty _ _) hp.columns
    hp.sound.fits (hp.storable hn)
  refine ⟨⟨_, hshow⟩, ⟨_, hselect⟩, ?_, t', ?_, hg.schema, ?_, ?_⟩
  · rw [hrequests, trace, hcreate]
    exact List.forall_mem_cons.mpr ⟨rfl, hdone⟩
  · rw [hrequests, after, List.foldl_cons, hcreate]
    exact ht'
  · rw [hg.engine]
    exact Storage.engine_empty _ _
  · have hr : (Table.empty t.schema t.engine).rows = [] := Storage.rows_empty _ _
    rw [hg.rows, hr, List.nil_append]

/-- The least number, nulls and a text with a sign in it are restored. -/
theorem restore_after_two_requests :
    let requests := ["CREATE TABLE t (a int, b text) ENGINE Column;",
      "INSERT INTO t VALUES (-9223372036854775808, x=y), (NULL, null);"]
    let t : Table := ⟨⟨"t", [⟨"a", .int⟩, ⟨"b", .text⟩]⟩,
      .column [.numbers #[some (-9223372036854775808), none], .texts #[some "x=y", none]] 2⟩
    "t" ≠ catalogName ∧ (new.after requests).table? "t" = some t ∧ (new.after requests).Restores "t" t := by
  intro requests t
  have hn : "t" ≠ catalogName := by decide
  have ht : (new.after requests).table? "t" = some t := by decide +kernel
  exact ⟨hn, ht, restore_after requests hn ht⟩

end Session

end Tabular
