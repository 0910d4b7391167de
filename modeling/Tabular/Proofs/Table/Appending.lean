import Tabular.Proofs.Table.Aligned

/-!
# Appending rows of any shape

Rows are appended without a check, so they may be too short, too long, or hold cells of the wrong kind. The linear
engine gives them back as they are. In the column engine every vector takes the cells that the rows have at its place,
whatever rows these come from, and loses those of another kind (`ColumnVector.getElem?_pushRows`,
`ColumnVector.cell_pushes`); so a row that is too short moves what later rows have in the columns that it lacks. Rows
that are long enough come back one for one, and rows that fit come back as they are.

A visitor carries a state from row to row and may fail. Either engine makes the visits in order until one fails
(`Storage.outcomeIn_forRows`). The main statement is `Table.recalls`.
-/

namespace Tabular

/-! ## What comes back -/

/-- The cell as a vector of the type keeps it: a cell of another kind is lost. -/
def Cell.kept (type : ColumnType) (c : Cell) : Cell :=
  if c.kind = type.kind then c else .null

/-- The cells that the rows have at a place, from those rows that are long enough. -/
def cellsUnder (rows : List Row) (j : Nat) : List Cell :=
  rows.filterMap (·[j]?)

/-- The cells of a row for which there are columns, as the columns keep them. -/
def Row.kept (columns : List Column) (r : Row) : Row :=
  List.zipWith (fun c cell => cell.kept c.type) columns r

/-! ## Visitors -/

section Visitors

variable {σ ε : Type}

/-- What a computation comes to in a state, and the state after it, also when it fails. -/
def outcomeIn (x : ExceptT ε (StateM σ) Unit) (s : σ) : Except ε Unit × σ :=
  (x.run.run s).run

/-- All visits succeed, one after the other, and lead from the first state to the second. -/
inductive Passes (visit : Row → ExceptT ε (StateM σ) Unit) : List Row → σ → σ → Prop where
  | nil (s : σ) : Passes visit [] s s
  | cons {r : Row} {rows : List Row} {s s₁ s₂ : σ} (h : outcomeIn (visit r) s = (.ok (), s₁))
      (hrows : Passes visit rows s₁ s₂) : Passes visit (r :: rows) s s₂

/-- What visiting rows in order comes to: all visits are made and succeed, or they are made up to the first one that
fails, and its error is the outcome. -/
inductive Visits (visit : Row → ExceptT ε (StateM σ) Unit) (rows : List Row) (s : σ) : Except ε Unit × σ → Prop where
  | all {s' : σ} (h : Passes visit rows s s') : Visits visit rows s (.ok (), s')
  | failed {before after : List Row} {r : Row} {s₁ s₂ : σ} {e : ε} (hrows : rows = before ++ r :: after)
      (h : Passes visit before s s₁) (hr : outcomeIn (visit r) s₁ = (.error e, s₂)) :
      Visits visit rows s (.error e, s₂)

theorem outcomeIn_bind (x y : ExceptT ε (StateM σ) Unit) (s : σ) : outcomeIn (x >>= fun _ => y) s =
    match outcomeIn x s with
    | (.ok _, s') => outcomeIn y s'
    | (.error e, s') => (.error e, s') := by
  rcases h : outcomeIn x s with ⟨result, s'⟩
  have hx : x.run.run s = (result, s') := h
  rw [outcomeIn, ExceptT.run_bind, StateT.run_bind, hx]
  cases result <;> rfl

/-- One more visit before the others. -/
theorem Visits.cons {visit : Row → ExceptT ε (StateM σ) Unit} {r : Row} {rows : List Row} {s s₁ : σ}
    {out : Except ε Unit × σ} (h : outcomeIn (visit r) s = (.ok (), s₁)) (hrows : Visits visit rows s₁ out) :
    Visits visit (r :: rows) s out := by
  cases hrows with
  | all hp => exact .all (.cons h hp)
  | failed hsplit hp hr =>
    subst hsplit
    exact .failed rfl (.cons h hp) hr

/-- Going through rows in order makes the visits. -/
theorem visits_forM (visit : Row → ExceptT ε (StateM σ) Unit) (rows : List Row) (s : σ) :
    Visits visit rows s (outcomeIn (rows.forM visit) s) := by
  induction rows generalizing s with
  | nil => exact .all (.nil s)
  | cons r rows ih =>
    have hforM : (r :: rows).forM visit = visit r >>= fun _ => rows.forM visit := rfl
    rw [hforM, outcomeIn_bind]
    rcases h : outcomeIn (visit r) s with ⟨result, s₁⟩
    cases result with
    | error e => exact .failed rfl (.nil s) h
    | ok u => exact .cons h (ih s₁)

/-- After visits that succeed nothing is done but what follows. -/
theorem Passes.outcomeIn_bind {visit : Row → ExceptT ε (StateM σ) Unit} {rows : List Row} {s s' : σ}
    (h : Passes visit rows s s') (y : ExceptT ε (StateM σ) Unit) :
    outcomeIn (rows.forM visit >>= fun _ => y) s = outcomeIn y s' := by
  induction h with
  | nil s => rfl
  | cons h _ ih =>
    rw [List.forM_eq_forM] at ih ⊢
    rw [List.forM_cons, bind_assoc, Tabular.outcomeIn_bind, h]
    exact ih

/-- What going through rows comes to is what the visits come to. -/
theorem outcomeIn_forM {visit : Row → ExceptT ε (StateM σ) Unit} {rows : List Row} {s : σ}
    {out : Except ε Unit × σ} : outcomeIn (rows.forM visit) s = out ↔ Visits visit rows s out := by
  constructor
  · rintro rfl
    exact visits_forM visit rows s
  · intro h
    cases h with
    | all h =>
      have hend := h.outcomeIn_bind (pure ())
      rwa [bind_pure_unit] at hend
    | @failed before after r s₁ s₂ e hrows h hr =>
      have hrest := h.outcomeIn_bind (visit r >>= fun _ => forM after visit)
      rw [List.forM_eq_forM] at hrest ⊢
      rw [hrows, List.forM_append, List.forM_cons, hrest, Tabular.outcomeIn_bind, hr]

end Visitors

/-! ## Vectors -/

namespace ColumnVector

variable {v : ColumnVector}

/-- Past the end there is nothing. -/
theorem cell_of_size_le {i : Nat} (h : v.size ≤ i) : v.cell i = .null := by
  cases v with
  | numbers values => simp [cell, Array.getElem?_eq_none h]
  | texts values => simp [cell, Array.getElem?_eq_none h]

/-- The cell that was added last is kept as the type allows. -/
theorem cell_push_last (v : ColumnVector) (c : Cell) : (v.push c).cell v.size = c.kept v.type := by
  cases v <;> cases c <;> simp [push, cell, size, type, Cell.kept, Cell.kind, ColumnType.kind]

/-- The cells that were added come after those that were there, as the type keeps them. -/
theorem cell_pushes (v : ColumnVector) (cells : List Cell) (i : Nat) : (cells.foldl push v).cell i =
    if i < v.size then v.cell i else (cells[i - v.size]?.map (Cell.kept v.type)).getD .null := by
  induction cells generalizing v with
  | nil =>
    split
    · rfl
    · simpa using cell_of_size_le (by omega)
  | cons c cells ih =>
    rw [List.foldl_cons, ih, size_push, type_push]
    rcases Nat.lt_trichotomy i v.size with h | rfl | h
    · rw [if_pos (by omega), if_pos h, cell_push_of_lt h]
    · simp [cell_push_last]
    · have hi : i - v.size = (i - (v.size + 1)) + 1 := by omega
      rw [if_neg (by omega), if_neg (by omega), hi, List.getElem?_cons_succ]

/-- In an empty vector the cells stand from the front. -/
theorem cell_pushes_empty (type : ColumnType) (cells : List Cell) (i : Nat) :
    (cells.foldl push (empty type)).cell i = (cells[i]?.map (Cell.kept type)).getD .null := by
  simp [cell_pushes]

/-- A row adds its cell to the vector at the same place, if it has one there. -/
theorem getElem?_pushRow (vs : List ColumnVector) (r : Row) (j : Nat) :
    (pushRow vs r)[j]? = vs[j]?.map fun v => r[j]?.toList.foldl push v := by
  induction vs generalizing r j with
  | nil => cases r <;> simp [pushRow]
  | cons v vs ih =>
    cases r with
    | nil => simp [pushRow]
    | cons c cs =>
      cases j with
      | zero => simp [pushRow]
      | succ j => simpa [pushRow] using ih cs j

theorem length_pushRows (vs : List ColumnVector) (rows : List Row) : (rows.foldl pushRow vs).length = vs.length := by
  induction rows generalizing vs with
  | nil => rfl
  | cons r rows ih => rw [List.foldl_cons, ih, length_pushRow]

/-- Rows add to every vector the cells that they have at its place. -/
theorem getElem?_pushRows (vs : List ColumnVector) (rows : List Row) (j : Nat) :
    (rows.foldl pushRow vs)[j]? = vs[j]?.map fun v => (cellsUnder rows j).foldl push v := by
  induction rows generalizing vs with
  | nil => simp [cellsUnder]
  | cons r rows ih =>
    have hcells : cellsUnder (r :: rows) j = r[j]?.toList ++ cellsUnder rows j := by
      unfold cellsUnder
      rw [List.filterMap_cons]
      cases r[j]? <;> rfl
    rw [List.foldl_cons, ih, getElem?_pushRow, hcells, Option.map_map]
    simp [Function.comp_def, List.foldl_append]

end ColumnVector

/-! ## Storages -/

namespace Storage

theorem append_append (s : Storage) (rows rows' : List Row) : (s.append rows).append rows' = s.append (rows ++ rows') :=
  List.foldl_append.symm

/-- The column engine counts rows and hands them to its vectors. -/
theorem append_column (vectors : List ColumnVector) (count : Nat) (rows : List Row) :
    (column vectors count).append rows = column (rows.foldl ColumnVector.pushRow vectors) (count + rows.length) := by
  induction rows generalizing vectors count with
  | nil => rfl
  | cons r rows ih =>
    have h : (column vectors count).append (r :: rows) =
        (column (ColumnVector.pushRow vectors r) (count + 1)).append rows := rfl
    rw [h, ih, List.foldl_cons, List.length_cons]
    congr 1
    omega

/-- The cells of the rows that come back from the column engine. -/
theorem getElem?_row (columns : List Column) (rows : List Row) (i j : Nat) :
    (ColumnVector.row (rows.foldl ColumnVector.pushRow (columns.map fun c => .empty c.type)) i)[j]? =
      columns[j]?.map fun c => ((cellsUnder rows j)[i]?.map (Cell.kept c.type)).getD .null := by
  rw [ColumnVector.row, List.getElem?_map, ColumnVector.getElem?_pushRows, List.getElem?_map, Option.map_map,
    Option.map_map]
  simp only [Function.comp_def, ColumnVector.cell_pushes_empty]

/-- What a scan comes to is what the visits of the rows in order come to, in either engine. -/
theorem outcomeIn_forRows {σ ε : Type} (st : Storage) {visit : Row → ExceptT ε (StateM σ) Unit} {s : σ}
    {out : Except ε Unit × σ} : outcomeIn (st.forRows visit) s = out ↔ Visits visit st.rows s out := by
  rw [forRows_eq_forM, outcomeIn_forM]

end Storage

/-! ## Tables -/

namespace Table

/-- A table to which rows were appended in several calls, none of them checked. -/
def appended (schema : Schema) (engine : Engine) (calls : List (List Row)) : Table :=
  calls.foldl append (empty schema engine)

/-- What is known of rows of any shape that were appended. -/
structure Recalls (schema : Schema) (calls : List (List Row)) : Prop where
  counts : ∀ engine, (appended schema engine calls).rowCount = calls.flatten.length
  linear : (appended schema .linear calls).rows = calls.flatten
  /-- The column engine gives back as many rows as were appended, all as wide as the schema. -/
  length : (appended schema .column calls).rows.length = calls.flatten.length
  widths : ∀ r ∈ (appended schema .column calls).rows, r.length = schema.width
  /-- The cell in row `i` and column `j` is the `i`-th of those that rows have at place `j`, if it has the kind of the
  column. -/
  cells : ∀ (i j : Nat) (r : Row) (c : Column), (appended schema .column calls).rows[i]? = some r →
    schema.columns[j]? = some c →
      r[j]? = some (((cellsUnder calls.flatten j)[i]?.map (Cell.kept c.type)).getD .null)
  /-- Rows that are long enough come back one for one. -/
  wide : (∀ r ∈ calls.flatten, schema.width ≤ r.length) →
    (appended schema .column calls).rows = calls.flatten.map (Row.kept schema.columns)
  /-- Where all rows fit, the engines cannot be told apart. -/
  fits : (∀ r ∈ calls.flatten, Row.Fits schema.columns r) →
    (appended schema .column calls).rows = (appended schema .linear calls).rows ∧
      ∀ {m : Type → Type} [Monad m] [LawfulMonad m] (visit : Row → m Unit),
        (appended schema .column calls).forRows visit = (appended schema .linear calls).forRows visit
  /-- A scan makes the visits in order up to the first one that fails, in either engine. -/
  visits : ∀ engine {σ ε : Type} (visit : Row → ExceptT ε (StateM σ) Unit) (s : σ) (out : Except ε Unit × σ),
    outcomeIn ((appended schema engine calls).forRows visit) s = out ↔
      Visits visit (appended schema engine calls).rows s out

variable (schema : Schema) (engine : Engine) (calls : List (List Row))

/-- Several calls append what one call appends with all their rows. -/
theorem foldl_append (t : Table) : calls.foldl append t = t.append calls.flatten := by
  induction calls generalizing t with
  | nil => rfl
  | cons rows calls ih =>
    have happend := Storage.append_append t.storage rows calls.flatten
    rw [List.foldl_cons, ih, List.flatten_cons]
    simp only [append, happend]

theorem appended_eq : appended schema engine calls = (empty schema engine).append calls.flatten :=
  foldl_append calls _

theorem rows_appended_linear : (appended schema .linear calls).rows = calls.flatten := by
  rw [appended_eq]
  exact Storage.rows_append_linear #[] _

/-- The rows that the column engine gives back, one for each that was appended. -/
theorem rows_appended_column : (appended schema .column calls).rows =
    (List.range calls.flatten.length).map (ColumnVector.row
      (calls.flatten.foldl ColumnVector.pushRow (schema.columns.map fun c => .empty c.type))) := by
  have hstorage : ((empty schema .column).append calls.flatten).storage = .column
      (calls.flatten.foldl ColumnVector.pushRow (schema.columns.map fun c => .empty c.type))
      (0 + calls.flatten.length) := Storage.append_column _ 0 _
  rw [appended_eq, rows, hstorage, Nat.zero_add]
  rfl

theorem rowCount_appended : (appended schema engine calls).rowCount = calls.flatten.length := by
  have hempty : (Storage.empty engine schema.columns).rowCount = 0 := by cases engine <;> rfl
  have happend := Storage.rowCount_append (.empty engine schema.columns) calls.flatten
  rw [hempty, Nat.zero_add] at happend
  rw [appended_eq]
  exact happend

end Table

/-- Where all rows are long enough, the cells at a place are those of the rows one for one. -/
theorem cellsUnder_eq_map {rows : List Row} {j : Nat} (h : ∀ r ∈ rows, j < r.length) (i : Nat) :
    (cellsUnder rows j)[i]? = rows[i]?.bind (·[j]?) := by
  induction rows generalizing i with
  | nil => rfl
  | cons r rows ih =>
    obtain ⟨hr, hrows⟩ := List.forall_mem_cons.mp h
    have hcells : cellsUnder (r :: rows) j = r[j] :: cellsUnder rows j :=
      List.filterMap_cons_some (List.getElem?_eq_getElem hr)
    rw [hcells]
    cases i with
    | zero => simp
    | succ i => simpa using ih hrows i

theorem Cell.kept_of_fits {type : ColumnType} {c : Cell} (h : c.fits type = true) : c.kept type = c := by
  cases type with
  | int => rcases fits_int_iff.mp h with rfl | ⟨n, rfl⟩ <;> rfl
  | text => rcases fits_text_iff.mp h with rfl | ⟨s, rfl⟩ <;> rfl

/-- A row that fits is kept as it is. -/
theorem Row.Fits.kept {columns : List Column} {r : Row} (h : Row.Fits columns r) : r.kept columns = r := by
  induction h with
  | nil => rfl
  | cons hc _ ih =>
    simp only [Row.kept, List.zipWith_cons_cons, Cell.kept_of_fits hc] at ih ⊢
    rw [ih]

namespace Table

variable (schema : Schema) (engine : Engine) (calls : List (List Row))

/-- The row at a place that the column engine gives back, cell by cell. -/
theorem getElem?_appended {r : Row} {i : Nat} (h : (appended schema .column calls).rows[i]? = some r) (j : Nat) :
    r[j]? = schema.columns[j]?.map fun c =>
      ((cellsUnder calls.flatten j)[i]?.map (Cell.kept c.type)).getD .null := by
  rw [rows_appended_column, List.getElem?_map] at h
  obtain ⟨i', hi, rfl⟩ := Option.map_eq_some_iff.mp h
  obtain ⟨-, rfl⟩ := List.getElem?_eq_some_iff.mp hi
  rw [List.getElem_range]
  exact Storage.getElem?_row _ _ i j

theorem length_rows_appended : (appended schema .column calls).rows.length = calls.flatten.length := by
  rw [← rowCount_appended schema .column calls]
  exact Storage.length_rows _

theorem length_of_mem_appended {r : Row} (h : r ∈ (appended schema .column calls).rows) : r.length = schema.width := by
  rw [rows_appended_column] at h
  obtain ⟨i, -, rfl⟩ := List.mem_map.mp h
  rw [ColumnVector.row, List.length_map, ColumnVector.length_pushRows, List.length_map]
  rfl

/-- Rows that are long enough come back one for one, with the cells for which there are columns. -/
theorem rows_appended_of_le (h : ∀ r ∈ calls.flatten, schema.width ≤ r.length) :
    (appended schema .column calls).rows = calls.flatten.map (Row.kept schema.columns) := by
  have hlength := length_rows_appended schema calls
  refine List.ext_getElem (by rw [hlength, List.length_map]) fun i hi hi' => ?_
  rw [List.length_map] at hi'
  rw [List.getElem_map]
  apply List.ext_getElem?
  intro j
  rw [getElem?_appended schema calls (List.getElem?_eq_getElem hi) j, Row.kept, List.getElem?_zipWith]
  cases hc : schema.columns[j]? with
  | none => rfl
  | some c =>
    -- the column is there, so every row has a cell for it
    obtain ⟨hj, -⟩ := List.getElem?_eq_some_iff.mp hc
    have hcells : ∀ r ∈ calls.flatten, j < r.length := fun r hr => Nat.lt_of_lt_of_le hj (h r hr)
    have hcell := hcells _ (List.getElem_mem hi')
    rw [cellsUnder_eq_map hcells, List.getElem?_eq_getElem hi', Option.bind_some, List.getElem?_eq_getElem hcell]
    rfl

/-- Rows that fit come back as they are. -/
theorem rows_appended_of_fits (h : ∀ r ∈ calls.flatten, Row.Fits schema.columns r) :
    (appended schema .column calls).rows = calls.flatten := by
  have hwide : ∀ r ∈ calls.flatten, schema.width ≤ r.length := by
    intro r hr
    exact Nat.le_of_eq (List.Forall₂.length_eq (h r hr))
  rw [rows_appended_of_le schema calls hwide]
  calc calls.flatten.map (Row.kept schema.columns) = calls.flatten.map id :=
        List.map_congr_left fun r hr => (h r hr).kept
    _ = calls.flatten := List.map_id _

/-- **Rows of any shape are counted, given back and visited as the engine has to.** -/
theorem recalls : Recalls schema calls where
  counts engine := rowCount_appended schema engine calls
  linear := rows_appended_linear schema calls
  length := length_rows_appended schema calls
  widths _ := length_of_mem_appended schema calls
  cells i j r c hr hc := by rw [getElem?_appended schema calls hr, hc, Option.map_some]
  wide := rows_appended_of_le schema calls
  fits h := by
    have hrows : (appended schema .column calls).rows = (appended schema .linear calls).rows := by
      rw [rows_appended_of_fits schema calls h, rows_appended_linear]
    refine ⟨hrows, fun visit => ?_⟩
    calc (appended schema .column calls).forRows visit
        = (appended schema .column calls).rows.forM visit := Storage.forRows_eq_forM _ _
      _ = (appended schema .linear calls).rows.forM visit := by rw [hrows]
      _ = (appended schema .linear calls).forRows visit := (Storage.forRows_eq_forM _ _).symm
  visits engine _ _ _ _ _ := Storage.outcomeIn_forRows _

/-- A row that is too short moves what the next one has in the column that it lacks. -/
example : (appended ⟨"t", [⟨"a", .int⟩, ⟨"b", .text⟩]⟩ .column
    [[[.number 1]], [[.number 2, .text "x"], [.text "y", .number 3]]]).rows =
      [[.number 1, .text "x"], [.number 2, .null], [.null, .null]] := by
  decide

end Table
end Tabular
