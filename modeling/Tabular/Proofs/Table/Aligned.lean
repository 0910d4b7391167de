import Tabular.Proofs.Schema.Rows
import Tabular.Table.Basic

/-!
# Both storages keep the rows that they are given

A column by column storage only gives rows back as they were added while its vectors are aligned: there is one for each
column, of the type of the column, and all are as long as the number of rows (`Storage.Aligned`). Rows that fit the
columns keep the vectors aligned and come back unchanged at the end (`Storage.rows_append`). A table is sound when its
storage is aligned and its rows fit the schema (`Table.Sound`); for sound tables the engine makes no difference.
-/

namespace Tabular

/-! ## Vectors -/

namespace ColumnVector

/-- The type of the values. -/
def type : ColumnVector → ColumnType
  | numbers _ => .int
  | texts _ => .text

/-- The number of cells that were added. -/
def size : ColumnVector → Nat
  | numbers values => values.size
  | texts values => values.size

@[simp] theorem type_empty (t : ColumnType) : (empty t).type = t := by cases t <;> rfl

@[simp] theorem size_empty (t : ColumnType) : (empty t).size = 0 := by cases t <;> rfl

@[simp] theorem type_push (v : ColumnVector) (c : Cell) : (v.push c).type = v.type := by
  cases v <;> cases c <;> rfl

@[simp] theorem size_push (v : ColumnVector) (c : Cell) : (v.push c).size = v.size + 1 := by
  cases v <;> cases c <;> simp [push, size]

/-- The cells that are there stay as they are. -/
theorem cell_push_of_lt {v : ColumnVector} {i : Nat} (h : i < v.size) (c : Cell) : (v.push c).cell i = v.cell i := by
  cases v with
  | numbers values =>
    have hi : i ≠ values.size := Nat.ne_of_lt h
    cases c <;> simp [push, cell, Array.getElem?_push, hi]
  | texts values =>
    have hi : i ≠ values.size := Nat.ne_of_lt h
    cases c <;> simp [push, cell, Array.getElem?_push, hi]

/-- A cell of the type of the vector can be read back. -/
theorem cell_push_size {v : ColumnVector} {c : Cell} (h : c.fits v.type = true) : (v.push c).cell v.size = c := by
  cases v with
  | numbers values => rcases Cell.fits_int_iff.mp h with rfl | ⟨n, rfl⟩ <;> simp [push, cell, size]
  | texts values => rcases Cell.fits_text_iff.mp h with rfl | ⟨s, rfl⟩ <;> simp [push, cell, size]

/-- The vectors are those of the columns, and each has `n` cells. -/
def Aligned (columns : List Column) (n : Nat) (vs : List ColumnVector) : Prop :=
  List.Forall₂ (fun c v => v.type = c.type ∧ v.size = n) columns vs

variable {columns : List Column} {n : Nat} {vs : List ColumnVector} {r : Row}

theorem aligned_empty (columns : List Column) : Aligned columns 0 (columns.map fun c => empty c.type) := by
  unfold Aligned
  rw [List.forall₂_map_right_iff, List.forall₂_same]
  exact fun c _ => ⟨type_empty _, size_empty _⟩

theorem aligned_pushRow (h : Aligned columns n vs) (hr : Row.Fits columns r) :
    Aligned columns (n + 1) (pushRow vs r) := by
  unfold Aligned at h
  induction h generalizing r with
  | nil => cases hr; exact .nil
  | cons hv _ ih =>
    cases hr with
    | cons _ hr => exact .cons ⟨(type_push _ _).trans hv.1, by rw [size_push, hv.2]⟩ (ih hr)

/-- The row that was added last comes back as it was. -/
theorem row_pushRow_last (h : Aligned columns n vs) (hr : Row.Fits columns r) : row (pushRow vs r) n = r := by
  unfold Aligned at h
  induction h generalizing r with
  | nil => cases hr; rfl
  | cons hv _ ih =>
    cases hr with
    | cons hc hr =>
      obtain ⟨ht, rfl⟩ := hv
      exact congrArg₂ List.cons (cell_push_size (by rw [ht]; exact hc)) (ih hr)

/-- The rows that were added before stay as they were. -/
theorem row_pushRow_of_lt (h : Aligned columns n vs) (hr : Row.Fits columns r) {i : Nat} (hi : i < n) :
    row (pushRow vs r) i = row vs i := by
  unfold Aligned at h
  induction h generalizing r with
  | nil => cases hr; rfl
  | cons hv _ ih =>
    cases hr with
    | cons _ hr =>
      obtain ⟨-, rfl⟩ := hv
      exact congrArg₂ List.cons (cell_push_of_lt hi _) (ih hr)

end ColumnVector

/-! ## Storages -/

namespace Storage

variable {columns : List Column} {s : Storage}

/-- The vectors of a storage that has them are aligned with its number of rows. -/
def Aligned (columns : List Column) : Storage → Prop
  | linear _ => True
  | column vectors count => ColumnVector.Aligned columns count vectors

theorem aligned_empty (engine : Engine) (columns : List Column) : (empty engine columns).Aligned columns :=
  match engine with
  | .linear => trivial
  | .column => ColumnVector.aligned_empty columns

theorem rows_empty (engine : Engine) (columns : List Column) : (empty engine columns).rows = [] := by
  cases engine <;> rfl

theorem engine_empty (engine : Engine) (columns : List Column) : (empty engine columns).engine = engine := by
  cases engine <;> rfl

theorem engine_append (s : Storage) (rs : List Row) : (s.append rs).engine = s.engine := by
  induction rs generalizing s with
  | nil => rfl
  | cons r rs ih =>
    have h : (s.push r).engine = s.engine := by cases s <;> rfl
    exact (ih (s.push r)).trans h

theorem aligned_push (h : s.Aligned columns) {r : Row} (hr : Row.Fits columns r) : (s.push r).Aligned columns :=
  match s with
  | linear _ => trivial
  | column _ _ => ColumnVector.aligned_pushRow h hr

/-- A row that fits is added at the end, in either storage. -/
theorem rows_push (h : s.Aligned columns) {r : Row} (hr : Row.Fits columns r) : (s.push r).rows = s.rows ++ [r] := by
  cases s with
  | linear stored => simp [push, rows]
  | column vectors count =>
    have hold : ∀ i ∈ List.range count, ColumnVector.row (ColumnVector.pushRow vectors r) i =
        ColumnVector.row vectors i :=
      fun i hi => ColumnVector.row_pushRow_of_lt h hr (List.mem_range.mp hi)
    simp only [push, rows, List.range_succ, List.map_append, List.map_cons, List.map_nil]
    rw [List.map_congr_left hold, ColumnVector.row_pushRow_last h hr]

/-- Rows that fit are added at the end in order, and the vectors stay aligned. -/
theorem rows_append (h : s.Aligned columns) {rs : List Row} (hr : ∀ r ∈ rs, Row.Fits columns r) :
    (s.append rs).Aligned columns ∧ (s.append rs).rows = s.rows ++ rs := by
  induction rs generalizing s with
  | nil => exact ⟨h, (List.append_nil _).symm⟩
  | cons r rs ih =>
    obtain ⟨hr, hrs⟩ := List.forall_mem_cons.mp hr
    obtain ⟨ha, hrows⟩ := ih (aligned_push h hr) hrs
    refine ⟨ha, ?_⟩
    calc (s.append (r :: rs)).rows = (s.push r).rows ++ rs := hrows
      _ = s.rows ++ r :: rs := by rw [rows_push h hr, List.append_assoc, List.singleton_append]

end Storage

/-! ## Tables -/

namespace Table

variable {t : Table} {rs : List Row}

/-- The storage is aligned with the columns of the schema, and every row fits them. -/
structure Sound (t : Table) : Prop where
  aligned : t.storage.Aligned t.schema.columns
  fits : ∀ r ∈ t.rows, Row.Fits t.schema.columns r

theorem sound_empty (schema : Schema) (engine : Engine) : (empty schema engine).Sound where
  aligned := Storage.aligned_empty engine schema.columns
  fits r hr := by
    rw [Table.rows, Table.empty, Storage.rows_empty] at hr
    exact absurd hr List.not_mem_nil

theorem engine_append (t : Table) (rs : List Row) : (t.append rs).engine = t.engine :=
  Storage.engine_append t.storage rs

/-- Rows that fit are added behind those that are there. -/
theorem Sound.rows_append (h : t.Sound) (hr : ∀ r ∈ rs, Row.Fits t.schema.columns r) :
    (t.append rs).rows = t.rows ++ rs :=
  (Storage.rows_append h.aligned hr).2

theorem Sound.append (h : t.Sound) (hr : ∀ r ∈ rs, Row.Fits t.schema.columns r) : (t.append rs).Sound where
  aligned := (Storage.rows_append h.aligned hr).1
  fits r hm := by
    rw [h.rows_append hr, List.mem_append] at hm
    exact hm.elim (h.fits r) (hr r)

/-- An insertion adds the rows that its value sets make, or nothing at all. -/
theorem insert_eq_ok_iff {i : Insertion} {t' : Table} {n : Nat} :
    t.insert i = .ok (t', n) ↔ ∃ rows, t.schema.rowsOf i = .ok rows ∧ t' = t.append rows ∧ n = rows.length := by
  unfold Table.insert
  rw [bind_eq_ok_iff]
  refine exists_congr fun rows => and_congr_right fun _ => ?_
  simp only [pure, Except.pure, Except.ok.injEq, Prod.mk.injEq, eq_comm]

end Table
end Tabular
