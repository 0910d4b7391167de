import Tabular.Schema.Basic
import Tabular.Table.ColumnVector

/-!
# Storage of rows

The two ways to keep the rows of a table: one after the other, or split into one vector for each column. Both are
seen through the same three things: how many rows have been added (`Storage.rowCount`), which rows they are
(`Storage.rows`), and a visit of each in the order in which they were added (`Storage.forRows`).
-/

namespace Tabular

/-- The rows of a table. -/
inductive Storage where
  /-- The rows as they were added. -/
  | linear (rows : Array Row)
  /-- The columns, and the number of rows that were added. -/
  | column (vectors : List ColumnVector) (count : Nat)
deriving DecidableEq, Repr, Inhabited

namespace Storage

/-- The storage of a new table. -/
def empty (engine : Engine) (columns : List Column) : Storage :=
  match engine with
  | .linear => linear #[]
  | .column => column (columns.map fun c => .empty c.type) 0

/-- The engine that keeps rows in this way. -/
def engine : Storage → Engine
  | linear _ => .linear
  | column _ _ => .column

/-- The number of rows that were added. -/
def rowCount : Storage → Nat
  | linear rows => rows.size
  | column _ count => count

/-- The storage with one more row. -/
def push : Storage → Row → Storage
  | linear rows, r => linear (rows.push r)
  | column vectors count, r => column (ColumnVector.pushRow vectors r) (count + 1)

/-- The storage with more rows at its end. -/
def append (s : Storage) (rows : List Row) : Storage :=
  rows.foldl push s

/-- The rows in the order in which they were added. -/
def rows : Storage → List Row
  | linear rows => rows.toList
  | column vectors count => (List.range count).map (ColumnVector.row vectors)

/-- Visits the rows in the order in which they were added. A visit that fails is the last one. -/
def forRows {m : Type → Type} [Monad m] (visit : Row → m Unit) : Storage → m Unit
  | linear rows => rows.forM visit
  | column vectors count => (List.range count).forM fun i => visit (ColumnVector.row vectors i)

/-! ## The three views agree -/

theorem rowCount_push (s : Storage) (r : Row) : (s.push r).rowCount = s.rowCount + 1 := by
  cases s <;> simp [push, rowCount]

/-- Every row that is appended counts, whatever its shape. -/
theorem rowCount_append (s : Storage) (rs : List Row) : (s.append rs).rowCount = s.rowCount + rs.length := by
  induction rs generalizing s with
  | nil => rfl
  | cons r rs ih =>
    have h : s.append (r :: rs) = (s.push r).append rs := rfl
    rw [h, ih, rowCount_push, List.length_cons]
    omega

theorem length_rows (s : Storage) : s.rows.length = s.rowCount := by
  cases s <;> simp [rows, rowCount]

/-- Visiting the rows is going through the list of rows. -/
theorem forRows_eq_forM {m : Type → Type} [Monad m] [LawfulMonad m] (visit : Row → m Unit) (s : Storage) :
    s.forRows visit = s.rows.forM visit := by
  cases s with
  | linear stored => obtain ⟨stored⟩ := stored; simp [forRows, rows]
  | column vectors count => simp [forRows, rows]

/-- The linear storage keeps the rows as they are. -/
theorem rows_append_linear (stored : Array Row) (rs : List Row) :
    ((linear stored).append rs).rows = stored.toList ++ rs := by
  induction rs generalizing stored with
  | nil => simp [append, rows]
  | cons r rs ih =>
    have h : (linear stored).append (r :: rs) = (linear (stored.push r)).append rs := rfl
    rw [h, ih, Array.toList_push, List.append_assoc, List.singleton_append]

end Storage
end Tabular
