import Tabular.Table.Basic

/-!
# Sessions

A session holds tables by name, in the order in which they were created. One table is there from the start: the
catalog `system.tables`, which has a row with name and engine for every table, itself included.
-/

namespace Tabular

/-- The name of the catalog. -/
def catalogName : String := "system.tables"

/-- The row of the catalog for a table. -/
def catalogRow (name : String) (engine : Engine) : Row :=
  [.text name, .text engine.name]

/-- The layout of the catalog. -/
def catalogSchema : Schema :=
  ⟨catalogName, [⟨"table_name", .text⟩, ⟨"engine_type", .text⟩]⟩

/-- The catalog of a new session. -/
def newCatalog : Table :=
  (Table.empty catalogSchema .linear).append [catalogRow catalogName .linear]

/-- Tables by name, in the order in which they were created. -/
structure Session where
  tables : List (String × Table)
deriving DecidableEq, Repr

namespace Session

/-- A new session, which has the catalog only. -/
def new : Session :=
  ⟨[(catalogName, newCatalog)]⟩

/-- The table of a name. -/
def table? (s : Session) (name : String) : Option Table :=
  s.tables.lookup name

/-- The session with one more table. -/
def add (s : Session) (name : String) (t : Table) : Session :=
  ⟨s.tables ++ [(name, t)]⟩

/-- The session with another table under a name that it has. -/
def put (s : Session) (name : String) (t : Table) : Session :=
  ⟨s.tables.map fun (n, u) => (n, if n = name then t else u)⟩

/-- A new table is found under its name, and the tables that were there stay as they are. -/
theorem table?_add (s : Session) (name other : String) (t : Table) :
    (s.add name t).table? other = (s.table? other).or (if other = name then some t else none) := by
  simp only [add, table?, List.lookup_append, List.lookup_cons, List.lookup_nil]
  by_cases h : other = name
  · simp [h]
  · simp [h, beq_eq_false_iff_ne.mpr h]

/-- A table that is put under a name it has takes the place of the old one, and no other table changes. -/
theorem table?_put (s : Session) (name other : String) (t : Table) :
    (s.put name t).table? other = (s.table? other).map fun u => if other = name then t else u := by
  obtain ⟨tables⟩ := s
  simp only [put, table?]
  induction tables with
  | nil => rfl
  | cons entry tables ih =>
    obtain ⟨n, u⟩ := entry
    simp only [List.map_cons, List.lookup_cons]
    by_cases h : other = n
    · simp [h]
    · simp [ih, beq_eq_false_iff_ne.mpr h]

/-- The number of tables, the catalog included. -/
def tableCount (s : Session) : Nat :=
  s.tables.length

/-- The names of the tables, sorted by code points, with the numbers of their rows. -/
def rowCounts (s : Session) : List (String × Nat) :=
  (s.tables.map fun (name, t) => (name, t.rowCount)).mergeSort fun a b => a.1 ≤ b.1

end Session
end Tabular
