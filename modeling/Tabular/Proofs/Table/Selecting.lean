import Mathlib.Data.List.Nodup
import Tabular.Proofs.Schema.Rows
import Tabular.Proofs.Statement.RoundTrip
import Tabular.Proofs.Token.Identifier
import Tabular.Table.Basic

/-!
# What a selection finds

A condition holds of a cell that is not null and compares with the value as the operator says (`Condition.Holds`). The
faults of a selection are the columns that are not there and the values of the wrong kind, in the order in which they
stand (`Schema.faults`); stored rows have no part in them. A selection that is read from a text succeeds exactly if it
has no fault, and then it finds the rows of which every condition holds (`Table.selects_of_ofText`).

The rows are tried one after the other, and each trial may fail. It never does: an operator that is read is one that is
known, the value of a number can be read as one, and a cell has the kind of its column (`Condition.test_eq`).
-/

namespace Tabular

/-! ## What a selection should find -/

/-- The values compare as the sign says. -/
def Compares {α : Type} [LT α] (sign : String) (a b : α) : Prop :=
  sign = "==" ∧ a = b ∨ sign = ">" ∧ b < a ∨ sign = "<" ∧ a < b

instance {α : Type} [LT α] [DecidableEq α] [DecidableLT α] (sign : String) (a b : α) : Decidable (Compares sign a b) :=
  inferInstanceAs (Decidable (_ ∨ _))

/-- The condition holds of a cell: numbers compare as integers and texts by their code points, and null is never
compared. -/
def Condition.Holds (c : Condition) : Cell → Prop
  | .null => False
  | .number n => ∃ m ∈ Text.readInteger? c.value.value, Compares c.operator.value n.toInt m.toInt
  | .text s => Compares c.operator.value s.toList c.value.value.toList

instance (c : Condition) (cell : Cell) : Decidable (c.Holds cell) :=
  match cell with
  | .null => inferInstanceAs (Decidable False)
  | .number _ => inferInstanceAs (Decidable (∃ m ∈ Text.readInteger? c.value.value, _))
  | .text _ => inferInstanceAs (Decidable (Compares _ _ _))

/-- The cell of a row in the column of a name. -/
def Row.under (r : Row) (s : Schema) (name : String) : Cell :=
  r.cell (s.names.idxOf name)

namespace Projection

/-- The columns that are asked for by name. -/
def names : Projection → List Token
  | all => []
  | columns names => names

/-- The names of the columns that are asked for: those of the schema for all of them. -/
def wanted (s : Schema) : Projection → List String
  | all => s.names
  | columns names => names.map (·.value)

end Projection

namespace Schema

/-- What is wrong with the name of a column. -/
def nameFault? (s : Schema) (name : Token) : Option TableError :=
  if name.value ∈ s.names then none else some (.unknownColumn s name.value)

/-- What is wrong with a condition. -/
def conditionFault? (s : Schema) (c : Condition) : Option TableError :=
  match s.columns.find? (·.name == c.column.value) with
  | none => some (.unknownColumn s c.column.value)
  | some column => if c.value.kind = column.type.kind then none else some (.incomparable c column.type.kind)

/-- All that is wrong with a selection: first the columns it asks for, then its conditions. -/
def faults (s : Schema) (q : Selection) : List TableError :=
  q.projection.names.filterMap s.nameFault? ++ q.conditions.filterMap s.conditionFault?

/-- The columns of the selection are there, and its values have the kinds of their columns. -/
def Admits (s : Schema) (q : Selection) : Prop :=
  (∀ name ∈ q.projection.names, name.value ∈ s.names) ∧
    ∀ c ∈ q.conditions, ∃ column ∈ s.columns, column.name = c.column.value ∧ c.value.kind = column.type.kind

end Schema

/-- The rows of which every condition of a selection holds, with the cells that are asked for. -/
def Table.matching (t : Table) (q : Selection) : Selected where
  header := q.projection.wanted t.schema
  rows := (t.rows.filter fun r => ∀ c ∈ q.conditions, c.Holds (r.under t.schema c.column.value)).map fun r =>
    (q.projection.wanted t.schema).map (r.under t.schema)

/-- The selections ask for the same columns and have the same conditions, in any order and any number of times. Where
their tokens stand does not matter. -/
def Selection.Alike (q q' : Selection) : Prop :=
  q.projection.mapTokens Token.unplaced = q'.projection.mapTokens Token.unplaced ∧
    ∀ c, c ∈ q.conditions.map (·.mapTokens Token.unplaced) ↔ c ∈ q'.conditions.map (·.mapTokens Token.unplaced)

/-- The selection succeeds exactly if the schema admits it, and then it finds what it should. Else it fails with the
first fault. Selections that are alike find the same. -/
structure Table.Selects (t : Table) (q : Selection) : Prop where
  succeeds : (∃ found, t.select q = .ok found) ↔ t.schema.Admits q
  fails : ∀ e, t.select q = .error e ↔ (t.schema.faults q).head? = some e
  found : ∀ found, t.select q = .ok found → found = t.matching q
  alike : ∀ q', q.Alike q' → ∀ found, t.select q = .ok found ↔ t.select q' = .ok found

/-! ## Comparing -/

namespace Operator

/-- How the operator is spelled. -/
def sign : Operator → String
  | equal => "=="
  | greater => ">"
  | less => "<"

theorem ofToken_eq_ok_iff {t : Token} {operator : Operator} :
    ofToken t = .ok operator ↔ t.kind = .symbol ∧ t.value = operator.sign := by
  unfold ofToken
  split
  · rename_i h
    cases operator <;> simp_all [sign]
  split
  · rename_i h
    cases operator <;> simp_all [sign]
  split
  · rename_i h
    cases operator <;> simp_all [sign]
  · cases operator <;> simp_all [sign]

theorem exists_ofToken {t : Token} (h : t.IsOperator) : ∃ operator, ofToken t = .ok operator := by
  obtain ⟨-, hk, hv | hv | hv⟩ := h
  · exact ⟨equal, ofToken_eq_ok_iff.mpr ⟨hk, hv⟩⟩
  · exact ⟨greater, ofToken_eq_ok_iff.mpr ⟨hk, hv⟩⟩
  · exact ⟨less, ofToken_eq_ok_iff.mpr ⟨hk, hv⟩⟩

/-- Numbers are compared as integers. -/
theorem allows_compare_int (operator : Operator) (n m : Int64) :
    operator.allows (compare n m) = true ↔ Compares operator.sign n.toInt m.toInt := by
  cases operator with
  | equal => simp [allows, Compares, sign, Int64.toInt_inj]
  | greater => simp [allows, Compares, sign, Std.compare_eq_gt, Int64.lt_iff_toInt_lt]
  | less => simp [allows, Compares, sign, Std.compare_eq_lt, Int64.lt_iff_toInt_lt]

/-- Texts are compared by their code points. -/
theorem allows_compare_text (operator : Operator) (s u : String) :
    operator.allows (compare s u) = true ↔ Compares operator.sign s.toList u.toList := by
  have hgreater : compare s u = .gt ↔ u.toList < s.toList :=
    (compareOfLessAndEq_eq_gt String.le_antisymm String.le_total String.not_le s u).trans String.lt_iff
  have hless : compare s u = .lt ↔ s.toList < u.toList := compareOfLessAndEq_eq_lt.trans String.lt_iff
  cases operator with
  | equal => simp [allows, Compares, sign, String.toList_inj]
  | greater => simp [allows, Compares, sign, hgreater]
  | less => simp [allows, Compares, sign, hless]

end Operator

/-- **A condition can be tried on every cell of its column**, and the trial says whether it holds. -/
theorem Condition.test_eq {c : Condition} (hc : c.WellFormed) {type : ColumnType} (hk : c.value.kind = type.kind)
    {cell : Cell} (hf : cell.fits type = true) : c.test cell = .ok (decide (c.Holds cell)) := by
  obtain ⟨-, hop, hvalue⟩ := hc
  obtain ⟨operator, ho⟩ := Operator.exists_ofToken hop
  have hsign := (Operator.ofToken_eq_ok_iff.mp ho).2
  rw [Condition.test, ho]
  cases type with
  | int =>
    have hk : c.value.kind = .number := hk
    obtain ⟨m, hm⟩ := Token.Faithful.readInteger? hvalue.1 hk
    rcases Cell.fits_int_iff.mp hf with rfl | ⟨n, rfl⟩
    · rfl
    · have hiff : operator.allows (compare n m) = decide (c.Holds (.number n)) := by
        rw [Bool.eq_iff_iff, decide_eq_true_iff, operator.allows_compare_int]
        simp [Holds, hm, hsign]
      simp only [hk, hm]
      exact congrArg Except.ok hiff
  | text =>
    have hk : c.value.kind = .identifier := hk
    rcases Cell.fits_text_iff.mp hf with rfl | ⟨s, rfl⟩
    · rfl
    · have hiff : operator.allows (compare s c.value.value) = decide (c.Holds (.text s)) := by
        rw [Bool.eq_iff_iff, decide_eq_true_iff, operator.allows_compare_text]
        simp [Holds, hsign]
      simp only [hk]
      exact congrArg Except.ok hiff

/-! ## Finding columns -/

/-- The cell at the place of a column may stand in it. -/
theorem Row.Fits.cell {columns : List Column} {r : Row} (h : Row.Fits columns r) {i : Nat} {c : Column}
    (hc : columns[i]? = some c) : (r.cell i).fits c.type = true := by
  obtain ⟨hi, rfl⟩ := List.getElem?_eq_some_iff.mp hc
  have hr : i < r.length := List.Forall₂.length_eq h ▸ hi
  have hcell : r.cell i = r[i] := by simp [Row.cell, hr]
  rw [hcell]
  exact List.Forall₂.get h hi hr

namespace Schema

variable {s : Schema}

/-- The first column of a name stands at the first place of the name. -/
theorem slot?_eq (s : Schema) (name : String) :
    s.slot? name = (s.columns.find? (·.name == name)).map fun c => ⟨s.names.idxOf name, c⟩ := by
  have h : ∀ (columns : List Column) (k : Nat),
      (columns.mapIdx fun i c => Slot.mk (k + i) c).find? (·.column.name == name) =
        (columns.find? (·.name == name)).map fun c => ⟨k + (columns.map (·.name)).idxOf name, c⟩ := by
    intro columns
    induction columns with
    | nil => intro k; rfl
    | cons c columns ih =>
      intro k
      rw [List.mapIdx_cons, List.find?_cons, List.find?_cons, List.map_cons, List.idxOf_cons]
      cases hc : c.name == name with
      | true => simp
      | false =>
        have hshift : (fun i c => Slot.mk (k + (i + 1)) c) = fun i c => Slot.mk (k + 1 + i) c := by
          funext i c
          rw [Nat.add_right_comm, Nat.add_assoc]
        have hplace (n : Nat) : k + 1 + n = k + (n + 1) := by omega
        simp only [hshift, ih, cond_false, hplace]
  have h0 := h s.columns 0
  simp only [Nat.zero_add] at h0
  exact h0

theorem slotOf_eq_ok_iff {name : Token} {slot : Slot} : s.slotOf name = .ok slot ↔
    s.columns.find? (·.name == name.value) = some slot.column ∧ slot.index = s.names.idxOf name.value := by
  rw [slotOf, slot?_eq]
  cases s.columns.find? (·.name == name.value) with
  | none => simp
  | some c =>
    obtain ⟨index, column⟩ := slot
    simp only [Option.map_some, Except.ok.injEq, Slot.mk.injEq, Option.some.injEq]
    exact ⟨fun ⟨hi, hc⟩ => ⟨hc, hi.symm⟩, fun ⟨hc, hi⟩ => ⟨hi.symm, hc⟩⟩

theorem mem_names_iff {name : String} : name ∈ s.names ↔ ∃ c ∈ s.columns, c.name = name :=
  List.mem_map

theorem find?_eq_none_iff {name : String} :
    s.columns.find? (·.name == name) = none ↔ name ∉ s.names := by
  rw [List.find?_eq_none, mem_names_iff]
  simp

theorem slotOf_eq_error_iff {name : Token} {e : TableError} :
    s.slotOf name = .error e ↔ s.nameFault? name = some e := by
  rw [slotOf, slot?_eq, nameFault?]
  cases hf : s.columns.find? (·.name == name.value) with
  | none => simp [find?_eq_none_iff.mp hf]
  | some c =>
    have hm : name.value ∈ s.names := by
      by_contra hm
      rw [find?_eq_none_iff.mpr hm] at hf
      cases hf
    simp [hm]

/-- A filter keeps its condition, whose column is found and is of the kind of the value. -/
theorem filter_spec {c : Condition} {f : Filter} (h : s.filter c = .ok f) :
    f = ⟨s.names.idxOf c.column.value, c⟩ ∧
      ∃ column, s.columns[f.index]? = some column ∧ c.value.kind = column.type.kind := by
  obtain ⟨slot, hs, h⟩ := bind_eq_ok_iff.mp h
  obtain ⟨-, -, h⟩ := bind_eq_ok_iff.mp h
  split at h
  · rename_i hk
    cases h
    exact ⟨by rw [(slotOf_eq_ok_iff.mp hs).2], slot.column, mem_slots.mp (mem_slots_of_slotOf hs), hk⟩
  · nomatch h

theorem filter_eq_error_iff {c : Condition} (hc : c.operator.IsOperator) {e : TableError} :
    s.filter c = .error e ↔ s.conditionFault? c = some e := by
  obtain ⟨operator, ho⟩ := Operator.exists_ofToken hc
  unfold Schema.filter conditionFault?
  rw [ho, slotOf, slot?_eq]
  cases s.columns.find? (·.name == c.column.value) with
  | none => simp [bind, Except.bind]
  | some column =>
    by_cases hk : c.value.kind = column.type.kind
    · simp [bind, Except.bind, hk, pure, Except.pure]
    · simp [bind, Except.bind, hk]

/-! ## Resolving -/

theorem project_eq_error_iff {p : Projection} {e : TableError} :
    s.project p = .error e ↔ (p.names.filterMap s.nameFault?).head? = some e := by
  cases p with
  | all => simp [project, Projection.names]
  | columns names => exact mapM_eq_error_iff fun name _ e => slotOf_eq_error_iff

/-- Resolving fails with the first fault. -/
theorem resolve_eq_error_iff {q : Selection} (hq : ∀ c ∈ q.conditions, c.WellFormed) {e : TableError} :
    s.resolve q = .error e ↔ (s.faults q).head? = some e := by
  have hfilters : ∀ e, q.conditions.mapM s.filter = .error e ↔
      (q.conditions.filterMap s.conditionFault?).head? = some e := by
    intro e
    exact mapM_eq_error_iff fun c hc e => filter_eq_error_iff (hq c hc).2.1
  unfold resolve faults
  rw [bind_eq_error_iff, project_eq_error_iff, List.head?_append]
  cases hp : s.project q.projection with
  | error e' => simp [project_eq_error_iff.mp hp]
  | ok projection =>
    have hnone : q.projection.names.filterMap s.nameFault? = [] :=
      (exists_ok_iff fun _ => project_eq_error_iff).mp ⟨projection, hp⟩
    rw [hnone, List.head?_nil, Option.none_or, ← hfilters]
    simp [bind_eq_error_iff, pure, Except.pure]

/-- A column is found by its name, since no other has it. -/
theorem find?_eq_some_iff (hn : s.names.Nodup) {name : String} {c : Column} :
    s.columns.find? (·.name == name) = some c ↔ c ∈ s.columns ∧ c.name = name := by
  constructor
  · intro h
    exact ⟨List.mem_of_find?_eq_some h, by simpa using List.find?_some h⟩
  · rintro ⟨hc, rfl⟩
    cases hf : s.columns.find? (·.name == c.name) with
    | none => exact absurd (mem_names_iff.mpr ⟨c, hc, rfl⟩) (find?_eq_none_iff.mp hf)
    | some d =>
      have hd : d.name = c.name := by simpa using List.find?_some hf
      rw [List.inj_on_of_nodup_map hn (List.mem_of_find?_eq_some hf) hc hd]

/-- The selections that are admitted are those without a fault. -/
theorem faults_eq_nil_iff (hn : s.names.Nodup) {q : Selection} : s.faults q = [] ↔ s.Admits q := by
  rw [faults, List.append_eq_nil_iff, List.filterMap_eq_nil_iff, List.filterMap_eq_nil_iff]
  refine and_congr (forall₂_congr fun name _ => ?_) (forall₂_congr fun c _ => ?_)
  · simp [nameFault?]
  · unfold conditionFault?
    cases hf : s.columns.find? (·.name == c.column.value) with
    | none =>
      refine iff_of_false nofun ?_
      rintro ⟨column, hm, hname, -⟩
      exact find?_eq_none_iff.mp hf (mem_names_iff.mpr ⟨column, hm, hname⟩)
    | some column =>
      obtain ⟨hm, hname⟩ := (find?_eq_some_iff hn).mp hf
      constructor
      · intro hk
        exact ⟨column, hm, hname, by simpa using hk⟩
      · rintro ⟨column', hm', hname', hk⟩
        have hcolumn : column' = column := List.inj_on_of_nodup_map hn hm' hm (hname'.trans hname.symm)
        rw [← hcolumn]
        exact if_pos hk

/-- A column stands at the only place of its name. -/
theorem index_of_mem_slots (hn : s.names.Nodup) {slot : Slot} (h : slot ∈ s.slots) :
    slot.index = s.names.idxOf slot.column.name := by
  obtain ⟨hi, hc⟩ := List.getElem?_eq_some_iff.mp (mem_slots.mp h)
  have hi' : slot.index < s.names.length := by simpa [names] using hi
  have hname : s.names[slot.index] = slot.column.name := by simp [names, hc]
  rw [← hname, hn.idxOf_getElem]

/-- The slots that are asked for have the wanted names and stand at the first places of their names. -/
theorem project_names (hn : s.names.Nodup) {p : Projection} {slots : List Slot} (h : s.project p = .ok slots) :
    slots.map (·.column.name) = p.wanted s ∧ ∀ slot ∈ slots, slot.index = s.names.idxOf slot.column.name := by
  cases p with
  | all =>
    cases h
    exact ⟨s.map_name_slots, fun slot hs => index_of_mem_slots hn hs⟩
  | columns ns =>
    have hslots := mapM_eq_ok_iff.mp h
    have hname : ∀ {name slot}, s.slotOf name = .ok slot → slot.column.name = name.value := by
      intro name slot hs
      simpa using List.find?_some (slotOf_eq_ok_iff.mp hs).1
    constructor
    · rw [Projection.wanted, eq_comm, ← List.forall₂_eq_eq_eq, List.forall₂_map_left_iff, List.forall₂_map_right_iff]
      exact hslots.imp fun _ _ hs => (hname hs).symm
    · intro slot hs
      obtain ⟨name, -, hs⟩ := exists_of_mem_forall₂ hslots hs
      rw [hname hs]
      exact (slotOf_eq_ok_iff.mp hs).2

end Schema

/-! ## Finding rows -/

/-- When every filter can be tried, a row passes exactly if all their conditions hold. -/
theorem Row.passes_eq {r : Row} {filters : List Filter}
    (h : ∀ f ∈ filters, f.condition.test (r.cell f.index) = .ok (decide (f.condition.Holds (r.cell f.index)))) :
    r.passes filters = .ok (decide (∀ f ∈ filters, f.condition.Holds (r.cell f.index))) := by
  induction filters with
  | nil => simp [passes]
  | cons f filters ih =>
    obtain ⟨hf, hfs⟩ := List.forall_mem_cons.mp h
    rw [passes, hf]
    by_cases hc : f.condition.Holds (r.cell f.index)
    · simp [bind, Except.bind, hc, ih hfs]
    · simp [bind, Except.bind, hc, pure, Except.pure]

namespace Table

variable {t : Table} {q : Selection}

/-- Every filter that was made from a condition can be tried on the rows. -/
theorem test_filter {r : Row} {filters : List Filter} (hr : Row.Fits t.schema.columns r)
    (hq : ∀ c ∈ q.conditions, c.WellFormed) (hf : q.conditions.mapM t.schema.filter = .ok filters) :
    ∀ f ∈ filters, f.condition.test (r.cell f.index) = .ok (decide (f.condition.Holds (r.cell f.index))) := by
  intro f hm
  obtain ⟨c, hc, h⟩ := exists_of_mem_mapM hf hm
  obtain ⟨rfl, column, hcolumn, hk⟩ := Schema.filter_spec h
  exact Condition.test_eq (hq c hc) hk (hr.cell hcolumn)

/-- **Once its columns have been found, no row makes a selection fail**, and it finds what it should. -/
theorem select_eq_of_resolve (hrows : ∀ r ∈ t.rows, Row.Fits t.schema.columns r) (hn : t.schema.names.Nodup)
    (hq : ∀ c ∈ q.conditions, c.WellFormed) {plan : ResolvedSelection} (h : t.schema.resolve q = .ok plan) :
    t.select q = .ok (t.matching q) := by
  obtain ⟨projection, hp, h'⟩ := bind_eq_ok_iff.mp h
  obtain ⟨filters, hf, h'⟩ := bind_eq_ok_iff.mp h'
  cases h'
  obtain ⟨hnames, hplaces⟩ := Schema.project_names hn hp
  have hfilters : filters = q.conditions.map fun c => ⟨t.schema.names.idxOf c.column.value, c⟩ := by
    rw [eq_comm, ← List.forall₂_eq_eq_eq, List.forall₂_map_left_iff]
    exact (mapM_eq_ok_iff.mp hf).imp fun c f hf => (Schema.filter_spec hf).1.symm
  have hpasses : ∀ r ∈ t.rows, r.passes filters =
      .ok (decide (∀ c ∈ q.conditions, c.Holds (r.under t.schema c.column.value))) := by
    intro r hr
    rw [Row.passes_eq (test_filter (hrows r hr) hq hf)]
    simp only [hfilters, List.forall_mem_map]
    rfl
  have houtput : ∀ r : Row, ResolvedSelection.output ⟨projection, filters⟩ r =
      (q.projection.wanted t.schema).map (r.under t.schema) := by
    intro r
    rw [← hnames, List.map_map]
    refine List.map_congr_left fun slot hs => ?_
    show r.cell slot.index = r.cell (t.schema.names.idxOf slot.column.name)
    rw [hplaces slot hs]
  have hfound : ∀ r ∈ t.rows, ResolvedSelection.output? ⟨projection, filters⟩ r =
      .ok (if ∀ c ∈ q.conditions, c.Holds (r.under t.schema c.column.value) then
        some ((q.projection.wanted t.schema).map (r.under t.schema)) else none) := by
    intro r hr
    rw [ResolvedSelection.output?, ResolvedSelection.finds, hpasses r hr, houtput]
    by_cases hc : ∀ c ∈ q.conditions, c.Holds (r.under t.schema c.column.value)
    · rw [if_pos hc, decide_eq_true hc]
      rfl
    · rw [if_neg hc, decide_eq_false hc]
      rfl
  rw [Table.select, h]
  refine bind_eq_ok_iff.mpr ⟨_, rfl, bind_eq_ok_iff.mpr ⟨_, filterMapM_eq_ok hfound, ?_⟩⟩
  rw [ResolvedSelection.header, hnames, Table.matching, ← List.filterMap_eq_map, List.filterMap_filter]
  simp only [decide_eq_true_eq]
  rfl

end Table

/-! ## Selections that are alike -/

theorem Condition.holds_unplaced {c : Condition} {cell : Cell} :
    (c.mapTokens Token.unplaced).Holds cell ↔ c.Holds cell := by
  cases cell <;> rfl

namespace Selection.Alike

variable {q q' : Selection} (h : q.Alike q')
include h

/-- What does not depend on places holds of all conditions of both or of neither. -/
theorem forall_iff {P : Condition → Prop} (hP : ∀ c, P (c.mapTokens Token.unplaced) ↔ P c) :
    (∀ c ∈ q.conditions, P c) ↔ ∀ c ∈ q'.conditions, P c := by
  have hmap (cs : List Condition) : (∀ c ∈ cs.map (·.mapTokens Token.unplaced), P c) ↔ ∀ c ∈ cs, P c := by
    rw [List.forall_mem_map]
    exact forall₂_congr fun c _ => hP c
  rw [← hmap, ← hmap q'.conditions]
  exact forall_congr' fun c => imp_congr_left (h.2 c)

theorem names : q.projection.names.map (·.value) = q'.projection.names.map (·.value) := by
  have hmap (p : Projection) :
      (p.mapTokens Token.unplaced).names.map (·.value) = p.names.map (·.value) := by
    cases p with
    | all => rfl
    | columns names =>
      rw [Projection.mapTokens, Projection.names, List.map_map]
      rfl
  rw [← hmap, h.1, hmap]

theorem wanted (s : Schema) : q.projection.wanted s = q'.projection.wanted s := by
  have hmap (p : Projection) : (p.mapTokens Token.unplaced).wanted s = p.wanted s := by
    cases p with
    | all => rfl
    | columns names =>
      rw [Projection.mapTokens, Projection.wanted, List.map_map]
      rfl
  rw [← hmap, h.1, hmap]

theorem admits_iff (s : Schema) : s.Admits q ↔ s.Admits q' := by
  refine and_congr ?_ (h.forall_iff fun c => Iff.rfl)
  have hmap (ts : List Token) : (∀ t ∈ ts, t.value ∈ s.names) ↔ ∀ name ∈ ts.map (·.value), name ∈ s.names := by
    rw [List.forall_mem_map]
  rw [hmap, h.names, ← hmap]

theorem matching_eq (t : Table) : t.matching q = t.matching q' := by
  have hholds (r : Row) : (∀ c ∈ q.conditions, c.Holds (r.under t.schema c.column.value)) ↔
      ∀ c ∈ q'.conditions, c.Holds (r.under t.schema c.column.value) :=
    h.forall_iff fun _ => Condition.holds_unplaced
  simp only [Table.matching, h.wanted, hholds]

end Selection.Alike

/-! ## Selecting -/

namespace Table

variable {t : Table} {q : Selection}

/-- A selection fails with its first fault, whatever rows are stored. -/
theorem select_eq_error_iff (hrows : ∀ r ∈ t.rows, Row.Fits t.schema.columns r) (hn : t.schema.names.Nodup)
    (hq : ∀ c ∈ q.conditions, c.WellFormed) {e : TableError} :
    t.select q = .error e ↔ (t.schema.faults q).head? = some e := by
  rw [← Schema.resolve_eq_error_iff hq]
  cases hr : t.schema.resolve q with
  | error e' => simp [Table.select, hr, bind, Except.bind]
  | ok plan => simp [select_eq_of_resolve hrows hn hq hr]

/-- A selection that is admitted finds what it should, and no other one finds anything. -/
theorem select_eq_ok_iff (hrows : ∀ r ∈ t.rows, Row.Fits t.schema.columns r) (hn : t.schema.names.Nodup)
    (hq : ∀ c ∈ q.conditions, c.WellFormed) {found : Selected} :
    t.select q = .ok found ↔ t.schema.Admits q ∧ found = t.matching q := by
  rw [← Schema.faults_eq_nil_iff hn, ← exists_ok_iff fun _ => Schema.resolve_eq_error_iff hq]
  cases hr : t.schema.resolve q with
  | error e => simp [Table.select, hr, bind, Except.bind]
  | ok plan => simp [select_eq_of_resolve hrows hn hq hr, eq_comm]

theorem selects_of_wellFormed (hrows : ∀ r ∈ t.rows, Row.Fits t.schema.columns r) (hn : t.schema.names.Nodup)
    (hq : ∀ c ∈ q.conditions, c.WellFormed) : t.Selects q where
  succeeds := by
    simp only [select_eq_ok_iff hrows hn hq, exists_and_left, exists_eq, and_true]
  fails e := select_eq_error_iff hrows hn hq
  found found h := ((select_eq_ok_iff hrows hn hq).mp h).2
  alike q' h found := by
    have hq' : ∀ c ∈ q'.conditions, c.WellFormed := (h.forall_iff fun _ => Condition.wellFormed_unplaced).mp hq
    rw [select_eq_ok_iff hrows hn hq, select_eq_ok_iff hrows hn hq', h.admits_iff, h.matching_eq]

/-- **A selection finds exactly the rows that its conditions describe**, and whether it fails does not depend on the
rows, in every table whose rows fit a schema with distinct names. -/
theorem selects_of_ofText (hrows : ∀ r ∈ t.rows, Row.Fits t.schema.columns r) (hn : t.schema.names.Nodup)
    {text : String} (hq : Statement.ofText text = .ok (.select q)) : t.Selects q :=
  selects_of_wellFormed hrows hn (Statement.wellFormed_of_ofText hq).2.2

/-- Two conditions and a column twice, on rows with nulls in them. -/
theorem selects_of_ofText_two_conditions :
    let t : Table := ⟨⟨"t", [⟨"a", .int⟩, ⟨"b", .text⟩]⟩,
      .column [.numbers #[some 1, some 2, none, some 3], .texts #[some "x", some "y", some "y", none]] 4⟩
    let q : Selection := ⟨.columns [⟨"b", .identifier, 8⟩, ⟨"a", .identifier, 11⟩, ⟨"b", .identifier, 14⟩],
      ⟨"t", .identifier, 22⟩,
      [⟨⟨"a", .identifier, 30⟩, ⟨">", .symbol, 32⟩, ⟨"+1", .number, 34⟩⟩,
        ⟨⟨"b", .identifier, 41⟩, ⟨">", .symbol, 43⟩, ⟨"x", .identifier, 45⟩⟩]⟩
    (∀ r ∈ t.rows, Row.Fits t.schema.columns r) ∧ t.schema.names.Nodup ∧
      Statement.ofText "SELECT (b, a, b) FROM t WHERE a > +1 AND b > x;" = .ok (.select q) ∧
      t.Selects q ∧ t.select q = .ok ⟨["b", "a", "b"], [[.text "y", .number 2, .text "y"]]⟩ := by
  intro t q
  have hrows : ∀ r ∈ t.rows, Row.Fits t.schema.columns r := by
    unfold Row.Fits
    decide +kernel
  have hn : t.schema.names.Nodup := by decide
  have hq : Statement.ofText "SELECT (b, a, b) FROM t WHERE a > +1 AND b > x;" = .ok (.select q) := by decide +kernel
  exact ⟨hrows, hn, hq, selects_of_ofText hrows hn hq, by decide +kernel⟩

end Table
end Tabular
