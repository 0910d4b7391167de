import Tabular.Proofs.Schema.Values
import Tabular.Proofs.Table.Selecting

/-!
# What an insertion adds

A value is taken by a column for a cell (`ColumnType.Takes`), and the values of a set go to the places of the columns
that the insertion names, or to all places if it names none (`Schema.places`). A schema takes an insertion
(`Schema.Takes`) when the names stand in its order and every value set has a fitting value for each of them. The faults
of an insertion come in the order of the names and then of the value sets (`Schema.insertionFaults`). With distinct
column names an insertion makes its rows exactly if the schema takes it, every value lies in its place, and otherwise
the first fault is reported (`Schema.inserts_of_nodup`).

The names are checked against a bound that grows from name to name. What gets through are the slots that make up a
sublist of all slots and have these names (`slotsFrom_eq_ok_iff`).
-/

namespace Tabular

/-! ## What an insertion should add -/

/-- The value may stand in a column of the type, and it stands for the cell. -/
inductive ColumnType.Takes : ColumnType → Token → Cell → Prop
  /-- The word null, in any case of its letters, stands for no value in every column. -/
  | null {type : ColumnType} {value : Token} :
      value.kind = .identifier → Cell.spellsNull value.value → Takes type value .null
  | number {value : Token} {n : Int64} :
      value.kind = .number → Text.readInteger? value.value = some n → Takes .int value (.number n)
  | text {value : Token} :
      value.kind = .identifier → ¬ Cell.spellsNull value.value → Takes .text value (.text value.value)

theorem Column.cellOf_eq_ok_iff_takes {c : Column} {value : Token} {cell : Cell} :
    c.cellOf value = .ok cell ↔ c.type.Takes value cell := by
  obtain ⟨name, type⟩ := c
  obtain ⟨value, kind, position⟩ := value
  rw [Column.cellOf_eq_ok_iff]
  constructor
  · rintro ⟨ho, hf⟩
    cases kind with
    | number =>
      obtain ⟨n, hn, rfl⟩ := Option.map_eq_some_iff.mp ho
      cases type with
      | int => exact .number rfl hn
      | text => cases hf
    | identifier =>
      have hcell : (if Cell.spellsNull value then Cell.null else .text value) = cell := Option.some.inj ho
      by_cases hnull : Cell.spellsNull value = true
      · rw [if_pos hnull] at hcell
        subst hcell
        exact .null rfl hnull
      · rw [if_neg hnull] at hcell
        subst hcell
        cases type with
        | int => cases hf
        | text => exact .text rfl hnull
    | keyword | symbol | datatype | engine => cases ho
  · rintro (⟨hk, hnull⟩ | ⟨hk, hn⟩ | ⟨hk, hnull⟩)
    · have ho : Cell.ofToken? ⟨value, kind, position⟩ = some .null := by
        simp only at hk hnull
        simp [Cell.ofToken?, hk, hnull]
      exact ⟨ho, rfl⟩
    · simp only at hk hn
      simp [Cell.ofToken?, hk, hn, Cell.fits, Cell.kind, ColumnType.kind]
    · simp only at hk hnull
      simp [Cell.ofToken?, hk, hnull, Cell.fits, Cell.kind, ColumnType.kind]

instance (c : Column) (value : Token) : Decidable (∃ cell, c.type.Takes value cell) :=
  decidable_of_iff ((c.cellOf value).toOption.isSome) (by
    simp only [← Column.cellOf_eq_ok_iff_takes]
    cases c.cellOf value <;> simp [Except.toOption])

/-- What is wrong with a value for a column. -/
def Column.valueFault? (c : Column) (value : Token) : Option TableError :=
  if ∃ cell, c.type.Takes value cell then none else some (.unfitValue c value)

namespace Schema

/-- The places of the columns for which an insertion with these names gives values, one after the other. -/
def places (s : Schema) (names : List Token) : List Nat :=
  if names.isEmpty then List.range s.width else names.map fun name => s.names.idxOf name.value

/-- The columns for which an insertion with these names gives values. -/
def namedColumns (s : Schema) (names : List Token) : List Column :=
  (s.places names).filterMap (s.columns[·]?)

/-- The schema takes the insertion. -/
structure Takes (s : Schema) (i : Insertion) : Prop where
  /-- The columns named, if there are any, are columns of the schema in its order, and none comes twice. -/
  names : (i.columns.map (·.value)).Sublist s.names
  /-- Every value set has a value for each of them, or for every column if none is named. -/
  counts : ∀ values ∈ i.valueSets, values.length = if i.columns.isEmpty then s.width else i.columns.length
  /-- Every value may stand in its column. -/
  fits : ∀ values ∈ i.valueSets, ∀ (j : Nat) (value : Token), values[j]? = some value →
    ∃ k column cell, (s.places i.columns)[j]? = some k ∧ s.columns[k]? = some column ∧ column.type.Takes value cell

/-- The row has the cells for the values at their places and is null everywhere else. -/
structure Arranges (s : Schema) (names values : List Token) (r : Row) : Prop where
  length : r.length = s.width
  given : ∀ (j : Nat) (value : Token), values[j]? = some value → ∃ k column cell,
    (s.places names)[j]? = some k ∧ s.columns[k]? = some column ∧ column.type.Takes value cell ∧ r[k]? = some cell
  others : ∀ k < s.width, k ∉ s.places names → r[k]? = some .null

/-- What is wrong with a name that stands behind another one or comes first. -/
def orderFault? (s : Schema) (requested : List Token) (previous? : Option Token) (name : Token) : Option TableError :=
  (s.nameFault? name).or <|
    if previous?.any fun previous => s.names.idxOf name.value ≤ s.names.idxOf previous.value then
      some (.outOfOrder s requested)
    else none

/-- All that is wrong with the names of an insertion. -/
def orderFaults (s : Schema) (names : List Token) : List TableError :=
  ((none :: names.map some).zip names).filterMap fun (previous?, name) => s.orderFault? names previous? name

/-- All that is wrong with a value set. Of one with a wrong number of values only that is said. -/
def setFaults (s : Schema) (names values : List Token) : List TableError :=
  if values.length = (s.places names).length then
    ((s.namedColumns names).zip values).filterMap fun (column, value) => column.valueFault? value
  else [.wrongCount values (s.places names).length]

/-- All that is wrong with an insertion: first the names of columns, then its value sets. -/
def insertionFaults (s : Schema) (i : Insertion) : List TableError :=
  s.orderFaults i.columns ++ i.valueSets.flatMap (s.setFaults i.columns)

/-- An insertion makes rows exactly if the schema takes it, one for each of its value sets. Else it fails with the first
fault. -/
structure Inserts (s : Schema) (i : Insertion) : Prop where
  succeeds : (∃ rows, s.rowsOf i = .ok rows) ↔ s.Takes i
  rows : ∀ rows, s.rowsOf i = .ok rows → List.Forall₂ (s.Arranges i.columns) i.valueSets rows
  fails : ∀ e, s.rowsOf i = .error e ↔ (s.insertionFaults i).head? = some e

variable {s : Schema}

/-! ## The slots of the names -/

theorem slotOf_eq_ok_iff_mem (hn : s.names.Nodup) {name : Token} {slot : Slot} :
    s.slotOf name = .ok slot ↔ slot ∈ s.slots ∧ slot.column.name = name.value := by
  constructor
  · intro h
    exact ⟨mem_slots_of_slotOf h, by simpa using List.find?_some (slotOf_eq_ok_iff.mp h).1⟩
  · rintro ⟨hm, hname⟩
    have hc : slot.column ∈ s.columns := List.mem_of_getElem? (mem_slots.mp hm)
    exact slotOf_eq_ok_iff.mpr ⟨(find?_eq_some_iff hn).mpr ⟨hc, hname⟩, hname ▸ index_of_mem_slots hn hm⟩

theorem index_getElem_slots {k : Nat} (hk : k < s.slots.length) : s.slots[k].index = k := by
  simp [slots]

/-- A slot is the first of those that are left from its place on. -/
theorem drop_slots {slot : Slot} (h : slot ∈ s.slots) :
    s.slots.drop slot.index = slot :: s.slots.drop (slot.index + 1) := by
  obtain ⟨k, hk, rfl⟩ := List.getElem_of_mem h
  rw [index_getElem_slots hk, List.drop_eq_getElem_cons hk]

/-- **The slots of names** are found when they follow one another in the schema from the bound on. -/
theorem slotsFrom_eq_ok_iff (hn : s.names.Nodup) {requested names : List Token} {least : Nat} {found : List Slot} :
    s.slotsFrom requested least names = .ok found ↔
      found.Sublist (s.slots.drop least) ∧ found.map (·.column.name) = names.map (·.value) := by
  induction names generalizing least found with
  | nil =>
    constructor
    · intro h
      cases h
      exact ⟨List.nil_sublist _, rfl⟩
    · rintro ⟨-, h⟩
      rw [List.map_nil, List.map_eq_nil_iff] at h
      subst h
      rfl
  | cons name names ih =>
    rw [slotsFrom, bind_eq_ok_iff]
    constructor
    · rintro ⟨slot, hs, h⟩
      obtain ⟨hm, hname⟩ := (slotOf_eq_ok_iff_mem hn).mp hs
      split at h
      · nomatch h
      · rename_i hl
        obtain ⟨rest, hr, h⟩ := bind_eq_ok_iff.mp h
        cases h
        obtain ⟨hsub, hnames⟩ := ih.mp hr
        have hbound : (s.slots.drop slot.index).Sublist (s.slots.drop least) :=
          (List.drop_suffix_drop_left s.slots (Nat.le_of_not_lt hl)).sublist
        refine ⟨(drop_slots hm ▸ hsub.cons_cons slot).trans hbound, ?_⟩
        rw [List.map_cons, List.map_cons, hname, hnames]
    · rintro ⟨hsub, hnames⟩
      obtain ⟨slot, rest, rfl, hname, hrest⟩ := List.map_eq_cons_iff.mp hnames
      obtain ⟨front, back, hdrop, hfront, hback⟩ := List.cons_sublist_iff.mp hsub
      -- the slot stands in the front part, and all later ones behind its place
      obtain ⟨j, hj, rfl⟩ := List.getElem_of_mem hfront
      have hget : s.slots[least + j]? = some front[j] := by
        rw [← List.getElem?_drop, hdrop, List.getElem?_append_left hj, List.getElem?_eq_getElem hj]
      obtain ⟨hlt, hslot⟩ := List.getElem?_eq_some_iff.mp hget
      have hindex : front[j].index = least + j := by rw [← hslot, index_getElem_slots hlt]
      have hmem : front[j] ∈ s.slots := List.mem_of_getElem? hget
      refine ⟨front[j], (slotOf_eq_ok_iff_mem hn).mpr ⟨hmem, hname⟩, ?_⟩
      rw [if_neg (by omega)]
      refine bind_eq_ok_iff.mpr ⟨rest, ih.mpr ⟨?_, hrest⟩, rfl⟩
      have hbehind : List.IsSuffix back (s.slots.drop (front[j].index + 1)) := by
        have hb : back = s.slots.drop (least + front.length) := by
          rw [← List.drop_drop, hdrop, List.drop_left]
        rw [hb, hindex]
        exact List.drop_suffix_drop_left _ (by omega)
      exact hback.trans hbehind.sublist

theorem targets_eq_ok_iff (hn : s.names.Nodup) {names : List Token} {targets : List Slot} :
    s.targets names = .ok targets ↔ targets.Sublist s.slots ∧
      targets.map (·.column.name) = if names.isEmpty then s.names else names.map (·.value) := by
  unfold Schema.targets
  by_cases he : names.isEmpty = true
  · rw [if_pos he, if_pos he, ← map_name_slots]
    constructor
    · intro h
      cases h
      exact ⟨List.Sublist.refl _, rfl⟩
    · rintro ⟨hsub, hnames⟩
      have hlength := congrArg List.length hnames
      rw [List.length_map, List.length_map] at hlength
      rw [hsub.eq_of_length hlength]
  · rw [if_neg he, if_neg he, slotsFrom_eq_ok_iff hn, List.drop_zero]

/-- An insertion has targets if its names follow one another in the schema. -/
theorem exists_targets_iff (hn : s.names.Nodup) {names : List Token} :
    (∃ targets, s.targets names = .ok targets) ↔ (names.map (·.value)).Sublist s.names := by
  simp only [targets_eq_ok_iff hn]
  by_cases he : names.isEmpty = true
  · rw [if_pos he, List.isEmpty_iff.mp he]
    exact iff_of_true ⟨s.slots, List.Sublist.refl _, s.map_name_slots⟩ (List.nil_sublist _)
  · rw [if_neg he, ← map_name_slots, List.sublist_map_iff]
    exact exists_congr fun targets => and_congr_right' eq_comm

/-- What is known of the slots for which an insertion gives values. -/
structure Targets (s : Schema) (names : List Token) (targets : List Slot) : Prop where
  mem : ∀ slot ∈ targets, slot ∈ s.slots
  places : targets.map (·.index) = s.places names
  columns : targets.map (·.column) = s.namedColumns names
  nodup : (targets.map (·.index)).Nodup

theorem targets_of_eq_ok (hn : s.names.Nodup) {names : List Token} {targets : List Slot}
    (h : s.targets names = .ok targets) : s.Targets names targets := by
  obtain ⟨hsub, hnames⟩ := (targets_eq_ok_iff hn).mp h
  have hmem : ∀ slot ∈ targets, slot ∈ s.slots := fun slot hs => hsub.mem hs
  have hplaces : targets.map (·.index) = s.places names := by
    by_cases he : names.isEmpty = true
    · rw [if_pos he, ← map_name_slots] at hnames
      have hlength := congrArg List.length hnames
      rw [List.length_map, List.length_map] at hlength
      rw [Schema.places, if_pos he, hsub.eq_of_length hlength, map_index_slots]
    · rw [if_neg he] at hnames
      have hindex : targets.map (·.index) = (targets.map (·.column.name)).map s.names.idxOf := by
        rw [List.map_map]
        exact List.map_congr_left fun slot hs => index_of_mem_slots hn (hmem slot hs)
      rw [Schema.places, if_neg he, hindex, hnames, List.map_map]
      rfl
  refine ⟨hmem, hplaces, ?_, ?_⟩
  · rw [namedColumns, ← hplaces, List.filterMap_map, ← List.filterMap_eq_map]
    exact List.filterMap_congr fun slot hs => (mem_slots.mp (hmem slot hs)).symm
  · refine (hsub.map (·.index)).nodup ?_
    rw [map_index_slots]
    exact List.nodup_range

end Schema

/-! ## The rows -/

theorem Slot.cellOf_eq_ok_iff {slot : Slot} {value : Token} {entry : Nat × Cell} :
    slot.cellOf value = .ok entry ↔ entry.1 = slot.index ∧ slot.column.type.Takes value entry.2 := by
  obtain ⟨k, cell⟩ := entry
  rw [Slot.cellOf, bind_eq_ok_iff]
  simp only [Column.cellOf_eq_ok_iff_takes]
  constructor
  · rintro ⟨_, ht, h⟩
    cases h
    exact ⟨rfl, ht⟩
  · rintro ⟨rfl, ht⟩
    exact ⟨cell, ht, rfl⟩

theorem Column.cellOf_eq_error_iff {c : Column} {value : Token} {e : TableError} :
    c.cellOf value = .error e ↔ c.valueFault? value = some e := by
  by_cases h : ∃ cell, c.type.Takes value cell
  · obtain ⟨cell, hc⟩ := h
    rw [Column.valueFault?, if_pos ⟨cell, hc⟩, Column.cellOf_eq_ok_iff_takes.mpr hc]
    exact iff_of_false nofun nofun
  · have hfault : c.cellOf value = .error (.unfitValue c value) := by
      cases hc : c.cellOf value with
      | ok cell => exact absurd ⟨cell, Column.cellOf_eq_ok_iff_takes.mp hc⟩ h
      | error e' =>
        unfold Column.cellOf at hc
        split at hc
        · split at hc
          · nomatch hc
          · exact hc.symm
        · exact hc.symm
    rw [Column.valueFault?, if_neg h, hfault, Except.error.injEq, Option.some.injEq]

theorem Slot.cellOf_eq_error_iff {slot : Slot} {value : Token} {e : TableError} :
    slot.cellOf value = .error e ↔ slot.column.valueFault? value = some e := by
  rw [← Column.cellOf_eq_error_iff, Slot.cellOf, bind_pure_eq_error_iff]

/-- The row has the cells at their places. -/
theorem Row.getElem?_ofCells {width k : Nat} (hk : k < width) (cells : List (Nat × Cell)) :
    (Row.ofCells width cells)[k]? = some ((cells.lookup k).getD .null) := by
  simp [Row.ofCells, hk]

namespace Schema

variable {s : Schema} {names values : List Token} {targets : List Slot}

theorem Targets.length_places (ht : s.Targets names targets) : (s.places names).length = targets.length := by
  rw [← ht.places, List.length_map]

/-- The place and the column of a value are those of the slot that it is for. -/
theorem Targets.getElem? (ht : s.Targets names targets) {j : Nat} {slot : Slot} (h : targets[j]? = some slot) :
    (s.places names)[j]? = some slot.index ∧ s.columns[slot.index]? = some slot.column := by
  constructor
  · rw [← ht.places, List.getElem?_map, h, Option.map_some]
  · exact mem_slots.mp (ht.mem slot (List.mem_of_getElem? h))

/-- **The row for a value set** has the cells of its values at their places. -/
theorem arranges_of_rowOf (ht : s.Targets names targets) {r : Row} (h : s.rowOf targets values = .ok r) :
    s.Arranges names values r := by
  unfold rowOf at h
  split at h
  · rename_i hlength
    obtain ⟨cells, hc, h⟩ := bind_eq_ok_iff.mp h
    cases h
    have hcells : List.Forall₂ (fun (p : Slot × Token) (entry : Nat × Cell) =>
        entry.1 = p.1.index ∧ p.1.column.type.Takes p.2 entry.2) (targets.zip values) cells :=
      (mapM_eq_ok_iff.mp hc).imp fun _ _ h => Slot.cellOf_eq_ok_iff.mp h
    have hkeys : cells.map Prod.fst = s.places names := by
      have hzip : (targets.zip values).map (Slot.index ∘ Prod.fst) = targets.map (·.index) := by
        rw [← List.map_map, List.map_fst_zip (by omega)]
      rw [← ht.places, ← hzip, ← List.forall₂_eq_eq_eq, List.forall₂_map_left_iff, List.forall₂_map_right_iff]
      exact hcells.flip.imp fun _ _ h => h.1
    have hnodup : (cells.map Prod.fst).Nodup := by
      rw [hkeys, ← ht.places]
      exact ht.nodup
    refine ⟨Row.length_ofCells _ _, fun j value hj => ?_, fun k hk hno => ?_⟩
    · obtain ⟨hvalues, -⟩ := List.getElem?_eq_some_iff.mp hj
      have hslot : targets[j]? = some targets[j] := List.getElem?_eq_getElem (by omega)
      obtain ⟨hplace, hcolumn⟩ := ht.getElem? hslot
      have hzip : (targets.zip values)[j]? = some (targets[j], value) :=
        List.getElem?_zip_eq_some.mpr ⟨hslot, hj⟩
      obtain ⟨entry, hentry, hindex, htakes⟩ := exists_getElem?_of_forall₂ hcells hzip
      have hm : (targets[j].index, entry.2) ∈ cells := hindex ▸ List.mem_of_getElem? hentry
      have hwidth : targets[j].index < s.width := (List.getElem?_eq_some_iff.mp hcolumn).1
      refine ⟨_, _, entry.2, hplace, hcolumn, htakes, ?_⟩
      rw [Row.getElem?_ofCells hwidth, lookup_eq_some_of_mem hnodup hm]
      rfl
    · have hnone : cells.lookup k = none := by
        refine List.lookup_eq_none_iff.mpr fun entry he => ?_
        have hne : k ≠ entry.1 := fun h => hno (by rw [h, ← hkeys]; exact List.mem_map_of_mem he)
        simpa using hne
      rw [Row.getElem?_ofCells hk, hnone]
      rfl
  · nomatch h

/-! ## The faults -/

/-- Names fail with their first fault; the bound is the place behind the name before. -/
theorem slotsFrom_eq_error_iff (hn : s.names.Nodup) {requested names : List Token} {previous? : Option Token}
    {least : Nat} (hl : least = (previous?.map fun p => s.names.idxOf p.value + 1).getD 0) {e : TableError} :
    s.slotsFrom requested least names = .error e ↔
      (((previous? :: names.map some).zip names).filterMap fun (previous?, name) =>
        s.orderFault? requested previous? name).head? = some e := by
  induction names generalizing previous? least with
  | nil => exact ⟨nofun, nofun⟩
  | cons name names ih =>
    rw [slotsFrom, bind_eq_error_iff, List.map_cons, List.zip_cons_cons]
    cases hs : s.slotOf name with
    | error e' =>
      have hfault : s.orderFault? requested previous? name = some e' := by
        rw [orderFault?, slotOf_eq_error_iff.mp hs, Option.some_or]
      simp [hfault]
    | ok slot =>
      obtain ⟨hm, hname⟩ := (slotOf_eq_ok_iff_mem hn).mp hs
      have hindex : slot.index = s.names.idxOf name.value := hname ▸ index_of_mem_slots hn hm
      have hnone : s.nameFault? name = none := by
        cases hf : s.nameFault? name with
        | none => rfl
        | some e' => rw [slotOf_eq_error_iff.mpr hf] at hs; nomatch hs
      have hfault : s.orderFault? requested previous? name =
          if slot.index < least then some (.outOfOrder s requested) else none := by
        rw [orderFault?, hnone, Option.none_or, hindex, hl]
        cases previous? with
        | none => simp
        | some previous =>
          simp only [Option.any_some, decide_eq_true_eq, Option.map_some, Option.getD_some, Nat.lt_succ_iff]
      by_cases hlt : slot.index < least
      · rw [if_pos hlt] at hfault
        simp [hfault, hlt]
      · have hnext : slot.index + 1 = ((some name).map fun p => s.names.idxOf p.value + 1).getD 0 := by
          simp [hindex]
        rw [if_neg hlt] at hfault
        simp only [List.filterMap_cons, hfault, ← ih hnext]
        simp [hlt, bind_eq_error_iff, pure, Except.pure]

theorem targets_eq_error_iff (hn : s.names.Nodup) {e : TableError} :
    s.targets names = .error e ↔ (s.orderFaults names).head? = some e := by
  unfold Schema.targets
  by_cases he : names.isEmpty = true
  · rw [if_pos he, List.isEmpty_iff.mp he]
    exact iff_of_false nofun nofun
  · have hfirst : 0 = ((none : Option Token).map fun p => s.names.idxOf p.value + 1).getD 0 := rfl
    rw [if_neg he]
    exact slotsFrom_eq_error_iff hn hfirst

theorem rowOf_eq_error_iff (ht : s.Targets names targets) {e : TableError} :
    s.rowOf targets values = .error e ↔ (s.setFaults names values).head? = some e := by
  unfold rowOf setFaults
  rw [ht.length_places, ← ht.columns]
  by_cases hlength : values.length = targets.length
  · rw [if_pos hlength, if_pos hlength, List.zip_map_left, List.filterMap_map, bind_pure_eq_error_iff]
    exact mapM_eq_error_iff fun p _ e => Slot.cellOf_eq_error_iff
  · rw [if_neg hlength, if_neg hlength]
    simp

/-- An insertion fails with its first fault. -/
theorem rowsOf_eq_error_iff (hn : s.names.Nodup) {i : Insertion} {e : TableError} :
    s.rowsOf i = .error e ↔ (s.insertionFaults i).head? = some e := by
  rw [rowsOf, bind_eq_error_iff, insertionFaults, List.head?_append]
  cases ht : s.targets i.columns with
  | error e' => simp [(targets_eq_error_iff hn).mp ht]
  | ok targets =>
    have hnone : s.orderFaults i.columns = [] := (exists_ok_iff fun _ => targets_eq_error_iff hn).mp ⟨targets, ht⟩
    have hsets : i.valueSets.mapM (s.rowOf targets) = .error e ↔
        (i.valueSets.filterMap fun values => (s.setFaults i.columns values).head?).head? = some e :=
      mapM_eq_error_iff fun values _ e => rowOf_eq_error_iff (targets_of_eq_ok hn ht)
    rw [hnone, List.head?_nil, Option.none_or, List.head?_flatMap, ← List.head?_filterMap, ← hsets]
    simp

/-! ## The insertions that are taken -/

/-- A value set has no fault exactly if it has as many values as there are places for them, and each of them may stand
in its column. -/
theorem setFaults_eq_nil_iff (ht : s.Targets names targets) : s.setFaults names values = [] ↔
    values.length = (s.places names).length ∧ ∀ (j : Nat) (value : Token), values[j]? = some value →
      ∃ k column cell, (s.places names)[j]? = some k ∧ s.columns[k]? = some column ∧ column.type.Takes value cell := by
  unfold setFaults
  by_cases hlength : values.length = (s.places names).length
  · rw [if_pos hlength, ← ht.columns, List.filterMap_eq_nil_iff]
    rw [ht.length_places] at hlength
    simp only [ht.length_places, hlength, true_and]
    constructor
    · intro h j value hj
      obtain ⟨hvalues, -⟩ := List.getElem?_eq_some_iff.mp hj
      have hslot : targets[j]? = some targets[j] := List.getElem?_eq_getElem (by omega)
      obtain ⟨hplace, hcolumn⟩ := ht.getElem? hslot
      have hzip : ((targets.map (·.column)).zip values)[j]? = some (targets[j].column, value) := by
        rw [List.getElem?_zip_eq_some, List.getElem?_map, hslot]
        exact ⟨rfl, hj⟩
      have hnone := h _ (List.mem_of_getElem? hzip)
      simp only [Column.valueFault?, ite_eq_left_iff, reduceCtorEq, imp_false, not_not] at hnone
      obtain ⟨cell, htakes⟩ := hnone
      exact ⟨_, _, cell, hplace, hcolumn, htakes⟩
    · rintro h ⟨column, value⟩ hm
      obtain ⟨j, hj⟩ := List.mem_iff_getElem?.mp hm
      obtain ⟨hc, hv⟩ := List.getElem?_zip_eq_some.mp hj
      obtain ⟨slot, hslot, rfl⟩ := Option.map_eq_some_iff.mp (List.getElem?_map ▸ hc)
      obtain ⟨hplace, hcolumn⟩ := ht.getElem? hslot
      obtain ⟨k, column, cell, hk, hck, htakes⟩ := h j value hv
      rw [hplace, Option.some.injEq] at hk
      subst hk
      rw [hcolumn, Option.some.injEq] at hck
      subst hck
      exact if_pos ⟨cell, htakes⟩
  · rw [if_neg hlength]
    exact iff_of_false (List.cons_ne_nil _ _) fun h => hlength h.1

theorem length_places (s : Schema) (names : List Token) :
    (s.places names).length = if names.isEmpty then s.width else names.length := by
  unfold places
  split <;> simp

/-- The insertions that are taken are those without a fault. -/
theorem insertionFaults_eq_nil_iff (hn : s.names.Nodup) {i : Insertion} : s.insertionFaults i = [] ↔ s.Takes i := by
  rw [insertionFaults, List.append_eq_nil_iff, List.flatMap_eq_nil_iff, ← exists_ok_iff fun _ => targets_eq_error_iff hn]
  constructor
  · rintro ⟨⟨targets, ht⟩, hsets⟩
    have h := fun values hv => (setFaults_eq_nil_iff (targets_of_eq_ok hn ht)).mp (hsets values hv)
    refine ⟨(exists_targets_iff hn).mp ⟨targets, ht⟩, fun values hv => ?_, fun values hv => (h values hv).2⟩
    rw [← length_places]
    exact (h values hv).1
  · rintro ⟨hnames, hcounts, hfits⟩
    obtain ⟨targets, ht⟩ := (exists_targets_iff hn).mpr hnames
    refine ⟨⟨targets, ht⟩, fun values hv => (setFaults_eq_nil_iff (targets_of_eq_ok hn ht)).mpr ⟨?_, hfits values hv⟩⟩
    rw [length_places]
    exact hcounts values hv

/-- **An insertion into a table with distinct column names** makes its rows exactly if the schema takes it, with every
value at its place, and otherwise its first fault is reported. -/
theorem inserts_of_nodup (hn : s.names.Nodup) (i : Insertion) : s.Inserts i where
  succeeds := by rw [exists_ok_iff fun _ => rowsOf_eq_error_iff hn, insertionFaults_eq_nil_iff hn]
  rows rows h := by
    obtain ⟨targets, ht, hrows⟩ := rowsOf_eq_ok_iff.mp h
    exact hrows.imp fun values r hr => arranges_of_rowOf (targets_of_eq_ok hn ht) hr
  fails e := rowsOf_eq_error_iff hn

/-- Two value sets for the outer columns of three, and one behind names in the wrong order, the last of which is not
there. -/
theorem inserts_of_nodup_three_columns :
    let s : Schema := ⟨"t", [⟨"a", .int⟩, ⟨"b", .text⟩, ⟨"c", .text⟩]⟩
    let a : Token := .fresh "a" .identifier
    let c : Token := .fresh "c" .identifier
    let taken : Insertion := ⟨.fresh "t" .identifier, [a, c],
      [[.fresh "+07" .number, .fresh "x" .identifier], [.fresh "Null" .identifier, .fresh "y" .identifier]]⟩
    let refused : Insertion := ⟨.fresh "t" .identifier, [c, a, .fresh "d" .identifier], [[.fresh "x" .number]]⟩
    s.names.Nodup ∧
      (s.Inserts taken ∧ s.rowsOf taken = .ok [[.number 7, .null, .text "x"], [.null, .null, .text "y"]]) ∧
      s.Inserts refused ∧ s.rowsOf refused = .error (.outOfOrder s refused.columns) := by
  intro s a c taken refused
  have hn : s.names.Nodup := by decide
  exact ⟨hn, ⟨inserts_of_nodup hn taken, by decide +kernel⟩, inserts_of_nodup hn refused, by decide +kernel⟩

end Schema
end Tabular
