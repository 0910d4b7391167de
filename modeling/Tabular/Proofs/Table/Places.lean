import Tabular.Proofs.Table.Aligned

/-!
# Rows by places

Rows and layouts are lists, and binding values and evaluating selections read them by places. Here the same work is done
with every place checked: a computation that meets a place out of range has no outcome at all (`Placed`). Insertions
never do, whatever the layout (`Schema.rowsByPlace_eq`), since a place is only used after a column has been found there.
Selections never do on sound tables (`Table.selectByPlace_eq`), where every row is as wide as the layout.
-/

namespace Tabular

/-- A computation that reads lists by places. It has no outcome, not even an error, if a place is out of range. -/
abbrev Placed := ExceptT TableError Option

namespace Placed

variable {α β : Type}

/-- A computation in which all places are in range. -/
def of (x : Except TableError α) : Placed α :=
  ExceptT.mk (some x)

/-- The item at a place. -/
def item (xs : List α) (i : Nat) : Placed α :=
  ExceptT.mk (xs[i]?.map .ok)

/-- The list with another item at a place. -/
def replace (xs : List α) (i : Nat) (a : α) : Placed (List α) :=
  if i < xs.length then of (.ok (xs.set i a)) else ExceptT.mk none

theorem item_eq {xs : List α} {i : Nat} {a : α} (h : xs[i]? = some a) : item xs i = of (.ok a) := by
  rw [item, h]
  rfl

theorem replace_eq {xs : List α} {i : Nat} (h : i < xs.length) (a : α) : replace xs i a = of (.ok (xs.set i a)) :=
  if_pos h

theorem of_ok_bind (a : α) (f : α → Placed β) : of (.ok a) >>= f = f a :=
  rfl

theorem bind_eq_of {x : Placed α} {x' : Except TableError α} {f : α → Placed β} {f' : α → Except TableError β}
    (hx : x = of x') (hf : ∀ a, x' = .ok a → f a = of (f' a)) : x >>= f = of (x' >>= f') := by
  subst hx
  cases x' with
  | ok a => exact hf a rfl
  | error e => rfl

theorem mapM_eq_of {f : α → Placed β} {f' : α → Except TableError β} {as : List α}
    (h : ∀ a ∈ as, f a = of (f' a)) : as.mapM f = of (as.mapM f') := by
  induction as with
  | nil => rfl
  | cons a as ih =>
    obtain ⟨ha, has⟩ := List.forall_mem_cons.mp h
    rw [List.mapM_cons, List.mapM_cons]
    refine bind_eq_of ha fun b _ => ?_
    exact bind_eq_of (ih has) fun bs _ => rfl

theorem filterMapM_eq_of {f : α → Placed (Option β)} {f' : α → Except TableError (Option β)} {as : List α}
    (h : ∀ a ∈ as, f a = of (f' a)) : as.filterMapM f = of (as.filterMapM f') := by
  induction as with
  | nil => rfl
  | cons a as ih =>
    obtain ⟨ha, has⟩ := List.forall_mem_cons.mp h
    rw [List.filterMapM_cons, List.filterMapM_cons]
    refine bind_eq_of ha fun found _ => ?_
    cases found with
    | none => exact ih has
    | some b => exact bind_eq_of (ih has) fun bs _ => rfl

end Placed

/-! ## Insertions by places -/

namespace Schema

/-- The places of the columns for which an insertion gives values; none of them is listed if it gives values for all
columns. -/
def positions (s : Schema) (names : List Token) : Except TableError (Option (List Nat)) :=
  if names.isEmpty then .ok none
  else do
    let slots ← s.slotsFrom names 0 names
    pure (some (slots.map (·.index)))

/-- The place of the column for the value at place `i`. -/
def position (positions : Option (List Nat)) (i : Nat) : Placed Nat :=
  match positions with
  | none => pure i
  | some places => Placed.item places i

/-- Puts the cells for values into a row. The first of the values is the one at place `i` of its value set. -/
def fill (s : Schema) (positions : Option (List Nat)) (i : Nat) : List Token → Row → Placed Row
  | [], r => pure r
  | value :: values, r => do
    let index ← position positions i
    let column ← Placed.item s.columns index
    let cell ← Placed.of (column.cellOf value)
    let r ← Placed.replace r index cell
    s.fill positions (i + 1) values r

/-- The row for one value set: nulls, into which the cells are put. -/
def rowByPlace (s : Schema) (positions : Option (List Nat)) (values : List Token) : Placed Row :=
  let expected := (positions.map List.length).getD s.width
  if values.length = expected then s.fill positions 0 values (List.replicate s.width .null)
  else Placed.of (.error (.wrongCount values expected))

/-- The rows that an insertion adds. -/
def rowsByPlace (s : Schema) (i : Insertion) : Placed (List Row) := do
  let positions ← Placed.of (s.positions i.columns)
  i.valueSets.mapM (s.rowByPlace positions)

end Schema

/-! ### Insertions never meet a place out of range -/

namespace Row

variable {width p : Nat} {cells : List (Nat × Cell)}

theorem ofCells_nil (width : Nat) : ofCells width [] = List.replicate width .null := by
  simp [ofCells, List.map_const']

/-- A cell at a new place is put over the null that is there. -/
theorem set_ofCells (hp : p ∉ cells.map Prod.fst) (c : Cell) :
    (ofCells width cells).set p c = ofCells width (cells ++ [(p, c)]) := by
  apply List.ext_getElem
  · simp [ofCells]
  · intro i hi _
    simp only [ofCells, List.getElem_set, List.getElem_map, List.getElem_range, List.lookup_append]
    by_cases h : p = i
    · subst h
      have hl : cells.lookup p = none := by
        refine List.lookup_eq_none_iff.mpr fun entry he => ?_
        have hne : p ≠ entry.1 := fun heq => hp (heq ▸ List.mem_map_of_mem he)
        simpa using hne
      simp [hl]
    · have hb : (i == p) = false := beq_eq_false_iff_ne.mpr (Ne.symm h)
      simp [h, List.lookup_cons, hb]

end Row

namespace Schema

variable {s : Schema}

/-- The slots of names lie one behind the other. -/
theorem slotsFrom_ascending {requested names : List Token} {least : Nat} {found : List Slot}
    (h : s.slotsFrom requested least names = .ok found) :
    (∀ slot ∈ found, least ≤ slot.index) ∧ (found.map (·.index)).Pairwise (· < ·) := by
  induction names generalizing least found with
  | nil =>
    cases h
    exact ⟨fun _ hs => absurd hs List.not_mem_nil, .nil⟩
  | cons name names ih =>
    obtain ⟨slot, -, h⟩ := bind_eq_ok_iff.mp h
    split at h
    · nomatch h
    · rename_i hl
      obtain ⟨rest, hr, h⟩ := bind_eq_ok_iff.mp h
      cases h
      obtain ⟨hleast, hrest⟩ := ih hr
      refine ⟨List.forall_mem_cons.mpr ⟨by omega, fun x hx => ?_⟩, ?_⟩
      · have := hleast x hx
        omega
      · rw [List.map_cons, List.pairwise_cons, List.forall_mem_map]
        exact ⟨hleast, hrest⟩

/-- The places belong to the slots: they are as many, and each value finds the place of its slot. -/
structure Locates (s : Schema) (positions : Option (List Nat)) (targets : List Slot) : Prop where
  mem : ∀ slot ∈ targets, slot ∈ s.slots
  nodup : (targets.map (·.index)).Nodup
  length : (positions.map List.length).getD s.width = targets.length
  place : ∀ (i : Nat) (slot : Slot), targets[i]? = some slot → position positions i = Placed.of (.ok slot.index)

theorem locates_slots (s : Schema) : s.Locates none s.slots where
  mem _ h := h
  nodup := by
    rw [map_index_slots]
    exact List.nodup_range
  length := by simp [slots, width]
  place i slot h := by
    have hi : some slot.index = some i := by
      have hr := congrArg (·[i]?) (map_index_slots s)
      obtain ⟨hlt, -⟩ := List.getElem?_eq_some_iff.mp h
      have hw : i < s.width := by simpa [slots, width] using hlt
      simpa [h, hw] using hr
    cases hi
    rfl

theorem locates_slotsFrom {names : List Token} {targets : List Slot} (h : s.slotsFrom names 0 names = .ok targets) :
    s.Locates (some (targets.map (·.index))) targets where
  mem := mem_slots_of_slotsFrom h
  nodup := (slotsFrom_ascending h).2.imp Nat.ne_of_lt
  length := by simp
  place i slot hi := by
    refine Placed.item_eq ?_
    rw [List.getElem?_map, hi, Option.map_some]

/-- Filling a row puts the cells of the slots that are left behind those that are there. -/
theorem fill_eq {positions : Option (List Nat)} {targets : List Slot} (h : s.Locates positions targets)
    (before rest : List Slot) (values : List Token) (cells : List (Nat × Cell)) (hb : targets = before ++ rest)
    (hl : values.length = rest.length) (hc : cells.map Prod.fst = before.map (·.index)) :
    s.fill positions before.length values (Row.ofCells s.width cells) =
      Placed.of (((rest.zip values).mapM fun (slot, value) => slot.cellOf value) >>= fun more =>
        pure (Row.ofCells s.width (cells ++ more))) := by
  induction rest generalizing before values cells with
  | nil =>
    rw [List.length_nil, List.length_eq_zero_iff] at hl
    subst hl
    rw [List.zip_nil_right, List.mapM_nil, pure_bind, List.append_nil]
    rfl
  | cons slot rest ih =>
    obtain ⟨value, values, rfl⟩ := List.exists_cons_of_length_eq_add_one hl
    have hslot : targets[before.length]? = some slot := by simp [hb]
    have hm : slot ∈ targets := hb ▸ List.mem_append_right _ List.mem_cons_self
    have hcolumn : s.columns[slot.index]? = some slot.column := mem_slots.mp (h.mem slot hm)
    -- no cell has been put at this place before
    have hnew : slot.index ∉ cells.map Prod.fst := by
      have hn := h.nodup
      rw [hb, List.map_append, List.map_cons, List.nodup_append] at hn
      intro hmem
      exact hn.2.2 _ (hc ▸ hmem) _ List.mem_cons_self rfl
    have hmap : ((slot :: rest).zip (value :: values)).mapM (fun (slot, value) => slot.cellOf value) >>= (fun more =>
          pure (Row.ofCells s.width (cells ++ more))) =
        slot.column.cellOf value >>= fun cell =>
          (rest.zip values).mapM (fun (slot, value) => slot.cellOf value) >>= fun more =>
            pure (Row.ofCells s.width ((cells ++ [(slot.index, cell)]) ++ more)) := by
      simp [Slot.cellOf]
    rw [hmap, fill, h.place _ slot hslot, Placed.of_ok_bind, Placed.item_eq hcolumn, Placed.of_ok_bind]
    refine Placed.bind_eq_of rfl fun cell _ => ?_
    have hrange : slot.index < (Row.ofCells s.width cells).length := by
      rw [Row.length_ofCells]
      exact (List.getElem?_eq_some_iff.mp hcolumn).1
    have hnext := ih (before ++ [slot]) values (cells ++ [(slot.index, cell)]) (by simp [hb]) (by simpa using hl)
      (by simp [hc])
    rw [List.length_append, ← Row.set_ofCells hnew] at hnext
    rw [Placed.replace_eq hrange, Placed.of_ok_bind]
    exact hnext

theorem rowByPlace_eq {positions : Option (List Nat)} {targets : List Slot} (h : s.Locates positions targets)
    (values : List Token) : s.rowByPlace positions values = Placed.of (s.rowOf targets values) := by
  unfold rowByPlace rowOf
  simp only [h.length]
  split
  · rename_i hl
    have hfill := fill_eq h [] targets values [] rfl hl rfl
    rw [Row.ofCells_nil] at hfill
    exact hfill
  · rfl

/-- **Insertions never meet a place out of range.** -/
theorem rowsByPlace_eq (s : Schema) (i : Insertion) : s.rowsByPlace i = Placed.of (s.rowsOf i) := by
  unfold rowsByPlace rowsOf positions Schema.targets
  by_cases he : i.columns.isEmpty = true
  · rw [if_pos he, if_pos he]
    exact Placed.mapM_eq_of fun values _ => rowByPlace_eq s.locates_slots values
  · rw [if_neg he, if_neg he]
    cases hs : s.slotsFrom i.columns 0 i.columns with
    | error e => rfl
    | ok slots => exact Placed.mapM_eq_of fun values _ => rowByPlace_eq (locates_slotsFrom hs) values

end Schema

/-! ## Selections by places -/

/-- A selection whose columns have been found: their names and places, and the filters with their places. -/
structure Plan where
  header : List String
  projection : List Nat
  filters : List Filter

namespace Schema

/-- The places of the columns that a selection asks for. -/
def projected (s : Schema) : Projection → Except TableError (List Nat)
  | .all => .ok (List.range s.width)
  | .columns names => names.mapM fun name => do return (← s.slotOf name).index

/-- The filter for a condition, whose column is looked up at its place. -/
def filterByPlace (s : Schema) (c : Condition) : Placed Filter := do
  let index ← Placed.of (do return (← s.slotOf c.column).index)
  let _ ← Placed.of (Operator.ofToken c.operator)
  let column ← Placed.item s.columns index
  if c.value.kind = column.type.kind then pure ⟨index, c⟩
  else Placed.of (.error (.incomparable c column.type.kind))

/-- The plan of a selection. -/
def plan (s : Schema) (q : Selection) : Placed Plan := do
  let projection ← Placed.of (s.projected q.projection)
  let header ← projection.mapM fun index => do return (← Placed.item s.columns index).name
  let filters ← q.conditions.mapM s.filterByPlace
  pure ⟨header, projection, filters⟩

end Schema

/-- Whether a row passes all filters, each of which looks at the cell at its place. -/
def Row.accepted (r : Row) : List Filter → Placed Bool
  | [] => pure true
  | f :: fs => do
    let cell ← Placed.item r f.index
    if ← Placed.of (f.condition.test cell) then r.accepted fs else pure false

/-- The cells of a row at places. -/
def Row.cellsAt (r : Row) (places : List Nat) : Placed Row :=
  places.mapM (Placed.item r)

/-- The rows that a selection finds. -/
def Table.selectByPlace (t : Table) (q : Selection) : Placed Selected := do
  let p ← t.schema.plan q
  let rows ← t.rows.filterMapM fun r => do
    if ← r.accepted p.filters then return some (← r.cellsAt p.projection) else return none
  pure ⟨p.header, rows⟩

/-! ### Selections never meet a place out of range -/

namespace ResolvedSelection

/-- The plan with the names, the places and the filters of the selection. -/
def plan (q : ResolvedSelection) : Plan :=
  ⟨q.header, q.projection.map (·.index), q.filters⟩

/-- The places are in the range of rows of this width. -/
structure Within (width : Nat) (q : ResolvedSelection) : Prop where
  projection : ∀ slot ∈ q.projection, slot.index < width
  filters : ∀ f ∈ q.filters, f.index < width

end ResolvedSelection

namespace Row

variable {r : Row}

theorem item_eq_cell {i : Nat} (h : i < r.length) : Placed.item r i = Placed.of (.ok (r.cell i)) := by
  refine Placed.item_eq ?_
  rw [cell, List.getD_eq_getElem?_getD, List.getElem?_eq_getElem h, Option.getD_some]

theorem accepted_eq {filters : List Filter} (h : ∀ f ∈ filters, f.index < r.length) :
    r.accepted filters = Placed.of (r.passes filters) := by
  induction filters with
  | nil => rfl
  | cons f filters ih =>
    obtain ⟨hf, hfs⟩ := List.forall_mem_cons.mp h
    rw [accepted, passes, item_eq_cell hf, Placed.of_ok_bind]
    refine Placed.bind_eq_of rfl fun passed _ => ?_
    split
    · exact ih hfs
    · rfl

theorem cellsAt_eq {slots : List Slot} (h : ∀ slot ∈ slots, slot.index < r.length) :
    r.cellsAt (slots.map (·.index)) = Placed.of (.ok (slots.map fun slot => r.cell slot.index)) := by
  induction slots with
  | nil => rfl
  | cons slot slots ih =>
    obtain ⟨hs, hss⟩ := List.forall_mem_cons.mp h
    have hrest := ih hss
    unfold cellsAt at hrest ⊢
    rw [List.map_cons, List.mapM_cons, item_eq_cell hs, Placed.of_ok_bind, hrest]
    rfl

end Row

namespace Schema

variable {s : Schema}

theorem index_lt_of_mem_slots {slot : Slot} (h : slot ∈ s.slots) : slot.index < s.width :=
  (List.getElem?_eq_some_iff.mp (mem_slots.mp h)).1

theorem projected_eq (s : Schema) (p : Projection) :
    s.projected p = (s.project p).map (·.map (·.index)) := by
  cases p with
  | all => rw [projected, project, Except.map, map_index_slots]
  | columns names =>
    unfold projected project
    induction names with
    | nil => rfl
    | cons name names ih =>
      simp only at ih ⊢
      rw [List.mapM_cons, List.mapM_cons, ih]
      cases s.slotOf name with
      | error e => rfl
      | ok slot =>
        cases names.mapM s.slotOf with
        | error e => rfl
        | ok slots => rfl

theorem project_mem_slots {p : Projection} {slots : List Slot} (h : s.project p = .ok slots) :
    ∀ slot ∈ slots, slot ∈ s.slots := by
  cases p with
  | all =>
    cases h
    exact fun _ hm => hm
  | columns names =>
    intro slot hm
    obtain ⟨name, -, hs⟩ := exists_of_mem_mapM h hm
    exact mem_slots_of_slotOf hs

theorem filterByPlace_eq (s : Schema) (c : Condition) : s.filterByPlace c = Placed.of (s.filter c) := by
  unfold filterByPlace filter
  cases hs : s.slotOf c.column with
  | error e => rfl
  | ok slot =>
    have hcolumn := Placed.item_eq (mem_slots.mp (mem_slots_of_slotOf hs))
    refine Placed.bind_eq_of (rfl : Placed.of (Operator.ofToken c.operator) = _) fun _ _ => ?_
    rw [hcolumn, Placed.of_ok_bind]
    split
    · rfl
    · rfl

/-- The plan of a selection is what it resolves to. -/
theorem plan_eq (s : Schema) (q : Selection) : s.plan q = Placed.of ((s.resolve q).map ResolvedSelection.plan) := by
  have hheader (slots : List Slot) (h : ∀ slot ∈ slots, slot ∈ s.slots) :
      (slots.map (·.index)).mapM (fun index => do return (← Placed.item s.columns index).name) =
        Placed.of (.ok (slots.map (·.column.name))) := by
    induction slots with
    | nil => rfl
    | cons slot slots ih =>
      obtain ⟨hs, hss⟩ := List.forall_mem_cons.mp h
      rw [List.map_cons, List.mapM_cons, ih hss, Placed.item_eq (mem_slots.mp hs)]
      rfl
  have hfilters : q.conditions.mapM s.filterByPlace = Placed.of (q.conditions.mapM s.filter) :=
    Placed.mapM_eq_of fun c _ => s.filterByPlace_eq c
  unfold plan resolve
  rw [projected_eq]
  cases hp : s.project q.projection with
  | error e => rfl
  | ok slots =>
    rw [Except.map, Placed.of_ok_bind, hheader slots (project_mem_slots hp), Placed.of_ok_bind, hfilters]
    cases q.conditions.mapM s.filter with
    | error e => rfl
    | ok filters => rfl

/-- The places of a selection that is resolved are in the range of the layout. -/
theorem resolve_within {q : Selection} {r : ResolvedSelection} (h : s.resolve q = .ok r) : r.Within s.width := by
  obtain ⟨projection, hp, h⟩ := bind_eq_ok_iff.mp h
  obtain ⟨filters, hf, h⟩ := bind_eq_ok_iff.mp h
  cases h
  refine ⟨fun slot hs => index_lt_of_mem_slots (project_mem_slots hp slot hs), fun f hm => ?_⟩
  obtain ⟨c, -, hc⟩ := exists_of_mem_mapM hf hm
  obtain ⟨slot, hs, hc⟩ := bind_eq_ok_iff.mp hc
  obtain ⟨operator, -, hc⟩ := bind_eq_ok_iff.mp hc
  split at hc
  · cases hc
    exact index_lt_of_mem_slots (mem_slots_of_slotOf hs)
  · nomatch hc

end Schema

/-- **Selections from sound tables never meet a place out of range.** -/
theorem Table.selectByPlace_eq {t : Table} (h : t.Sound) (q : Selection) :
    t.selectByPlace q = Placed.of (t.select q) := by
  unfold selectByPlace select
  rw [Schema.plan_eq]
  cases hr : t.schema.resolve q with
  | error e => rfl
  | ok resolved =>
    have hw := Schema.resolve_within hr
    rw [Except.map, Placed.of_ok_bind]
    refine Placed.bind_eq_of (Placed.filterMapM_eq_of fun r hm => ?_) fun rows _ => rfl
    have hlength : r.length = t.schema.width := (List.Forall₂.length_eq (h.fits r hm)).symm
    have hfilters : r.accepted resolved.filters = Placed.of (r.passes resolved.filters) :=
      Row.accepted_eq fun f hf => hlength ▸ hw.filters f hf
    have hcells : r.cellsAt (resolved.projection.map (·.index)) = Placed.of (.ok (resolved.output r)) :=
      Row.cellsAt_eq fun slot hs => hlength ▸ hw.projection slot hs
    refine Placed.bind_eq_of hfilters fun passed _ => ?_
    split
    · rw [ResolvedSelection.plan, hcells]
      rfl
    · rfl

end Tabular
