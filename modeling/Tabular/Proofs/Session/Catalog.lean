import Mathlib.Algebra.GroupWithZero.Nat
import Tabular.Proofs.Session.Effects

/-!
# The catalog tells the truth

What a session knows of itself is told by the statements that were carried out in it (`Session.performed`): the catalog
has one row for itself and then one for each definition, in order, with the engine of the table; there are as many
tables as the catalog has rows; and every other table has as many rows as value sets were inserted into it
(`Session.Accounts`). The main statement is `Session.accounts_after`; it also says that nothing but a definition that is
carried out ever changes the catalog.

The invariant (`Session.Recorded`) speaks about tables one by one, so that each effect of a request keeps it by what the
effect says of the tables (`Recorded.step`).
-/

namespace Tabular

/-! ## What was carried out -/

/-- The name and the engine of the table that a statement creates. -/
def Statement.creation? : Statement → Option (String × String)
  | create d => some (d.name.value, d.engine.value)
  | _ => none

/-- The number of value sets that a statement inserts into the table of a name. -/
def Statement.valueSetCount (name : String) : Statement → Nat
  | insert i => if i.table.value = name then i.valueSets.length else 0
  | _ => 0

namespace Session

/-- The statement that a request makes up if it was carried out. -/
def performed? : Except SyntaxError Statement → Except RequestError Answer → Option Statement
  | .ok statement, .ok _ => some statement
  | _, _ => none

/-- The statements that are carried out, in order, when the requests are made. -/
def performed (s : Session) (requests : List String) : List Statement :=
  (s.trace requests).filterMap fun (request, outcome) => performed? (Statement.ofText request) outcome.1

/-- The names and engines of the tables that are created, in order. -/
def creations (done : List Statement) : List (String × String) :=
  done.filterMap Statement.creation?

/-- The names and engines of all tables after the statements. -/
def entries (done : List Statement) : List (String × String) :=
  (catalogName, Engine.linear.name) :: creations done

/-- The number of value sets that are inserted into the table of a name. -/
def insertedCount (name : String) (done : List Statement) : Nat :=
  (done.map (Statement.valueSetCount name)).sum

/-- What the session holds and says of itself is what was carried out. -/
structure Accounts (done : List Statement) (s : Session) : Prop where
  /-- The catalog has a row for itself and then one for every creation, in order. -/
  catalog : ∃ c, s.table? catalogName = some c ∧
    c.rows = (entries done).map (fun (name, engine) => [.text name, .text engine]) ∧ c.rows.length = s.tableCount
  nodup : ((entries done).map Prod.fst).Nodup
  names : ∀ name, name ∈ (entries done).map Prod.fst ↔ (s.table? name).isSome
  engines : ∀ entry ∈ entries done, ∃ t, s.table? entry.1 = some t ∧ t.engine.name = entry.2
  tableCount : s.tableCount = 1 + (creations done).length
  rowCounts : s.rowCounts = ((entries done).map fun (name, _) =>
    (name, if name = catalogName then s.tableCount else insertedCount name done)).mergeSort fun a b => a.1 ≤ b.1

section Histories

variable (s : Session) (request : String) (requests : List String) (done : List Statement) (statement : Statement)

theorem performed_cons : s.performed (request :: requests) =
    (performed? (Statement.ofText request) (s.run request).1).toList ++ (s.run request).2.performed requests := by
  unfold performed
  rw [trace, List.filterMap_cons]
  dsimp only
  cases performed? (Statement.ofText request) (s.run request).1 <;> rfl

theorem entries_concat : entries (done ++ [statement]) = entries done ++ statement.creation?.toList := by
  unfold entries creations
  rw [List.filterMap_append, List.filterMap_cons, List.cons_append]
  cases statement.creation? <;> rfl

theorem insertedCount_concat (name : String) :
    insertedCount name (done ++ [statement]) = insertedCount name done + statement.valueSetCount name := by
  simp [insertedCount]

end Histories

/-! ## The invariant -/

/-- The number of rows of the table of a name; there are none if there is no table. -/
def rowCount (s : Session) (name : String) : Nat :=
  ((s.table? name).map fun t => t.rows.length).getD 0

/-- The names, the engines, the rows of the catalog and the numbers of all other rows are what was carried out. -/
structure Recorded (done : List Statement) (s : Session) : Prop where
  names : s.names = (entries done).map Prod.fst
  engines : ∀ entry ∈ entries done, ∃ t, s.table? entry.1 = some t ∧ t.engine.name = entry.2
  catalog : ∃ c, s.table? catalogName = some c ∧
    c.rows = (entries done).map fun (name, engine) => [.text name, .text engine]
  rowCount : ∀ name, name ≠ catalogName → s.rowCount name = insertedCount name done

variable {s s' : Session} {done : List Statement}

theorem rowCount_of_table? {name : String} {t : Table} (h : s.table? name = some t) :
    s.rowCount name = t.rows.length := by
  rw [rowCount, h]
  rfl

theorem rowCount_congr {name : String} (h : s'.table? name = s.table? name) : s'.rowCount name = s.rowCount name := by
  rw [rowCount, rowCount, h]

theorem recorded_new : Recorded [] new where
  names := rfl
  engines entry he := by
    rw [List.mem_singleton.mp he]
    exact ⟨newCatalog, rfl, rfl⟩
  catalog := ⟨newCatalog, rfl, rfl⟩
  rowCount name hn := by
    rw [rowCount, table?_new_of_ne hn]
    rfl

/-- Engines that are recorded stay when the session is extended. -/
theorem Recorded.engines_of_extends (h : Recorded done s) (he : s.Extends s') :
    ∀ entry ∈ entries done, ∃ t, s'.table? entry.1 = some t ∧ t.engine.name = entry.2 := by
  intro entry hm
  obtain ⟨t, ht, hengine⟩ := h.engines entry hm
  obtain ⟨t', _, ht', hg⟩ := he entry.1 t ht
  exact ⟨t', ht', by rw [hg.engine, hengine]⟩

/-- A statement that neither creates nor inserts changes no record. -/
theorem Recorded.idle (h : Recorded done s) {statement : Statement} (hc : statement.creation? = none)
    (hv : ∀ name, statement.valueSetCount name = 0) : Recorded (done ++ [statement]) s := by
  have he : entries (done ++ [statement]) = entries done := by
    rw [entries_concat, hc]
    exact List.append_nil _
  refine ⟨by rw [he, h.names], by rw [he]; exact h.engines, by rw [he]; exact h.catalog, fun name hn => ?_⟩
  rw [insertedCount_concat, hv, Nat.add_zero, h.rowCount name hn]

theorem Recorded.inserted {i : Insertion} (h : Recorded done s) (hi : s.Inserted i s') :
    Recorded (done ++ [.insert i]) s' := by
  have he : entries (done ++ [.insert i]) = entries done := (entries_concat _ _).trans (List.append_nil _)
  have hcatalog : s'.table? catalogName = s.table? catalogName := hi.others _ (Ne.symm hi.writable)
  refine ⟨?_, ?_, ?_, fun name hn => ?_⟩
  · rw [he, hi.names, h.names]
  · rw [he]
    exact h.engines_of_extends hi.extends
  · rw [he, hcatalog]
    exact h.catalog
  · rw [insertedCount_concat, ← h.rowCount name hn, Statement.valueSetCount]
    by_cases ht : name = i.table.value
    · subst ht
      obtain ⟨t, targets, rows, t', hold, -, hrows, hnew, hg⟩ := hi.table
      rw [if_pos rfl, rowCount_of_table? hnew, rowCount_of_table? hold, hg.rows, List.length_append,
        List.Forall₂.length_eq hrows]
    · rw [if_neg (Ne.symm ht), rowCount_congr (hi.others name ht), Nat.add_zero]

theorem Recorded.created {d : TableDefinition} (h : Recorded done s) (hd : s.Created d s') :
    Recorded (done ++ [.create d]) s' := by
  have he : entries (done ++ [.create d]) = entries done ++ [(d.name.value, d.engine.value)] := entries_concat _ _
  obtain ⟨t, ht, hrows, -, -, hengine⟩ := hd.table
  refine ⟨?_, ?_, ?_, fun name hn => ?_⟩
  · rw [he, hd.names, h.names, List.map_append]
    rfl
  · rw [he]
    intro entry hm
    rcases List.mem_append.mp hm with hm | hm
    · exact h.engines_of_extends hd.extends entry hm
    · rw [List.mem_singleton.mp hm]
      exact ⟨t, ht, hengine⟩
  · obtain ⟨c, c', hc, hc', hg⟩ := hd.catalog
    obtain ⟨c₁, hc₁, hold⟩ := h.catalog
    rw [hc, Option.some.injEq] at hc₁
    subst hc₁
    refine ⟨c', hc', ?_⟩
    rw [he, hg.rows, hold, List.map_append]
    rfl
  · have hv : (Statement.create d).valueSetCount name = 0 := rfl
    rw [insertedCount_concat, hv, Nat.add_zero, ← h.rowCount name hn]
    by_cases hname : name = d.name.value
    · subst hname
      have hnone : s.rowCount d.name.value = 0 := by rw [Session.rowCount, hd.fresh]; rfl
      rw [rowCount_of_table? ht, hrows, hnone]
      rfl
    · exact rowCount_congr (hd.others name hname hn)

/-- Whatever a request comes to is recorded. -/
theorem Recorded.step {parsed : Except SyntaxError Statement} {outcome : Outcome} (h : Recorded done s)
    (he : Effect s parsed outcome) : Recorded (done ++ (performed? parsed outcome.1).toList) outcome.2 := by
  cases he with
  | malformed | refused =>
    have hnone : done ++ [] = done := List.append_nil done
    exact hnone.symm ▸ h
  | selected | shown => exact h.idle rfl fun _ => rfl
  | inserted hi => exact h.inserted hi
  | created hd => exact h.created hd

theorem Recorded.after (h : Recorded done s) (hs : s.Sound) (requests : List String) :
    Recorded (done ++ s.performed requests) (s.after requests) := by
  induction requests generalizing s done with
  | nil =>
    rw [performed, trace, List.filterMap_nil, List.append_nil]
    exact h
  | cons request requests ih =>
    rw [performed_cons, ← List.append_assoc]
    exact ih (h.step (hs.effect request)) ((s.step_run request).sound hs)

/-! ## Accounts -/

theorem Recorded.accounts (h : Recorded done s) (hs : s.Sound) : Accounts done s := by
  obtain ⟨c, hc, hrows⟩ := h.catalog
  have hlength : s.tableCount = (entries done).length := by
    have hn : s.names.length = s.tableCount := List.length_map Prod.fst
    rw [← hn, h.names, List.length_map]
  have hcount : c.rows.length = s.tableCount := by rw [hrows, List.length_map, hlength]
  refine ⟨⟨c, hc, hrows, hcount⟩, h.names ▸ hs.nodup, fun name => ?_, h.engines, ?_, ?_⟩
  · rw [← h.names, mem_names_iff]
  · rw [hlength, entries, List.length_cons, Nat.add_comm]
  · have htables : s.tables.map (fun entry => (entry.1, entry.2.rowCount)) =
        s.names.map fun name => (name, if name = catalogName then s.tableCount else insertedCount name done) := by
      rw [Session.names, List.map_map]
      refine List.map_congr_left fun entry hm => ?_
      obtain ⟨name, t⟩ := entry
      have ht := table?_of_mem hs.nodup hm
      have hlen : t.rowCount = t.rows.length := (Storage.length_rows t.storage).symm
      by_cases hn : name = catalogName
      · subst hn
        rw [hc, Option.some.injEq] at ht
        subst ht
        simp [hlen, hcount]
      · simp [hlen, hn, ← rowCount_of_table? ht, h.rowCount name hn]
    rw [Session.rowCounts, htables, h.names, List.map_map]
    rfl

/-- **The catalog tells the truth.** After any requests, the catalog, the names, the engines and the counts are what
was carried out, and the catalog is only changed by a definition that is carried out. -/
theorem accounts_after (requests : List String) : (new.after requests).Accounts (new.performed requests) ∧
    ∀ request, ((new.after requests).run request).2.table? catalogName = (new.after requests).table? catalogName ∨
      ∃ d, Statement.ofText request = .ok (.create d) ∧ ((new.after requests).run request).1 = .ok .done := by
  have hs := sound_after requests
  refine ⟨(recorded_new.after sound_new requests).accounts hs, fun request => ?_⟩
  have heffect := hs.effect request
  generalize Statement.ofText request = parsed at heffect
  generalize (new.after requests).run request = outcome at heffect
  cases heffect with
  | malformed | refused | selected | shown => exact .inl rfl
  | inserted h => exact .inl (h.others _ (Ne.symm h.writable))
  | created h => exact .inr ⟨_, rfl, rfl⟩

end Session
end Tabular
