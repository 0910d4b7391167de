import Tabular.Proofs.Schema.Values
import Tabular.Proofs.Session.Step
import Tabular.Proofs.Statement.RoundTrip
import Tabular.Proofs.Table.Places

/-!
# How sessions represent tables

Every table that requests lead to is kept under its own name, has at least one column and no two of one name, holds rows
that fit its columns, and keeps its vectors aligned; and the texts in it, the catalog aside, are identifiers that do not
spell null (`Table.Represents`). So no request ever meets a place out of range (`Session.runByPlace`). Both are the main
statement, `Session.represents_after`.

The invariant behind it (`Table.Proper`) asks for a little more: all names are such that they can be read back, and every
cell is what the token says as which it is displayed. The rows of the catalog are not read from values, and the words
for engines in them are no identifiers.
-/

namespace Tabular

theorem Token.IsName.fresh {t : Token} (h : t.IsName) : (Token.fresh t.value .identifier).IsName := by
  obtain ⟨value, kind, position⟩ := t
  obtain ⟨hf, rfl⟩ := h
  exact ⟨hf.congr rfl, rfl⟩

/-! ## Proper tables -/

/-- The table can stand under the name: the name is its own, its layout is one that a definition can make, and what it
holds can be written as values unless it is the catalog. -/
structure Table.Proper (name : String) (t : Table) : Prop where
  sound : t.Sound
  named : t.schema.table = name
  isName : (Token.fresh name .identifier).IsName
  columns : t.schema.columns ≠ []
  nodup : t.schema.names.Nodup
  columnNames : ∀ c ∈ t.schema.columns, (Token.fresh c.name .identifier).IsName
  storable : name ≠ catalogName → ∀ r ∈ t.rows, ∀ c ∈ r, c.Storable

/-- What a table is known to be under its name, whatever requests were made. -/
structure Table.Represents (name : String) (t : Table) : Prop where
  named : t.schema.table = name
  columns : t.schema.columns ≠ []
  nodup : t.schema.names.Nodup
  visits : ∀ {m : Type → Type} [Monad m] [LawfulMonad m] (visit : Row → m Unit), t.forRows visit = t.rows.forM visit
  rows : ∀ r ∈ t.rows, Row.Fits t.schema.columns r
  aligned : t.storage.Aligned t.schema.columns
  texts : name ≠ catalogName → ∀ r ∈ t.rows, ∀ text, Cell.text text ∈ r →
    (Token.fresh text .identifier).Faithful ∧ Text.IsIdentifier text ∧ Cell.spellsNull text = false

namespace Table

variable {name : String} {t : Table}

theorem Proper.represents (h : t.Proper name) : t.Represents name where
  named := h.named
  columns := h.columns
  nodup := h.nodup
  visits visit := Storage.forRows_eq_forM visit t.storage
  rows := h.sound.fits
  aligned := h.sound.aligned
  texts hn r hr text hm := by
    have hs := h.storable hn r hr _ hm
    obtain ⟨hi, hnull⟩ := Cell.storable_text_iff.mp hs
    exact ⟨hs.isValue.1, hi, hnull⟩

theorem Proper.append {rows : List Row} (h : t.Proper name) (hr : ∀ r ∈ rows, Row.Fits t.schema.columns r)
    (hs : name ≠ catalogName → ∀ r ∈ rows, ∀ c ∈ r, c.Storable) : (t.append rows).Proper name where
  sound := h.sound.append hr
  named := h.named
  isName := h.isName
  columns := h.columns
  nodup := h.nodup
  columnNames := h.columnNames
  storable hn r hm := by
    rw [h.sound.rows_append hr, List.mem_append] at hm
    exact hm.elim (h.storable hn r) (hs hn r)

/-- A well-formed definition makes a proper table. -/
theorem proper_ofDefinition {d : TableDefinition} (hd : (Statement.create d).WellFormed)
    (h : Table.ofDefinition d = .ok t) : t.Proper d.name.value := by
  obtain ⟨hname, ⟨hne, hcs⟩, -⟩ := hd
  obtain ⟨engine, schema, -, hs, rfl⟩ := ofDefinition_eq_ok_iff.mp h
  obtain ⟨htable, hdescribes, hnodup⟩ := Schema.ofDefinition_eq_ok_iff.mp hs
  have hcolumns : schema.columns ≠ [] := by
    intro he
    rw [he, List.forall₂_nil_right_iff] at hdescribes
    exact hne hdescribes
  have hnames : ∀ c ∈ schema.columns, (Token.fresh c.name .identifier).IsName := by
    intro c hc
    obtain ⟨definition, hm, hn, -⟩ := exists_of_mem_forall₂ hdescribes hc
    rw [hn]
    exact (hcs definition hm).1.fresh
  refine ⟨sound_empty schema engine, htable, hname.fresh, hcolumns, hnodup, hnames, fun _ r hr => ?_⟩
  rw [Table.rows, Table.empty, Storage.rows_empty] at hr
  exact absurd hr List.not_mem_nil

theorem proper_newCatalog : newCatalog.Proper catalogName where
  sound := (sound_empty catalogSchema .linear).append (Session.catalogRow_fits _ _)
  named := rfl
  isName := ⟨by rw [Token.faithful_iff]; decide +kernel, rfl⟩
  columns := by decide
  nodup := by decide
  columnNames := by
    have h : ∀ c ∈ catalogSchema.columns, Token.readings c.name.toList = [.fresh c.name .identifier] := by
      decide +kernel
    exact fun c hc => ⟨Token.faithful_iff.mpr (h c hc), rfl⟩
  storable hn := absurd rfl hn

end Table

/-! ## Proper sessions -/

namespace Session

/-- Every table can stand under its name. -/
def Proper (s : Session) : Prop :=
  ∀ name t, s.table? name = some t → t.Proper name

/-- What every table is known to be, whatever requests were made. -/
def Represents (s : Session) : Prop :=
  ∀ name t, s.table? name = some t → t.Represents name

variable {s : Session}

theorem proper_new : new.Proper := by
  intro name t ht
  cases List.mem_singleton.mp (mem_tables_of_table? ht)
  exact Table.proper_newCatalog

/-- A row may be entered into the catalog, whatever it says. -/
theorem Proper.register (h : s.Proper) (hs : s.Sound) (name : String) (engine : Engine) :
    (s.register name engine).Proper := by
  refine forall_tables_register h fun t ht => ?_
  obtain ⟨c, hc, hschema⟩ := hs.catalog
  rw [ht, Option.some.injEq] at hc
  subst hc
  exact (h _ t ht).append (hschema ▸ catalogRow_fits name engine) fun hn => absurd rfl hn

/-- No request that is read from text makes an improper table. -/
theorem Step.proper {parsed : Except SyntaxError Statement} {outcome : Outcome} (h : Step s parsed outcome)
    (hs : s.Sound) (hp : s.Proper) (hw : ∀ statement, parsed = .ok statement → statement.WellFormed) :
    outcome.2.Proper := by
  cases h with
  | malformed | refused | selected | shown => exact hp
  | inserted hn ht hr =>
    have hstorable := Schema.rowsOf_storable (hw _ rfl) hr
    exact forall_tables_put hp ((hp _ _ ht).append (Schema.rowsOf_fits hr) fun _ => hstorable)
  | created hn ht =>
    have hnew : (s.add _ _).Proper := forall_tables_add hp (Table.proper_ofDefinition (hw _ rfl) ht)
    exact hnew.register (hs.add hn (Table.sound_ofDefinition ht)) _ _

theorem Proper.after (h : s.Proper) (hs : s.Sound) (requests : List String) : (s.after requests).Proper := by
  induction requests generalizing s with
  | nil => exact h
  | cons request requests ih =>
    have hstep := s.step_run request
    exact ih (hstep.proper hs h fun _ hw => Statement.wellFormed_of_ofText hw) (hstep.sound hs)

/-- Every session that requests lead to is proper. -/
theorem proper_after (requests : List String) : (new.after requests).Proper :=
  proper_new.after sound_new requests

/-! ## Requests by places -/

/-- The insertion, with the rows made by places. -/
def insertByPlace (s : Session) (i : Insertion) : Option Outcome :=
  let name := i.table.value
  if name = catalogName then some (.error (.readOnly name), s)
  else
    match s.table? name with
    | some t => (t.schema.rowsByPlace i).run.map fun
      | .ok rows => (.ok .done, s.put name (t.append rows))
      | .error e => s.fail e
    | none => some (s.fail (.unknownTable name))

/-- The selection, with the rows found by places. -/
def selectByPlace (s : Session) (q : Selection) : Option Outcome :=
  match s.table? q.table.value with
  | some t => (t.selectByPlace q).run.map fun
    | .ok selected => (.ok (.rows selected.lines), s)
    | .error e => s.fail e
  | none => some (s.fail (.unknownTable q.table.value))

/-- Carries out a request by places. There is no outcome if one of them is out of range. -/
def runByPlace (s : Session) (request : String) : Option Outcome :=
  match Statement.ofText request with
  | .ok (.insert i) => s.insertByPlace i
  | .ok (.select q) => s.selectByPlace q
  | .ok statement => some (s.perform statement)
  | .error e => some (.error (.syntaxError e), s)

theorem insertByPlace_eq (s : Session) (i : Insertion) : s.insertByPlace i = some (s.insert i) := by
  by_cases hn : i.table.value = catalogName
  · rw [insert_readOnly hn]
    exact if_pos hn
  unfold insertByPlace
  simp only [if_neg hn]
  cases ht : s.table? i.table.value with
  | none => rw [insert_unknown hn ht]
  | some t =>
    simp only [Schema.rowsByPlace_eq]
    cases hr : t.schema.rowsOf i with
    | error e =>
      rw [insert_refused hn ht hr]
      rfl
    | ok rows =>
      rw [insert_done hn ht hr]
      rfl

theorem Sound.selectByPlace_eq (h : s.Sound) (q : Selection) : s.selectByPlace q = some (s.select q) := by
  unfold Session.selectByPlace Session.select
  cases ht : s.table? q.table.value with
  | none => rfl
  | some t =>
    simp only [Table.selectByPlace_eq (h.tables _ t ht)]
    cases t.select q with
    | error e => rfl
    | ok selected => rfl

/-- In a sound session no request meets a place out of range. -/
theorem Sound.runByPlace_eq (h : s.Sound) (request : String) : s.runByPlace request = some (s.run request) := by
  unfold Session.runByPlace Session.run
  cases Statement.ofText request with
  | error e => rfl
  | ok statement =>
    cases statement with
    | create d => rfl
    | insert i => exact s.insertByPlace_eq i
    | select q => exact h.selectByPlace_eq q
    | showCreate name => rfl

/-- **Every session represents its tables, and no request meets a place out of range.** -/
theorem represents_after (requests : List String) : (new.after requests).Represents ∧
    ∀ request, (new.after requests).runByPlace request = some ((new.after requests).run request) := by
  have hp := proper_after requests
  have hs := sound_after requests
  exact ⟨fun name t ht => (hp name t ht).represents, hs.runByPlace_eq⟩

end Session
end Tabular
