import Tabular.Proofs.Session.Step

/-!
# Tables do not interfere

What requests about one table come to depends on these requests only, and so does the table: others may be left out,
put in or changed. For the catalog, the requests that create tables count as well (`concerns`). The main statement is
`Session.separation`.

Two sessions are seen alike under a name when they have the same table there and, for the catalog, tables of the same
names (`Session.SeenAlike`). A request about the table keeps this on both sides and has the same result
(`SeenAlike.run`), and any other request keeps it on the side where it is made (`SeenAlike.skip`). So every session is
seen like the one after those requests alone that concern the table (`SeenAlike.filter`).
-/

namespace Tabular

/-- Whether a statement is about the table of a name. All definitions are about the catalog. -/
def Statement.concerns (name : String) (s : Statement) : Bool :=
  match s with
  | create d => d.name.value == name || name == catalogName
  | s => s.table == name

/-- Whether a request is a statement about the table of a name. -/
def concerns (name request : String) : Bool :=
  match Statement.ofText request with
  | .ok statement => statement.concerns name
  | .error _ => false

namespace Session

/-- The requests about the table of a name, in order, each with its result. -/
def seen (s : Session) (name : String) (requests : List String) : List (String × Except RequestError Answer) :=
  ((s.trace requests).filter fun entry => concerns name entry.1).map fun (request, outcome) => (request, outcome.1)

/-- The sessions have the same table under the name and, if this is the catalog, tables of the same names. -/
structure SeenAlike (name : String) (s s' : Session) : Prop where
  table : s.table? name = s'.table? name
  names : name = catalogName → ∀ other, (s.table? other).isSome = (s'.table? other).isSome

variable {s s' : Session} {name : String}

theorem seen_cons (s : Session) (name request : String) (requests : List String) :
    s.seen name (request :: requests) = if concerns name request then
      (request, (s.run request).1) :: (s.run request).2.seen name requests
    else (s.run request).2.seen name requests := by
  unfold seen
  rw [trace, List.filter_cons]
  split <;> rfl

/-! ## Changes on both sides -/

namespace SeenAlike

theorem refl (name : String) (s : Session) : SeenAlike name s s :=
  ⟨rfl, fun _ _ => rfl⟩

theorem put (h : SeenAlike name s s') (n : String) (t : Table) : SeenAlike name (s.put n t) (s'.put n t) where
  table := by rw [table?_put, table?_put, h.table]
  names hn other := by rw [table?_put, table?_put, Option.isSome_map, Option.isSome_map, h.names hn]

theorem add (h : SeenAlike name s s') (n : String) (t : Table) : SeenAlike name (s.add n t) (s'.add n t) where
  table := by rw [table?_add, table?_add, h.table]
  names hn other := by rw [table?_add, table?_add, Option.isSome_or, Option.isSome_or, h.names hn]

theorem register (h : SeenAlike name s s') (n : String) (e : Engine) :
    SeenAlike name (s.register n e) (s'.register n e) where
  table := by rw [table?_register, table?_register, h.table]
  names hn other := by rw [table?_register, table?_register, Option.isSome_map, Option.isSome_map, h.names hn]

/-! ## One request -/

theorem create {d : TableDefinition} (h : SeenAlike name s s') (hd : d.name.value = name ∨ name = catalogName) :
    (s.create d).1 = (s'.create d).1 ∧ SeenAlike name (s.create d).2 (s'.create d).2 := by
  have hsome : (s.table? d.name.value).isSome = (s'.table? d.name.value).isSome := by
    rcases hd with rfl | hn
    · rw [h.table]
    · exact h.names hn _
  unfold Session.create
  simp only [hsome]
  split
  · exact ⟨rfl, h⟩
  · split
    · exact ⟨rfl, (h.add _ _).register _ _⟩
    · exact ⟨rfl, h⟩

theorem insert {i : Insertion} (h : SeenAlike name s s') (hi : i.table.value = name) :
    (s.insert i).1 = (s'.insert i).1 ∧ SeenAlike name (s.insert i).2 (s'.insert i).2 := by
  subst hi
  unfold Session.insert
  simp only [h.table]
  split
  · exact ⟨rfl, h⟩
  · split
    · split
      · exact ⟨rfl, h.put _ _⟩
      · exact ⟨rfl, h⟩
    · exact ⟨rfl, h⟩

theorem select {q : Selection} (h : SeenAlike name s s') (hq : q.table.value = name) :
    (s.select q).1 = (s'.select q).1 := by
  subst hq
  unfold Session.select
  simp only [h.table]
  split
  · split <;> rfl
  · rfl

theorem showCreate {t : Token} (h : SeenAlike name s s') (ht : t.value = name) :
    (s.showCreate t).1 = (s'.showCreate t).1 := by
  subst ht
  unfold Session.showCreate
  simp only [h.table]
  split <;> rfl

/-- A request about the table has the same result in both sessions, and they are seen alike after it. -/
theorem run {request : String} (h : SeenAlike name s s') (hr : concerns name request = true) :
    (s.run request).1 = (s'.run request).1 ∧ SeenAlike name (s.run request).2 (s'.run request).2 := by
  unfold concerns at hr
  unfold Session.run
  cases hp : Statement.ofText request with
  | error e =>
    rw [hp] at hr
    nomatch hr
  | ok statement =>
    rw [hp] at hr
    cases statement with
    | create d =>
      simp only [Statement.concerns, Bool.or_eq_true, beq_iff_eq] at hr
      exact h.create hr
    | insert i => exact h.insert (beq_iff_eq.mp hr)
    | select q =>
      simp only [perform, select_snd]
      exact ⟨h.select (beq_iff_eq.mp hr), h⟩
    | showCreate t =>
      simp only [perform, showCreate_snd]
      exact ⟨h.showCreate (beq_iff_eq.mp hr), h⟩

/-- Any other request leaves what is seen as it is. -/
theorem skip {request : String} (h : SeenAlike name s s') (hr : concerns name request = false) :
    SeenAlike name (s.run request).2 s' := by
  have hstep := s.step_run request
  unfold concerns at hr
  generalize Statement.ofText request = parsed at hstep hr
  generalize s.run request = outcome at hstep
  cases hstep with
  | malformed | refused | selected | shown => exact h
  | @inserted i t rows hn ht hrows =>
    have hne : name ≠ i.table.value := Ne.symm (beq_eq_false_iff_ne.mp hr)
    refine ⟨by rw [table?_put_of_ne hne, h.table], fun hc other => ?_⟩
    rw [table?_put, Option.isSome_map, h.names hc]
  | @created d t hn ht =>
    simp only [Statement.concerns, Bool.or_eq_false_iff, beq_eq_false_iff_ne] at hr
    obtain ⟨hd, hc⟩ := hr
    refine ⟨?_, fun hn => absurd hn hc⟩
    rw [table?_register, table?_add_of_ne (Ne.symm hd), ← h.table]
    simp [hc]

/-! ## Lists of requests -/

/-- The requests that do not concern the table may be left out. -/
theorem filter (h : SeenAlike name s s') (requests : List String) :
    s.seen name requests = s'.seen name (requests.filter (concerns name)) ∧
      SeenAlike name (s.after requests) (s'.after (requests.filter (concerns name))) := by
  induction requests generalizing s s' with
  | nil => exact ⟨rfl, h⟩
  | cons request requests ih =>
    cases hr : concerns name request with
    | true =>
      obtain ⟨hresult, hnext⟩ := h.run hr
      obtain ⟨hseen, hafter⟩ := ih hnext
      refine ⟨?_, ?_⟩
      · rw [List.filter_cons_of_pos hr, seen_cons, seen_cons, if_pos hr, if_pos hr, hresult, hseen]
      · rw [List.filter_cons_of_pos hr]
        exact hafter
    | false =>
      obtain ⟨hseen, hafter⟩ := ih (h.skip hr)
      have hn : ¬ concerns name request = true := Bool.not_eq_true _ ▸ hr
      rw [List.filter_cons_of_neg hn, seen_cons, if_neg hn]
      exact ⟨hseen, hafter⟩

end SeenAlike

/-- **Tables do not interfere.** Lists of requests with the same requests about a table give these the same results, and
they lead to the same table. -/
theorem separation {requests requests' : List String} {name : String}
    (h : requests.filter (concerns name) = requests'.filter (concerns name)) :
    new.seen name requests = new.seen name requests' ∧
      (new.after requests).table? name = (new.after requests').table? name := by
  obtain ⟨hseen, hafter⟩ := (SeenAlike.refl name new).filter requests
  obtain ⟨hseen', hafter'⟩ := (SeenAlike.refl name new).filter requests'
  rw [← h] at hseen' hafter'
  exact ⟨hseen.trans hseen'.symm, hafter.table.trans hafter'.table.symm⟩

/-- Other tables come and go around two requests about `t`, one of which fails. -/
theorem separation_of_two_requests :
    let requests := ["CREATE TABLE u (a text) ENGINE linear;", "CREATE TABLE t (a int) ENGINE column;", "SELECT * FROM v;",
      "INSERT INTO u VALUES (x);", "INSERT INTO t VALUES (x);"]
    let requests' := ["CREATE TABLE t (a int) ENGINE column;", "none", "INSERT INTO t VALUES (x);"]
    requests.filter (concerns "t") = requests'.filter (concerns "t") ∧
      new.seen "t" requests = new.seen "t" requests' ∧
      (new.after requests).table? "t" = (new.after requests').table? "t" := by
  intro requests requests'
  have h : requests.filter (concerns "t") = requests'.filter (concerns "t") := by decide +kernel
  exact ⟨h, separation h⟩

end Session
end Tabular
