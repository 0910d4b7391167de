import Tabular.Proofs.Statement.Grammar
import Tabular.Statement.Reading

/-!
# The reader and the grammar

A reader in a state `p` completes `ts` to `s` when it reads all of `ts` and has `s` then (`Progress.Completes`). What
each state completes is said in terms of the grammar: one lemma for all lists (`completes_separated`), one for each
list of the four statements, and from these the statements (`derives_of_completes`, `completes_of_derives`). So the
reader accepts exactly the grammar, and no statement is a proper beginning of another one
(`ofTokens_eq_ok_iff_derives`).
-/

namespace Tabular

open Grammar

/-! ## Completing a statement -/

namespace Progress

/-- The reader in this state reads all the tokens and has the statement then. -/
def Completes (p : Progress) (ts : List Token) (s : Statement) : Prop :=
  ts.foldlM step p = .ok (complete s)

variable {p : Progress} {ts : List Token} {s : Statement}

/-- One token is read, or it is refused and nothing more is read. -/
theorem foldlM_step_cons (p : Progress) (t : Token) (ts : List Token) :
    (t :: ts).foldlM step p = if p.admits t then ts.foldlM step (p.next t) else .error (p.refusal t) := by
  rw [List.foldlM_cons, step]
  split <;> rfl

theorem foldlM_step_cons_eq_ok_iff {t : Token} {q : Progress} :
    (t :: ts).foldlM step p = .ok q ↔ p.admits t ∧ ts.foldlM step (p.next t) = .ok q := by
  rw [foldlM_step_cons]
  split
  · rename_i ha
    exact ⟨fun h => ⟨ha, h⟩, And.right⟩
  · rename_i ha
    exact ⟨nofun, fun h => absurd h.1 ha⟩

theorem completes_nil : p.Completes [] s ↔ p = complete s := by
  simp only [Completes, List.foldlM_nil, pure, Except.pure, Except.ok.injEq]

theorem completes_cons {t : Token} : p.Completes (t :: ts) s ↔ p.admits t ∧ (p.next t).Completes ts s :=
  foldlM_step_cons_eq_ok_iff

theorem Completes.done : (complete s).Completes [] s :=
  completes_nil.mpr rfl

theorem Completes.cons {t : Token} (ha : p.admits t) (h : (p.next t).Completes ts s) : p.Completes (t :: ts) s :=
  completes_cons.mpr ⟨ha, h⟩

/-- A state with a statement read has nothing more to read. -/
theorem completes_complete {s' : Statement} : (complete s').Completes ts s ↔ ts = [] ∧ s' = s := by
  cases ts with
  | nil => simp only [completes_nil, complete.injEq, true_and]
  | cons t ts =>
    have ha : (complete s').admits t = false := rfl
    rw [completes_cons, ha]
    exact ⟨nofun, nofun⟩

/-- A statement has been read. -/
def isComplete : Progress → Bool
  | complete _ => true
  | _ => false

theorem ne_complete (hp : p.isComplete = false) : p ≠ complete s := by
  intro h
  rw [h] at hp
  exact Bool.false_ne_true hp.symm

/-- A state without a statement reads a token first. -/
theorem Completes.exists_cons (h : p.Completes ts s) (hp : p.isComplete = false) :
    ∃ t rest, ts = t :: rest ∧ p.admits t ∧ (p.next t).Completes rest s := by
  cases ts with
  | nil => exact absurd (completes_nil.mp h) (ne_complete hp)
  | cons t ts => exact ⟨t, ts, rfl, completes_cons.mp h⟩

theorem completes_iff (hp : p.isComplete = false) :
    p.Completes ts s ↔ ∃ t rest, ts = t :: rest ∧ p.admits t ∧ (p.next t).Completes rest s := by
  constructor
  · exact fun h => h.exists_cons hp
  · rintro ⟨t, rest, rfl, h⟩
    exact completes_cons.mpr h

/-- A state that takes one of two words, the second of which leads elsewhere. -/
theorem completes_choice {q r : Progress} {word last : String} (hp : p.isComplete = false) (hne : word ≠ last)
    (ha : ∀ t, p.admits t = (t.spells word || t.spells last)) (hn : ∀ t, p.next t = if t.value == last then r else q) :
    p.Completes ts s ↔ ∃ t rest, ts = t :: rest ∧
      (t.spells word ∧ q.Completes rest s ∨ t.spells last ∧ r.Completes rest s) := by
  rw [completes_iff hp]
  refine exists_congr fun t => exists_congr fun rest => and_congr_right fun _ => ?_
  rw [ha, hn, Bool.or_eq_true, or_and_right]
  refine or_congr (and_congr_right fun h => ?_) (and_congr_right fun h => ?_)
  · rw [Token.value_of_spells h, if_neg (by simpa using hne)]
  · rw [Token.value_of_spells h, if_pos (beq_self_eq_true _)]

/-- A state that announces the two words that it takes. -/
theorem completes_anyWord {q r : Progress} {word last : String} (hp : p.isComplete = false) (hne : word ≠ last)
    (ha : ∀ t, p.admits t = (Expectation.anyWord [word, last]).admits t)
    (hn : ∀ t, p.next t = if t.value == last then r else q) :
    p.Completes ts s ↔ ∃ t rest, ts = t :: rest ∧
      (t.spells word ∧ q.Completes rest s ∨ t.spells last ∧ r.Completes rest s) := by
  refine completes_choice hp hne (fun t => ?_) hn
  have hw : (Expectation.anyWord [word, last]).admits t = (t.spells word || (t.spells last || false)) := rfl
  rw [ha, hw, Bool.or_false]

/-- A list of items with a word between them, read by a loop of two states: one before an item, one after it. -/
theorem completes_separated {α : Type} {word last : String} {item : List Token → α → Prop}
    (before after done : List α → Progress)
    (hitem : ∀ as ts, (before as).Completes ts s ↔
      ∃ its a rest, ts = its ++ rest ∧ item its a ∧ (after (as ++ [a])).Completes rest s)
    (hafter : ∀ as ts, (after as).Completes ts s ↔ ∃ t rest, ts = t :: rest ∧
      (t.spells word ∧ (before as).Completes rest s ∨ t.spells last ∧ (done as).Completes rest s))
    (as : List α) (ts : List Token) :
    (before as).Completes ts s ↔ ∃ body new t rest, ts = body ++ t :: rest ∧ Separated word item body new ∧
      t.spells last ∧ (done (as ++ new)).Completes rest s := by
  constructor
  · -- the loop reads at least the word after each item, so the induction is on what is left to read
    induction h : ts.length using Nat.strongRecOn generalizing as ts with
    | _ n ih =>
      intro hc
      obtain ⟨its, a, rest, rfl, hi, hc⟩ := (hitem as ts).mp hc
      obtain ⟨t, rest, rfl, ⟨ht, hc⟩ | ⟨ht, hc⟩⟩ := (hafter _ rest).mp hc
      · obtain ⟨body, new, closing, rest, rfl, hb, hl, hc⟩ := ih rest.length (by simp at h; omega) _ rest rfl hc
        refine ⟨its ++ t :: body, a :: new, closing, rest, by simp, .cons hi ht hb, hl, ?_⟩
        rwa [List.append_assoc, List.singleton_append] at hc
      · exact ⟨its, [a], t, rest, rfl, .one hi, ht, hc⟩
  · rintro ⟨body, new, closing, rest, rfl, hb, hl, hc⟩
    induction hb generalizing as with
    | one hi => exact (hitem _ _).mpr ⟨_, _, _, rfl, hi, (hafter _ _).mpr ⟨closing, rest, rfl, .inr ⟨hl, hc⟩⟩⟩
    | @cons its body t a new hi ht _ ih =>
      rw [← List.singleton_append, ← List.append_assoc] at hc
      rw [List.append_assoc, List.cons_append]
      exact (hitem _ _).mpr ⟨its, a, _, rfl, hi, (hafter _ _).mpr ⟨t, _, rfl, .inl ⟨ht, ih _ hc⟩⟩⟩

theorem admits_operators (t : Token) :
    (Expectation.anyWord operators).admits t ↔ t.spells "==" ∨ t.spells ">" ∨ t.spells "<" := by
  show operators.any t.spells ↔ _
  simp [operators]

theorem admits_valueKinds (t : Token) :
    (Expectation.anyKind valueKinds).admits t ↔ t.kind = .identifier ∨ t.kind = .number := by
  show valueKinds.contains t.kind ↔ _
  simp [valueKinds]

/-- A state that takes an item of one token. -/
theorem completes_single {item : List Token → Token → Prop} {good : Token → Prop}
    (hitem : ∀ its a, item its a ↔ its = [a] ∧ good a) (hp : p.isComplete = false) (ha : ∀ t, p.admits t ↔ good t) :
    p.Completes ts s ↔ ∃ its a rest, ts = its ++ rest ∧ item its a ∧ (p.next a).Completes rest s := by
  rw [completes_iff hp]
  constructor
  · rintro ⟨t, rest, rfl, ht, h⟩
    exact ⟨[t], t, rest, rfl, (hitem _ _).mpr ⟨rfl, (ha t).mp ht⟩, h⟩
  · rintro ⟨its, a, rest, rfl, hi, h⟩
    obtain ⟨rfl, hg⟩ := (hitem _ _).mp hi
    exact ⟨a, rest, rfl, (ha a).mpr hg, h⟩

/-! ## The lists of the four statements -/

theorem completes_insertTable {table : Token} : (insertTable table).Completes ts s ↔ ∃ t rest, ts = t :: rest ∧
    (t.spells "values" ∧ (insertValues table [] []).Completes rest s ∨
      t.spells "(" ∧ (insertColumns table []).Completes rest s) :=
  completes_choice rfl (by decide) (fun _ => Bool.or_comm _ _) fun _ => rfl

theorem completes_selectVerb : selectVerb.Completes ts s ↔ ∃ t rest, ts = t :: rest ∧
    (t.spells "(" ∧ (selectColumns []).Completes rest s ∨
      t.spells "*" ∧ (selectProjection .all).Completes rest s) :=
  completes_choice rfl (by decide) (fun _ => Bool.or_comm _ _) fun _ => rfl

theorem completes_selectTable {projection : Projection} {table : Token} :
    (selectTable projection table).Completes ts s ↔ ∃ t rest, ts = t :: rest ∧
      (t.spells "where" ∧ (selectWhere projection table []).Completes rest s ∨
        t.spells ";" ∧ (complete (.select ⟨projection, table, []⟩)).Completes rest s) :=
  completes_anyWord rfl (by decide) (fun _ => rfl) fun _ => rfl

theorem completes_createColumns {name : Token} {columns : List ColumnDefinition} :
    (createColumns name columns).Completes ts s ↔ ∃ body new t rest, ts = body ++ t :: rest ∧
      Separated "," TypedName body new ∧ t.spells ")" ∧ (createBody name (columns ++ new)).Completes rest s := by
  refine completes_separated (createColumns name) (createType name) (createBody name) (fun as ts => ?_)
    (fun as ts => ?_) columns ts
  · constructor
    · intro h
      obtain ⟨n, _, rfl, hn, h⟩ := h.exists_cons rfl
      obtain ⟨d, rest, rfl, hd, h⟩ := h.exists_cons rfl
      exact ⟨[n, d], _, rest, rfl, .intro (beq_iff_eq.mp hn) (beq_iff_eq.mp hd), h⟩
    · rintro ⟨_, _, rest, rfl, ⟨hn, hd⟩, h⟩
      exact .cons (beq_iff_eq.mpr hn) (.cons (beq_iff_eq.mpr hd) h)
  · exact completes_anyWord rfl (by decide) (fun _ => rfl) fun _ => rfl

theorem completes_insertColumns {table : Token} {columns : List Token} :
    (insertColumns table columns).Completes ts s ↔ ∃ body new t rest, ts = body ++ t :: rest ∧
      Separated "," Name body new ∧ t.spells ")" ∧ (insertNamed table (columns ++ new)).Completes rest s :=
  completes_separated (insertColumns table) (insertColumn table) (insertNamed table)
    (fun _ _ => completes_single name_iff rfl fun _ => beq_iff_eq)
    (fun _ _ => completes_anyWord rfl (by decide) (fun _ => rfl) fun _ => rfl) columns ts

theorem completes_insertSet {table : Token} {columns : List Token} {sets : List (List Token)} {set : List Token} :
    (insertSet table columns sets set).Completes ts s ↔ ∃ body new t rest, ts = body ++ t :: rest ∧
      Separated "," Value body new ∧ t.spells ")" ∧
      (insertSets table columns (sets ++ [set ++ new])).Completes rest s :=
  completes_separated (insertSet table columns sets) (insertValue table columns sets)
    (fun set => insertSets table columns (sets ++ [set]))
    (fun _ _ => completes_single value_iff rfl admits_valueKinds)
    (fun _ _ => completes_anyWord rfl (by decide) (fun _ => rfl) fun _ => rfl) set ts

/-- The value sets of an insertion: a list of lists, so the loop for the sets goes through the loop for the values. -/
theorem completes_insertValues {table : Token} {columns : List Token} {sets : List (List Token)} :
    (insertValues table columns sets).Completes ts s ↔ ∃ body new t rest, ts = body ++ t :: rest ∧
      Separated "," (Parenthesized Value) body new ∧ t.spells ";" ∧
      (complete (.insert ⟨table, columns, sets ++ new⟩)).Completes rest s := by
  refine completes_separated (insertValues table columns) (insertSets table columns)
    (fun sets => complete (.insert ⟨table, columns, sets⟩)) (fun as ts => ?_) (fun as ts => ?_) sets ts
  · constructor
    · intro h
      obtain ⟨t, _, rfl, ht, h⟩ := h.exists_cons rfl
      obtain ⟨body, set, t', rest, rfl, hb, ht', h⟩ := completes_insertSet.mp h
      exact ⟨t :: (body ++ [t']), set, rest, by simp, .intro ht hb ht', h⟩
    · rintro ⟨_, _, rest, rfl, ⟨ht, hb, ht'⟩, h⟩
      refine .cons ht (completes_insertSet.mpr ⟨_, _, _, rest, ?_, hb, ht', h⟩)
      rw [List.append_eq, List.append_assoc, List.singleton_append]
  · exact completes_anyWord rfl (by decide) (fun _ => rfl) fun _ => rfl

theorem completes_selectColumns {columns : List Token} :
    (selectColumns columns).Completes ts s ↔ ∃ body new t rest, ts = body ++ t :: rest ∧
      Separated "," Name body new ∧ t.spells ")" ∧
      (selectProjection (.columns (columns ++ new))).Completes rest s :=
  completes_separated selectColumns selectColumn (fun columns => selectProjection (.columns columns))
    (fun _ _ => completes_single name_iff rfl fun _ => beq_iff_eq)
    (fun _ _ => completes_anyWord rfl (by decide) (fun _ => rfl) fun _ => rfl) columns ts

theorem completes_selectWhere {projection : Projection} {table : Token} {conditions : List Condition} :
    (selectWhere projection table conditions).Completes ts s ↔ ∃ body new t rest, ts = body ++ t :: rest ∧
      Separated "and" Comparison body new ∧ t.spells ";" ∧
      (complete (.select ⟨projection, table, conditions ++ new⟩)).Completes rest s := by
  refine completes_separated (selectWhere projection table) (selectConditions projection table)
    (fun conditions => complete (.select ⟨projection, table, conditions⟩)) (fun as ts => ?_) (fun as ts => ?_)
    conditions ts
  · constructor
    · intro h
      obtain ⟨c, _, rfl, hc, h⟩ := h.exists_cons rfl
      obtain ⟨o, _, rfl, ho, h⟩ := h.exists_cons rfl
      obtain ⟨v, rest, rfl, hv, h⟩ := h.exists_cons rfl
      exact ⟨[c, o, v], _, rest, rfl,
        .intro (beq_iff_eq.mp hc) ((admits_operators o).mp ho) ((admits_valueKinds v).mp hv), h⟩
    · rintro ⟨_, _, rest, rfl, ⟨hc, ho, hv⟩, h⟩
      exact .cons (beq_iff_eq.mpr hc) (.cons ((admits_operators _).mpr ho) (.cons ((admits_valueKinds _).mpr hv) h))
  · exact completes_anyWord rfl (by decide) (fun _ => rfl) fun _ => rfl

/-! ## The statements -/

theorem derives_create {verb : Token} (hv : verb.IsVerb "create") (h : createVerb.Completes ts s) :
    Derives (verb :: ts) s := by
  obtain ⟨table, _, rfl, ht, h⟩ := h.exists_cons rfl
  obtain ⟨name, _, rfl, hn, h⟩ := h.exists_cons rfl
  obtain ⟨opening, _, rfl, ho, h⟩ := h.exists_cons rfl
  obtain ⟨body, columns, closing, _, rfl, hb, hc, h⟩ := completes_createColumns.mp h
  obtain ⟨word, _, rfl, hw, h⟩ := h.exists_cons rfl
  obtain ⟨engine, _, rfl, he, h⟩ := h.exists_cons rfl
  obtain ⟨stop, _, rfl, hs, h⟩ := h.exists_cons rfl
  obtain ⟨rfl, rfl⟩ := completes_complete.mp h
  have := Derives.create hv ht (beq_iff_eq.mp hn) (.intro ho hb hc) hw (beq_iff_eq.mp he) hs
  simpa using this

/-- From the values on, an insertion is read in the same way with and without names. -/
theorem derives_insertValues {verb into table values : Token} {names columns : List Token}
    (hv : verb.IsVerb "insert") (hi : into.spells "into") (ht : table.kind = .identifier)
    (hn : Optional (Parenthesized Name) names columns) (hw : values.spells "values")
    (h : (insertValues table columns []).Completes ts s) :
    Derives (verb :: into :: table :: (names ++ values :: ts)) s := by
  obtain ⟨body, sets, stop, _, rfl, hb, hs, h⟩ := completes_insertValues.mp h
  obtain ⟨rfl, rfl⟩ := completes_complete.mp h
  exact .insert hv hi ht hn hw hb hs

theorem derives_insert {verb : Token} (hv : verb.IsVerb "insert") (h : insertVerb.Completes ts s) :
    Derives (verb :: ts) s := by
  obtain ⟨into, _, rfl, hi, h⟩ := h.exists_cons rfl
  obtain ⟨table, _, rfl, ht, h⟩ := h.exists_cons rfl
  have ht : table.kind = .identifier := beq_iff_eq.mp ht
  obtain ⟨t, _, rfl, ⟨hw, h⟩ | ⟨ho, h⟩⟩ := completes_insertTable.mp h
  · exact derives_insertValues hv hi ht .none hw h
  · obtain ⟨body, columns, closing, _, rfl, hb, hc, h⟩ := completes_insertColumns.mp h
    obtain ⟨values, _, rfl, hw, h⟩ := h.exists_cons rfl
    have := derives_insertValues hv hi ht (.some (.intro ho hb hc)) hw h
    simpa using this

/-- From the word `FROM` on, a selection is read in the same way whatever it asks for. -/
theorem derives_selectProjection {verb : Token} {wanted : List Token} {projection : Projection}
    (hv : verb.IsVerb "select") (hp : Projected wanted projection)
    (h : (selectProjection projection).Completes ts s) : Derives (verb :: (wanted ++ ts)) s := by
  obtain ⟨word, _, rfl, hw, h⟩ := h.exists_cons rfl
  obtain ⟨table, _, rfl, ht, h⟩ := h.exists_cons rfl
  have ht : table.kind = .identifier := beq_iff_eq.mp ht
  obtain ⟨t, _, rfl, ⟨hc, h⟩ | ⟨hs, h⟩⟩ := completes_selectTable.mp h
  · obtain ⟨body, conditions, stop, _, rfl, hb, hs, h⟩ := completes_selectWhere.mp h
    obtain ⟨rfl, rfl⟩ := completes_complete.mp h
    exact .select hv hp hw ht (.some (.intro hc hb)) hs
  · obtain ⟨rfl, rfl⟩ := completes_complete.mp h
    exact .select hv hp hw ht .none hs

theorem derives_select {verb : Token} (hv : verb.IsVerb "select") (h : selectVerb.Completes ts s) :
    Derives (verb :: ts) s := by
  obtain ⟨t, _, rfl, ⟨ho, h⟩ | ⟨ha, h⟩⟩ := completes_selectVerb.mp h
  · obtain ⟨body, columns, closing, _, rfl, hb, hc, h⟩ := completes_selectColumns.mp h
    have := derives_selectProjection hv (.columns (.intro ho hb hc)) h
    simpa using this
  · exact derives_selectProjection hv (.all ha) h

theorem derives_show {verb : Token} (hv : verb.IsVerb "show") (h : showVerb.Completes ts s) :
    Derives (verb :: ts) s := by
  obtain ⟨create, _, rfl, hw, h⟩ := h.exists_cons rfl
  obtain ⟨opening, _, rfl, ho, h⟩ := h.exists_cons rfl
  obtain ⟨table, _, rfl, ht, h⟩ := h.exists_cons rfl
  obtain ⟨closing, _, rfl, hc, h⟩ := h.exists_cons rfl
  obtain ⟨stop, _, rfl, hs, h⟩ := h.exists_cons rfl
  obtain ⟨rfl, rfl⟩ := completes_complete.mp h
  exact .showCreate hv hw ho (beq_iff_eq.mp ht) hc hs

/-- The verb decides which statement is read. -/
theorem next_start {t : Token} (h : start.admits t) :
    t.IsVerb "create" ∧ start.next t = createVerb ∨ t.IsVerb "insert" ∧ start.next t = insertVerb ∨
      t.IsVerb "select" ∧ start.next t = selectVerb ∨ t.IsVerb "show" ∧ start.next t = showVerb := by
  have ha : (t.kind == .keyword && verbs.contains t.value) = true := h
  obtain ⟨value, kind, position⟩ := t
  simp only [Bool.and_eq_true, beq_iff_eq, verbs, List.contains_iff_mem, List.mem_cons, List.not_mem_nil,
    or_false] at ha
  obtain ⟨rfl, rfl | rfl | rfl | rfl⟩ := ha
  · exact .inl ⟨⟨rfl, rfl⟩, rfl⟩
  · exact .inr (.inl ⟨⟨rfl, rfl⟩, rfl⟩)
  · exact .inr (.inr (.inl ⟨⟨rfl, rfl⟩, rfl⟩))
  · exact .inr (.inr (.inr ⟨⟨rfl, rfl⟩, rfl⟩))

theorem derives_of_completes (h : start.Completes ts s) : Derives ts s := by
  obtain ⟨t, ts, rfl, ht, h⟩ := h.exists_cons rfl
  obtain ⟨hv, hn⟩ | ⟨hv, hn⟩ | ⟨hv, hn⟩ | ⟨hv, hn⟩ := next_start ht <;> rw [hn] at h
  · exact derives_create hv h
  · exact derives_insert hv h
  · exact derives_select hv h
  · exact derives_show hv h

/-- A verb leads to the state of its statement. -/
theorem completes_start {t : Token} {word : String} (hv : t.IsVerb word) (hw : word ∈ verbs)
    (h : (start.next ⟨word, .keyword, 0⟩).Completes ts s) : start.Completes (t :: ts) s := by
  obtain ⟨value, kind, position⟩ := t
  obtain ⟨rfl, rfl⟩ := hv
  exact .cons (List.contains_iff_mem.mpr hw) h

theorem completes_of_derives (h : Derives ts s) : start.Completes ts s := by
  cases h with
  | create hv ht hn hb hw he hs =>
    obtain ⟨ho, hb, hc⟩ := hb
    refine completes_start hv (by decide) (.cons ht (.cons (beq_iff_eq.mpr hn) (.cons ho ?_)))
    refine completes_createColumns.mpr ⟨_, _, _, _, List.append_assoc .., hb, hc, ?_⟩
    exact .cons hw (.cons (beq_iff_eq.mpr he) (.cons hs .done))
  | @insert _ _ table values stop names body columns sets hv hi ht hn hw hb hs =>
    refine completes_start hv (by decide) (.cons hi (.cons (beq_iff_eq.mpr ht) ?_))
    have h (columns : List Token) :
        (insertValues table columns []).Completes (body ++ [stop]) (.insert ⟨table, columns, sets⟩) :=
      completes_insertValues.mpr ⟨body, sets, stop, [], rfl, hb, hs, .done⟩
    cases hn with
    | none => exact completes_insertTable.mpr ⟨_, _, rfl, .inl ⟨hw, h []⟩⟩
    | some hn =>
      obtain ⟨ho, hn, hc⟩ := hn
      refine completes_insertTable.mpr ⟨_, _, rfl, .inr ⟨ho, ?_⟩⟩
      exact completes_insertColumns.mpr ⟨_, _, _, _, List.append_assoc .., hn, hc, .cons hw (h _)⟩
  | @select _ fromWord table stop wanted body projection conditions hv hp hw ht hc hs =>
    refine completes_start hv (by decide) ?_
    have h : (selectProjection projection).Completes (fromWord :: table :: (body ++ [stop]))
        (.select ⟨projection, table, conditions⟩) := by
      refine .cons hw (.cons (beq_iff_eq.mpr ht) (completes_selectTable.mpr ?_))
      cases hc with
      | none => exact ⟨stop, [], rfl, .inr ⟨hs, .done⟩⟩
      | some hc =>
        obtain ⟨hc, hb⟩ := hc
        exact ⟨_, _, rfl, .inl ⟨hc, completes_selectWhere.mpr ⟨_, _, stop, [], rfl, hb, hs, .done⟩⟩⟩
    cases hp with
    | all ha => exact completes_selectVerb.mpr ⟨_, _, rfl, .inr ⟨ha, h⟩⟩
    | columns hn =>
      obtain ⟨ho, hn, hc⟩ := hn
      refine completes_selectVerb.mpr ⟨_, _, rfl, .inl ⟨ho, ?_⟩⟩
      exact completes_selectColumns.mpr ⟨_, _, _, _, List.append_assoc .., hn, hc, h⟩
  | showCreate hv hw ho ht hc hs =>
    exact completes_start hv (by decide)
      (.cons hw (.cons ho (.cons (beq_iff_eq.mpr ht) (.cons hc (.cons hs .done)))))

/-- The tokens may end where a statement has been read. -/
theorem finish_eq_ok_iff {stop : Nat} : p.finish stop = .ok s ↔ p = complete s := by
  cases p with
  | complete s' =>
    show Except.ok s' = Except.ok s ↔ complete s' = complete s
    rw [Except.ok.injEq, complete.injEq]
  | _ => exact ⟨nofun, nofun⟩

/-- What follows a statement is not read. -/
theorem Completes.eq_nil_of_append {rest : List Token} {s' : Statement} (h : p.Completes ts s)
    (h' : p.Completes (ts ++ rest) s') : rest = [] ∧ s = s' := by
  rw [Completes, List.foldlM_append, h] at h'
  exact completes_complete.mp h'

end Progress

/-! ## Reading is deriving -/

namespace Statement

variable {ts : List Token} {stop : Nat} {s : Statement}

theorem ofTokens_eq_ok_iff_completes : ofTokens ts stop = .ok s ↔ Progress.start.Completes ts s := by
  unfold ofTokens Progress.Completes
  cases ts.foldlM Progress.step .start with
  | error e => exact ⟨nofun, nofun⟩
  | ok p =>
    rw [Except.ok.injEq]
    exact Progress.finish_eq_ok_iff

theorem derives_iff : Derives ts s ↔ Progress.start.Completes ts s :=
  ⟨Progress.completes_of_derives, Progress.derives_of_completes⟩

/-- **The reader accepts exactly the grammar**, and with the tree of the derivation. No other tree belongs to the same
tokens, and no statement is a proper beginning of another one. -/
theorem ofTokens_eq_ok_iff_derives (ts : List Token) (stop : Nat) (s : Statement) :
    (ofTokens ts stop = .ok s ↔ Derives ts s) ∧
      (Derives ts s → ∀ ts' stop' s', ofTokens ts' stop' = .ok s' → ts' <+: ts ∨ ts <+: ts' → ts' = ts ∧ s' = s) := by
  refine ⟨ofTokens_eq_ok_iff_completes.trans derives_iff.symm, ?_⟩
  intro h ts' stop' s' h' hts
  rw [derives_iff] at h
  rw [ofTokens_eq_ok_iff_completes] at h'
  obtain ⟨rest, rfl⟩ | ⟨rest, rfl⟩ := hts
  · obtain ⟨rfl, rfl⟩ := h'.eq_nil_of_append h
    exact ⟨(List.append_nil _).symm, rfl⟩
  · obtain ⟨rfl, rfl⟩ := h.eq_nil_of_append h'
    exact ⟨List.append_nil _, rfl⟩

/-- The statement at the tokens of `show create (t);`. -/
theorem ofTokens_show :
    let ts : List Token := [⟨"show", .keyword, 0⟩, ⟨"create", .keyword, 5⟩, ⟨"(", .symbol, 12⟩,
      ⟨"t", .identifier, 13⟩, ⟨")", .symbol, 14⟩, ⟨";", .symbol, 15⟩]
    let s : Statement := .showCreate ⟨"t", .identifier, 13⟩
    Derives ts s ∧ ∀ ts' stop' s', ofTokens ts' stop' = .ok s' → ts' <+: ts ∨ ts <+: ts' → ts' = ts ∧ s' = s := by
  intro ts s
  have h : Derives ts s := .showCreate ⟨rfl, rfl⟩ rfl rfl rfl rfl rfl
  exact ⟨h, (ofTokens_eq_ok_iff_derives ts 16 s).2 h⟩

end Statement
end Tabular
