import Tabular.Proofs.Statement.Reader

/-!
# Reading replaced tokens

The reader looks at the kind of a token and, if it is a keyword or a symbol, at its value. A change of tokens that
keeps these (`Token.Keeps`) therefore commutes with reading: the changed tokens are read exactly if the tokens are,
and the tree is the changed tree (`derives_map_iff`).
-/

namespace Tabular

/-- A change of tokens that the grammar does not see. -/
structure Token.Keeps (f : Token → Token) : Prop where
  kind (t : Token) : (f t).kind = t.kind
  spells (t : Token) (word : String) : (f t).spells word = t.spells word

theorem Token.keeps_unplaced : Token.Keeps Token.unplaced :=
  ⟨fun _ => rfl, fun _ _ => rfl⟩

/-- The value of a keyword or a symbol is kept. -/
theorem Token.Keeps.value {f : Token → Token} (hf : Token.Keeps f) {t : Token}
    (h : t.kind = .keyword ∨ t.kind = .symbol) : (f t).value = t.value := by
  have ht : t.spells t.value := by
    rw [Token.spells, beq_self_eq_true, Bool.and_true, Bool.or_eq_true, beq_iff_eq, beq_iff_eq]
    exact h
  rw [← hf.spells] at ht
  exact Token.value_of_spells ht

namespace Progress

variable (f : Token → Token)

/-- Applies `f` to every token that has been read. -/
def mapTokens : Progress → Progress
  | start => start
  | createVerb => createVerb
  | createTable => createTable
  | createName name => createName (f name)
  | createColumns name columns => createColumns (f name) (columns.map (·.mapTokens f))
  | createColumn name columns column => createColumn (f name) (columns.map (·.mapTokens f)) (f column)
  | createType name columns => createType (f name) (columns.map (·.mapTokens f))
  | createBody name columns => createBody (f name) (columns.map (·.mapTokens f))
  | createEngine name columns => createEngine (f name) (columns.map (·.mapTokens f))
  | createEnd name columns engine => createEnd (f name) (columns.map (·.mapTokens f)) (f engine)
  | insertVerb => insertVerb
  | insertInto => insertInto
  | insertTable table => insertTable (f table)
  | insertColumns table columns => insertColumns (f table) (columns.map f)
  | insertColumn table columns => insertColumn (f table) (columns.map f)
  | insertNamed table columns => insertNamed (f table) (columns.map f)
  | insertValues table columns sets => insertValues (f table) (columns.map f) (sets.map (·.map f))
  | insertSet table columns sets set => insertSet (f table) (columns.map f) (sets.map (·.map f)) (set.map f)
  | insertValue table columns sets set => insertValue (f table) (columns.map f) (sets.map (·.map f)) (set.map f)
  | insertSets table columns sets => insertSets (f table) (columns.map f) (sets.map (·.map f))
  | selectVerb => selectVerb
  | selectColumns columns => selectColumns (columns.map f)
  | selectColumn columns => selectColumn (columns.map f)
  | selectProjection projection => selectProjection (projection.mapTokens f)
  | selectFrom projection => selectFrom (projection.mapTokens f)
  | selectTable projection table => selectTable (projection.mapTokens f) (f table)
  | selectWhere projection table conditions =>
    selectWhere (projection.mapTokens f) (f table) (conditions.map (·.mapTokens f))
  | selectLeft projection table conditions column =>
    selectLeft (projection.mapTokens f) (f table) (conditions.map (·.mapTokens f)) (f column)
  | selectOperator projection table conditions column operator =>
    selectOperator (projection.mapTokens f) (f table) (conditions.map (·.mapTokens f)) (f column) (f operator)
  | selectConditions projection table conditions =>
    selectConditions (projection.mapTokens f) (f table) (conditions.map (·.mapTokens f))
  | showVerb => showVerb
  | showCreate => showCreate
  | showOpen => showOpen
  | showTable table => showTable (f table)
  | showEnd table => showEnd (f table)
  | complete statement => complete (statement.mapTokens f)

variable {f} {p : Progress} {t : Token}

theorem admits_expected_map (hf : Token.Keeps f) (e : Expectation) : e.admits (f t) = e.admits t := by
  cases e with
  | word w => exact hf.spells t w
  | ofKind kind => simp only [Expectation.admits, hf.kind]
  | anyWord words => simp only [Expectation.admits, funext (hf.spells t)]
  | anyKind kinds => simp only [Expectation.admits, hf.kind]
  | nothing => rfl

theorem admits_mapTokens (hf : Token.Keeps f) (p : Progress) : (p.mapTokens f).admits (f t) = p.admits t := by
  have he : p.expected.admits (f t) = p.expected.admits t := admits_expected_map hf p.expected
  cases p with
  | start =>
    show ((f t).kind == .keyword && verbs.contains (f t).value) = (t.kind == .keyword && verbs.contains t.value)
    rw [hf.kind]
    by_cases hk : t.kind = .keyword
    · rw [hf.value (.inl hk)]
    · rw [beq_eq_false_iff_ne.mpr hk, Bool.false_and, Bool.false_and]
  | insertTable =>
    show ((f t).spells "(" || (f t).spells "values") = (t.spells "(" || t.spells "values")
    rw [hf.spells, hf.spells]
  | selectVerb =>
    show ((f t).spells "*" || (f t).spells "(") = (t.spells "*" || t.spells "(")
    rw [hf.spells, hf.spells]
  | _ => exact he

theorem kind_of_spells {word : String} (h : t.spells word) : t.kind = .keyword ∨ t.kind = .symbol := by
  simp only [Token.spells, Bool.and_eq_true, Bool.or_eq_true, beq_iff_eq] at h
  exact h.1

theorem kind_of_anyWord {words : List String} (h : (Expectation.anyWord words).admits t) :
    t.kind = .keyword ∨ t.kind = .symbol := by
  obtain ⟨w, -, hw⟩ := List.any_eq_true.mp h
  exact kind_of_spells hw

/-- A value that is kept decides the next state alike. -/
theorem ite_mapTokens {word : String} {p q p' q' : Progress} (hv : (f t).value = t.value)
    (hp : p' = p.mapTokens f) (hq : q' = q.mapTokens f) :
    (if (f t).value == word then p' else q') = (if t.value == word then p else q).mapTokens f := by
  rw [hv, hp, hq, apply_ite (mapTokens f)]

/-- Where the reader looks at the value of a token, the token is a keyword or a symbol. -/
theorem next_mapTokens (hf : Token.Keeps f) (p : Progress) (h : p.admits t) :
    (p.mapTokens f).next (f t) = (p.next t).mapTokens f := by
  cases p with
  | start =>
    have ha : (t.kind == .keyword && verbs.contains t.value) = true := h
    rw [Bool.and_eq_true, beq_iff_eq] at ha
    have hv : (f t).value = t.value := hf.value (.inl ha.1)
    exact ite_mapTokens hv rfl (ite_mapTokens hv rfl (ite_mapTokens hv rfl rfl))
  | insertTable | selectVerb =>
    have hs := Bool.or_eq_true _ _ ▸ h
    exact ite_mapTokens (hf.value (hs.elim kind_of_spells kind_of_spells)) rfl rfl
  | createType | insertColumn | insertSets | selectColumn | selectTable | selectConditions =>
    exact ite_mapTokens (hf.value (kind_of_anyWord h)) rfl rfl
  | insertValue =>
    refine ite_mapTokens (hf.value (kind_of_anyWord h)) ?_ rfl
    show _ = insertSets _ _ ((_ ++ [_]).map _)
    rw [List.map_append]
    rfl
  | createColumn =>
    show _ = createType _ ((_ ++ [_]).map _)
    rw [List.map_append]
    rfl
  | insertColumns =>
    show _ = insertColumn _ ((_ ++ [_]).map _)
    rw [List.map_append]
    rfl
  | insertSet =>
    show _ = insertValue _ _ _ ((_ ++ [_]).map _)
    rw [List.map_append]
    rfl
  | selectColumns =>
    show _ = selectColumn ((_ ++ [_]).map _)
    rw [List.map_append]
    rfl
  | selectOperator =>
    show _ = selectConditions _ _ ((_ ++ [_]).map _)
    rw [List.map_append]
    rfl
  | _ => rfl

/-- Reading a change of tokens, whatever has been read before: the reader is in the changed state. -/
theorem foldlM_mapTokens_iff (hf : Token.Keeps f) {ts : List Token} {r : Progress} :
    (ts.map f).foldlM step (p.mapTokens f) = .ok r ↔ ∃ q, ts.foldlM step p = .ok q ∧ q.mapTokens f = r := by
  induction ts generalizing p with
  | nil =>
    simp only [List.map_nil, List.foldlM_nil, pure, Except.pure, Except.ok.injEq]
    exact ⟨fun h => ⟨p, rfl, h⟩, fun ⟨_, hq, h⟩ => hq ▸ h⟩
  | cons t ts ih =>
    simp only [List.map_cons, foldlM_step_cons_eq_ok_iff, admits_mapTokens hf]
    constructor
    · rintro ⟨ha, h⟩
      rw [next_mapTokens hf p ha] at h
      obtain ⟨q, h, hq⟩ := ih.mp h
      exact ⟨q, ⟨ha, h⟩, hq⟩
    · rintro ⟨q, ⟨ha, h⟩, hq⟩
      rw [next_mapTokens hf p ha]
      exact ⟨ha, ih.mpr ⟨q, h, hq⟩⟩

/-- Only a complete statement is changed to one. -/
theorem mapTokens_eq_complete_iff {s' : Statement} :
    p.mapTokens f = complete s' ↔ ∃ s, p = complete s ∧ s.mapTokens f = s' := by
  constructor
  · intro h
    cases p with
    | complete s => exact ⟨s, rfl, complete.inj h⟩
    | _ => cases h
  · rintro ⟨s, rfl, rfl⟩
    rfl

end Progress

/-- **Reading a change of tokens.** The changed tokens are a statement exactly if the tokens are one, and the tree is
the changed tree. -/
theorem derives_map_iff {f : Token → Token} (hf : Token.Keeps f) {ts : List Token} {s' : Statement} :
    Derives (ts.map f) s' ↔ ∃ s, Derives ts s ∧ s.mapTokens f = s' := by
  simp only [Statement.derives_iff, Progress.Completes]
  rw [show Progress.start = Progress.start.mapTokens f from rfl, Progress.foldlM_mapTokens_iff hf]
  simp only [Progress.mapTokens_eq_complete_iff]
  constructor
  · rintro ⟨q, h, s, rfl, hs⟩
    exact ⟨s, h, hs⟩
  · rintro ⟨s, h, hs⟩
    exact ⟨_, h, s, rfl, hs⟩

end Tabular
