import Mathlib.Data.List.Forall2
import Tabular.Proofs.Statement.Reader
import Tabular.Proofs.Token.Faithful
import Tabular.Proofs.Token.Offset

/-!
# The first fault

Tokens that are no statement are reported at the first one that cannot be right. Tokens are viable when some statement
starts with them (`Statement.Viable`). From every state of the reader a statement can be ended
(`Progress.exists_completes_tail`), so what the reader gets through is viable; and a token that a state does not take
cannot be made good by any that follow, so nothing longer is. The error names the first token behind the longest viable
beginning, or the end (`Statement.Reports`), and for a text its byte offset. The main statement is
`Statement.reports_of_error`.
-/

namespace Tabular

open Token

/-- What an error says was expected in the place of what was found. -/
def SyntaxError.expected? : SyntaxError → Option Expectation
  | .noToken _ _ => none
  | .unexpectedToken expected _ _ => some expected
  | .unexpectedEnd expected _ => some expected
  | .unknownVerb _ _ => none

/-- What an error says was found. At the end of a request this is nothing. -/
def SyntaxError.found? : SyntaxError → Option String
  | .noToken fragment _ => some fragment
  | .unexpectedToken _ found _ => some found
  | .unexpectedEnd _ _ => none
  | .unknownVerb found _ => some found

namespace Progress

/-! ## No state is a dead end -/

/-- What is left of the definition `create table t (a int) engine linear;` after `n` tokens. -/
def createTail (n : Nat) : List Token :=
  [fresh "create" .keyword, fresh "table" .keyword, fresh "t" .identifier, fresh "(" .symbol, fresh "a" .identifier,
    fresh "int" .datatype, fresh ")" .symbol, fresh "engine" .keyword, fresh "linear" .engine,
    fresh ";" .symbol].drop n

/-- What is left of the insertion `insert into t (a) values (1);` after `n` tokens. -/
def insertTail (n : Nat) : List Token :=
  [fresh "insert" .keyword, fresh "into" .keyword, fresh "t" .identifier, fresh "(" .symbol, fresh "a" .identifier,
    fresh ")" .symbol, fresh "values" .keyword, fresh "(" .symbol, fresh "1" .number, fresh ")" .symbol,
    fresh ";" .symbol].drop n

/-- What is left of the selection `select (a) from t where a == 1;` after `n` tokens. -/
def selectTail (n : Nat) : List Token :=
  [fresh "select" .keyword, fresh "(" .symbol, fresh "a" .identifier, fresh ")" .symbol, fresh "from" .keyword,
    fresh "t" .identifier, fresh "where" .keyword, fresh "a" .identifier, fresh "==" .symbol, fresh "1" .number,
    fresh ";" .symbol].drop n

/-- What is left of `show create (t);` after `n` tokens. -/
def showTail (n : Nat) : List Token :=
  [fresh "show" .keyword, fresh "create" .keyword, fresh "(" .symbol, fresh "t" .identifier, fresh ")" .symbol,
    fresh ";" .symbol].drop n

/-- Tokens that end a statement from a state, whatever the state has read. -/
def tail : Progress → List Token
  | start => showTail 0
  | createVerb => createTail 1
  | createTable => createTail 2
  | createName _ => createTail 3
  | createColumns _ _ => createTail 4
  | createColumn _ _ _ => createTail 5
  | createType _ _ => createTail 6
  | createBody _ _ => createTail 7
  | createEngine _ _ => createTail 8
  | createEnd _ _ _ => createTail 9
  | insertVerb => insertTail 1
  | insertInto => insertTail 2
  | insertTable _ => insertTail 3
  | insertColumns _ _ => insertTail 4
  | insertColumn _ _ => insertTail 5
  | insertNamed _ _ => insertTail 6
  | insertValues _ _ _ => insertTail 7
  | insertSet _ _ _ _ => insertTail 8
  | insertValue _ _ _ _ => insertTail 9
  | insertSets _ _ _ => insertTail 10
  | selectVerb => selectTail 1
  | selectColumns _ => selectTail 2
  | selectColumn _ => selectTail 3
  | selectProjection _ => selectTail 4
  | selectFrom _ => selectTail 5
  | selectTable _ _ => selectTail 6
  | selectWhere _ _ _ => selectTail 7
  | selectLeft _ _ _ _ => selectTail 8
  | selectOperator _ _ _ _ _ => selectTail 9
  | selectConditions _ _ _ => selectTail 10
  | showVerb => showTail 1
  | showCreate => showTail 2
  | showOpen => showTail 3
  | showTable _ => showTail 4
  | showEnd _ => showTail 5
  | complete _ => []

/-- No state is a dead end. -/
theorem exists_completes_tail (p : Progress) : ∃ s, p.Completes p.tail s := by
  cases p <;> exact ⟨_, rfl⟩

/-! ## Where reading stops -/

variable {p q : Progress} {t : Token} {ts : List Token} {e : SyntaxError}

/-- What a state says of the token that is next, or else of the end of the tokens. -/
def fault (p : Progress) (stop : Nat) : Option Token → SyntaxError
  | some t => p.refusal t
  | none => .unexpectedEnd p.expected stop

/-- The reader comes to the state behind the first `k` tokens and cannot go on from there. -/
structure StopsAt (ts : List Token) (k : Nat) (p : Progress) : Prop where
  le : k ≤ ts.length
  read : (ts.take k).foldlM step start = .ok p
  refused : ∀ t, ts[k]? = some t → p.admits t = false
  unfinished : k = ts.length → ∀ s, p ≠ complete s

/-- Reading that fails has come to a token that the state before it does not take. -/
theorem exists_refused (h : ts.foldlM step p = .error e) : ∃ k q t, ts[k]? = some t ∧
    (ts.take k).foldlM step p = .ok q ∧ q.admits t = false ∧ e = q.refusal t := by
  induction ts generalizing p with
  | nil => nomatch h
  | cons t ts ih =>
    rw [foldlM_step_cons] at h
    split at h
    · rename_i ha
      obtain ⟨k, q, u, hu, hread, hq, he⟩ := ih h
      refine ⟨k + 1, q, u, hu, ?_, hq, he⟩
      rw [List.take_succ_cons, foldlM_step_cons, if_pos ha, hread]
    · rename_i ha
      cases h
      exact ⟨0, p, t, rfl, rfl, Bool.eq_false_iff.mpr ha, rfl⟩

/-- No token leads back to the start. -/
theorem next_ne_start (p : Progress) (t : Token) : p.next t ≠ start := by
  cases p <;> simp only [next] <;> (repeat' split) <;> exact Progress.noConfusion

/-- The reader is at the start only before the first token. -/
theorem eq_nil_of_foldlM_eq_start (h : ts.foldlM step p = .ok start) : ts = [] := by
  induction ts generalizing p with
  | nil => rfl
  | cons t ts ih =>
    rw [foldlM_step_cons] at h
    split at h
    · have hts : ts = [] := ih h
      subst hts
      exact absurd (Except.ok.inj h) (next_ne_start p t)
    · nomatch h

/-- What a state announces it takes; at the start that is a keyword. -/
theorem admits_of_expected (h : p.expected.admits t) (hk : p = start → t.kind = .keyword) : p.admits t := by
  cases p with
  | start =>
    obtain ⟨word, hw, ht⟩ := List.any_eq_true.mp h
    have hverb : t.value ∈ verbs := by rwa [value_of_spells ht]
    show (t.kind == .keyword && verbs.contains t.value) = true
    simp [hk rfl, hverb]
  | insertTable => exact (Bool.or_eq_true _ _).mpr (.inr h)
  | selectVerb => exact (Bool.or_eq_true _ _).mpr (.inr h)
  | _ => exact h

/-- Nothing more is expected exactly where a statement has been read. -/
theorem expected_eq_nothing_iff : p.expected = .nothing ↔ ∃ s, p = complete s := by
  cases p <;> simp [expected]

theorem refusal_of_ne_start (h : p ≠ start) : p.refusal t = .unexpectedToken p.expected t.value t.position := by
  cases p with
  | start => exact absurd rfl h
  | _ => rfl

theorem expected?_fault (h : p ≠ start) (stop : Nat) (next? : Option Token) :
    (p.fault stop next?).expected? = some p.expected := by
  cases next? with
  | some t => rw [fault, refusal_of_ne_start h]; rfl
  | none => rfl

/-- The tokens can end where the reader is, or the error says that they cannot. -/
theorem finish_eq_error_iff {stop : Nat} :
    p.finish stop = .error e ↔ (∀ s, p ≠ complete s) ∧ e = .unexpectedEnd p.expected stop := by
  cases p with
  | complete s => simp [finish]
  | _ => simp [finish, eq_comm]

/-- What follows the first `k` tokens is the next one and the rest. -/
theorem take_append_cons_drop {k : Nat} (h : ts[k]? = some t) : ts.take k ++ t :: ts.drop (k + 1) = ts := by
  obtain ⟨hk, rfl⟩ := List.getElem?_eq_some_iff.mp h
  rw [List.getElem_cons_drop, List.take_append_drop]

end Progress

/-! ## Viable tokens -/

namespace Statement

variable {ts : List Token} {t : Token} {stop k : Nat} {e : SyntaxError} {p : Progress}

/-- Some statement starts with the tokens. -/
def Viable (ts : List Token) : Prop :=
  ∃ more stop s, ofTokens (ts ++ more) stop = .ok s

/-- **What the reader gets through is viable**, and nothing else is. -/
theorem viable_iff : Viable ts ↔ ∃ p, ts.foldlM Progress.step .start = .ok p := by
  constructor
  · rintro ⟨more, stop, s, h⟩
    have hread := ofTokens_eq_ok_iff_completes.mp h
    rw [Progress.Completes, List.foldlM_append] at hread
    cases hts : ts.foldlM Progress.step .start with
    | ok p => exact ⟨p, rfl⟩
    | error e =>
      rw [hts] at hread
      cases hread
  · rintro ⟨p, h⟩
    obtain ⟨s, hs⟩ := p.exists_completes_tail
    refine ⟨p.tail, 0, s, ofTokens_eq_ok_iff_completes.mpr ?_⟩
    rw [Progress.Completes, List.foldlM_append, h]
    exact hs

theorem Viable.of_append {more : List Token} (h : Viable (ts ++ more)) : Viable ts := by
  obtain ⟨more', stop, s, h⟩ := h
  exact ⟨more ++ more', stop, s, by rwa [List.append_assoc] at h⟩

/-- Viable tokens stay so with one more exactly if the state after them takes it. -/
theorem viable_concat_iff (h : ts.foldlM Progress.step .start = .ok p) : Viable (ts ++ [t]) ↔ p.admits t := by
  have hread : (ts ++ [t]).foldlM Progress.step .start = [t].foldlM Progress.step p := by
    rw [List.foldlM_append, h]
    rfl
  rw [viable_iff, hread, Progress.foldlM_step_cons]
  split
  · rename_i ha
    exact ⟨fun _ => ha, fun _ => ⟨_, rfl⟩⟩
  · rename_i ha
    exact ⟨fun ⟨_, h⟩ => (nomatch h), fun ht => absurd ht ha⟩

/-- The first `k` tokens are viable, and no more of them are. -/
structure LongestViable (ts : List Token) (k : Nat) : Prop where
  le : k ≤ ts.length
  viable : Viable (ts.take k)
  longest : ∀ j, j ≤ ts.length → Viable (ts.take j) → j ≤ k

/-- The reader stops behind the longest viable beginning. -/
theorem longestViable_of_stopsAt (h : Progress.StopsAt ts k p) : LongestViable ts k where
  le := h.le
  viable := viable_iff.mpr ⟨p, h.read⟩
  longest j hj hv := by
    -- a longer beginning has the refused token in it
    refine Nat.le_of_not_lt fun hlt => ?_
    have hk : k < ts.length := Nat.lt_of_lt_of_le hlt hj
    have hone : Viable (ts.take k ++ [ts[k]]) := by
      have htake : ts.take (k + 1) = (ts.take j).take (k + 1) := by rw [List.take_take, Nat.min_eq_left hlt]
      rw [List.take_append_getElem hk, htake]
      rw [← List.take_append_drop (k + 1) (ts.take j)] at hv
      exact hv.of_append
    have ha : p.admits ts[k] := (viable_concat_iff h.read).mp hone
    rw [h.refused _ (List.getElem?_eq_getElem hk)] at ha
    nomatch ha

/-- What an error tells of tokens the first `k` of which are the longest viable beginning. -/
structure Reports (ts : List Token) (stop k : Nat) (e : SyntaxError) : Prop where
  /-- Inside the tokens it names the token behind the beginning, and its place. -/
  token : ∀ t, ts[k]? = some t → k = 0 ∧ e = .unknownVerb t.value t.position ∨
    k ≠ 0 ∧ ∃ expected, e = .unexpectedToken expected t.value t.position
  /-- At the end it names the end. -/
  ending : k = ts.length → ∃ expected, e = .unexpectedEnd expected stop
  /-- Whatever it expects makes a longer viable beginning; the first token has to be a keyword. -/
  sound : ∀ expected, e.expected? = some expected → ∀ t, expected.admits t → (ts = [] → t.kind = .keyword) →
    Viable (ts.take k ++ [t])
  /-- It expects nothing exactly if the beginning is a statement. -/
  finished : e.expected? = some .nothing ↔ ∃ stop s, ofTokens (ts.take k) stop = .ok s

theorem exists_ofTokens_iff (h : ts.foldlM Progress.step .start = .ok p) :
    (∃ stop s, ofTokens ts stop = .ok s) ↔ ∃ s, p = .complete s := by
  simp only [ofTokens_eq_ok_iff_completes, Progress.Completes, h, Except.ok.injEq, exists_const]

theorem reports_of_stopsAt (h : Progress.StopsAt ts k p) : Reports ts stop k (p.fault stop ts[k]?) where
  token t ht := by
    rw [ht]
    by_cases hp : p = .start
    · subst hp
      have hnil : ts.take k = [] := Progress.eq_nil_of_foldlM_eq_start h.read
      have hk : (ts.take k).length = k := List.length_take_of_le h.le
      rw [hnil] at hk
      exact .inl ⟨hk.symm, rfl⟩
    · refine .inr ⟨fun hz => hp ?_, _, Progress.refusal_of_ne_start hp⟩
      have hread := h.read
      rw [hz] at hread
      exact (Except.ok.inj hread).symm
  ending hk := by
    rw [hk, List.getElem?_eq_none (Nat.le_refl _)]
    exact ⟨_, rfl⟩
  sound expected he t ht hk := by
    rw [viable_concat_iff h.read]
    by_cases hp : p = .start
    · subst hp
      -- the first token is refused without a word on what was expected, so there is none
      cases hnext : ts[k]? with
      | some u =>
        rw [hnext] at he
        nomatch he
      | none =>
        rw [hnext] at he
        cases he
        have hts : ts = [] := by
          rw [← List.take_of_length_le (List.getElem?_eq_none_iff.mp hnext)]
          exact Progress.eq_nil_of_foldlM_eq_start h.read
        exact Progress.admits_of_expected ht fun _ => hk hts
    · rw [Progress.expected?_fault hp] at he
      cases he
      exact Progress.admits_of_expected ht fun hs => absurd hs hp
  finished := by
    rw [exists_ofTokens_iff h.read, ← Progress.expected_eq_nothing_iff]
    by_cases hp : p = .start
    · subst hp
      cases ts[k]? with
      | some u => exact ⟨nofun, nofun⟩
      | none => exact Option.some_inj
    · rw [Progress.expected?_fault hp]
      exact Option.some_inj

/-- An error names what it was found at: the token behind the viable beginning, or the end. -/
theorem Reports.names (h : Reports ts stop k e) (hk : k ≤ ts.length) :
    e.found? = ts[k]?.map Token.value ∧ e.position = (ts[k]?.map Token.position).getD stop := by
  cases ht : ts[k]? with
  | some t =>
    rcases h.token t ht with ⟨-, rfl⟩ | ⟨-, expected, rfl⟩ <;> exact ⟨rfl, rfl⟩
  | none =>
    have hend : k = ts.length := Nat.le_antisymm hk (List.getElem?_eq_none_iff.mp ht)
    obtain ⟨expected, rfl⟩ := h.ending hend
    exact ⟨rfl, rfl⟩

/-- **Errors are what the state says in which the reader stops.** -/
theorem ofTokens_eq_error_iff :
    ofTokens ts stop = .error e ↔ ∃ k p, Progress.StopsAt ts k p ∧ e = p.fault stop ts[k]? := by
  unfold ofTokens
  constructor
  · intro h
    cases hts : ts.foldlM Progress.step .start with
    | error e' =>
      rw [hts] at h
      cases h
      obtain ⟨k, q, t, ht, hread, hq, rfl⟩ := Progress.exists_refused hts
      obtain ⟨hk, -⟩ := List.getElem?_eq_some_iff.mp ht
      refine ⟨k, q, ⟨Nat.le_of_lt hk, hread, fun u hu => ?_, fun he => absurd hk (he ▸ Nat.lt_irrefl _)⟩,
        by rw [ht]; rfl⟩
      rw [ht] at hu
      cases hu
      exact hq
    | ok q =>
      rw [hts] at h
      obtain ⟨hq, rfl⟩ := Progress.finish_eq_error_iff.mp h
      refine ⟨ts.length, q, ⟨Nat.le_refl _, ?_, fun t ht => ?_, fun _ => hq⟩, ?_⟩
      · rwa [List.take_length]
      · simp at ht
      · rw [List.getElem?_eq_none (Nat.le_refl _)]
        rfl
  · rintro ⟨k, q, hq, rfl⟩
    cases ht : ts[k]? with
    | some t =>
      have hread : ts.foldlM Progress.step .start = .error (q.refusal t) := by
        rw [← Progress.take_append_cons_drop ht, List.foldlM_append, hq.read]
        show (t :: ts.drop (k + 1)).foldlM Progress.step q = _
        rw [Progress.foldlM_step_cons, hq.refused t ht]
        rfl
      rw [hread]
      rfl
    | none =>
      have hk : k = ts.length := Nat.le_antisymm hq.le (List.getElem?_eq_none_iff.mp ht)
      have hread : ts.foldlM Progress.step .start = .ok q := by
        rw [← hq.read, hk, List.take_length]
      rw [hread]
      exact Progress.finish_eq_error_iff.mpr ⟨hq.unfinished hk, rfl⟩

/-- Tokens that are no statement are reported where their longest viable beginning ends. -/
theorem exists_reports (h : ofTokens ts stop = .error e) : ∃ k, LongestViable ts k ∧ Reports ts stop k e := by
  obtain ⟨k, p, hp, rfl⟩ := ofTokens_eq_error_iff.mp h
  exact ⟨k, longestViable_of_stopsAt hp, reports_of_stopsAt hp⟩

/-! ## Places in a text -/

/-- Every token of a text stands at the byte offset that it says, behind a text with the tokens before it. -/
theorem exists_text_before {text : String} (h : Token.ofText text = .ok ts) (ht : ts[k]? = some t) :
    ∃ before word after, text = before ++ word ++ after ∧ t.position = before.utf8ByteSize ∧
      Token.ofText before = .ok (ts.take k) ∧ Token.ofFragment word t.position = .ok t := by
  rw [ofText_eq, Except.ok.injEq] at h
  obtain ⟨hk, hget⟩ := List.getElem?_eq_some_iff.mp ht
  have hsplit : ts = ts.take k ++ t :: ts.drop (k + 1) := by
    rw [← hget, List.getElem_cons_drop, List.take_append_drop]
  rw [hsplit] at h
  obtain ⟨as, bs, hls, has, hbs⟩ := List.map_eq_append_iff.mp h
  obtain ⟨l, bs, rfl, hl, -⟩ := List.map_eq_cons_iff.mp hbs
  have hcuts : Lexeme.Cuts 0 text.toList (as ++ l :: bs) := hls ▸ Lexeme.cuts_split 0 text.toList
  obtain ⟨pre, rest, htext, hstart, hpre⟩ := hcuts.exists_before
  refine ⟨String.ofList pre, String.ofList l.text, String.ofList rest, ?_, ?_, ?_, ?_⟩
  · rw [← String.ofList_append, ← String.ofList_append, List.append_assoc, ← htext, String.ofList_toList]
  · rw [← Lexeme.width_eq_utf8ByteSize, ← hl]
    exact hstart.trans (Nat.zero_add _)
  · rw [ofText_eq, String.toList_ofList, hpre.split_eq, has]
  · have hne : l.text ≠ [] := Lexeme.ne_nil_of_isSeparator_or_isWord (hcuts.isSeparator_or_isWord l (by simp))
    rw [← hl]
    exact ofLexeme_eq hne

/-- Where in a text an error lies that is reported behind the first `k` of its tokens. -/
structure Locates (text : String) (ts : List Token) (k : Nat) (e : SyntaxError) : Prop where
  /-- At the end of the text, if no token is left. -/
  ending : k = ts.length → e.position = text.utf8ByteSize
  /-- Otherwise where the next token starts: the text before it has just the `k` tokens. -/
  token : ∀ t, ts[k]? = some t → ∃ before word after, text = before ++ word ++ after ∧
    e.position = before.utf8ByteSize ∧ Token.ofText before = .ok (ts.take k) ∧ Token.ofFragment word e.position = .ok t

theorem Reports.locates {text : String} (h : Reports ts text.utf8ByteSize k e) (hts : Token.ofText text = .ok ts) :
    Locates text ts k e where
  ending hk := by
    obtain ⟨expected, rfl⟩ := h.ending hk
    rfl
  token t ht := by
    have hposition : e.position = t.position := by
      rcases h.token t ht with ⟨-, rfl⟩ | ⟨-, expected, rfl⟩ <;> rfl
    rw [hposition]
    exact exists_text_before hts ht

/-- **Syntax errors are reported at the first token that cannot be right.** For tokens that are no statement this is the
token behind their longest viable beginning, or their end; for a text that is no statement the error has the byte offset
at which that token starts, or the length of the text. -/
theorem reports_of_error :
    (∀ ts stop e, ofTokens ts stop = .error e → ∃ k, LongestViable ts k ∧ Reports ts stop k e) ∧
      ∀ text e, ofText text = .error e → ∃ ts k, Token.ofText text = .ok ts ∧ LongestViable ts k ∧
        Reports ts text.utf8ByteSize k e ∧ Locates text ts k e := by
  refine ⟨fun ts stop e h => exists_reports h, fun text e h => ?_⟩
  obtain ⟨ts, hts, -⟩ := Token.exists_ofText text
  rw [ofText, hts] at h
  obtain ⟨k, hk, hr⟩ := exists_reports h
  exact ⟨ts, k, hts, hk, hr, hr.locates hts⟩

/-- The report on no tokens at all, and the one on a word behind a value set. -/
theorem reports_of_error_insert :
    let empty : SyntaxError := .unexpectedEnd (.anyWord ["create", "insert", "select", "show"]) 0
    let text := "INSERT INTO t VALUES (é, 1) x;"
    let word : SyntaxError := .unexpectedToken (.anyWord [",", ";"]) "x" 29
    (ofTokens [] 0 = .error empty ∧ ∃ k, LongestViable [] k ∧ Reports [] 0 k empty) ∧
      ofText text = .error word ∧ ∃ ts k, Token.ofText text = .ok ts ∧ LongestViable ts k ∧
        Reports ts text.utf8ByteSize k word ∧ Locates text ts k word := by
  intro empty text word
  have hempty : ofTokens [] 0 = .error empty := rfl
  have htext : ofText text = .error word := by decide +kernel
  exact ⟨⟨hempty, reports_of_error.1 [] 0 empty hempty⟩, htext, reports_of_error.2 text word htext⟩

end Statement
end Tabular
