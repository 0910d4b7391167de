import Tabular.Proofs.Schema.Definition
import Tabular.Proofs.Statement.RoundTrip
import Tabular.Proofs.Token.Exchange

/-!
# The engine word of a definition

`SwapsEngine r r'` says that the request `r` is a table definition and that `r'` is the same text with the other
engine's word in the place of the engine word. Such a request is a definition as well, and it differs from the first one
in the engine only (`SwapsEngine.ofText`): the engine word is a lexeme of letters, so the exchange leaves all other
lexemes as they are, and the grammar lets any engine stand there.
-/

namespace Tabular

open Grammar Lexeme Token

/-- The other engine. -/
def Engine.other : Engine → Engine
  | linear => column
  | column => linear

/-- The second request is the first one, which is a table definition, with a word for the other engine in the place of
the engine word. -/
inductive SwapsEngine : String → String → Prop where
  | intro {before word after word' : String} {d : TableDefinition} {e : Engine}
      (hd : Statement.ofText (before ++ word ++ after) = .ok (.create d))
      (hp : d.engine.position = width before.toList)
      (hw : Text.lowercase word = e.name)
      (hw' : Text.lowercase word' = e.other.name) :
      SwapsEngine (before ++ word ++ after) (before ++ word' ++ after)

/-! ## Words for engines -/

theorem Engine.isPlain_name (e : Engine) : ∀ c ∈ e.name.toList, Text.IsPlain c :=
  isPlain_of_mem_reserved rfl e.name (Engine.mem_reserved_iff.mpr ⟨e, rfl⟩)

section Words

variable {word : String} {e : Engine}

/-- A word for an engine is six letters long. -/
theorem length_of_lowercase (h : Text.lowercase word = e.name) : word.toList.length = 6 := by
  obtain ⟨hm, -⟩ := Text.map_toLower_of_lowercase e.isPlain_name h
  have hl : (word.toList.map Char.toLower).length = 6 := by
    rw [hm]
    cases e <;> rfl
  rwa [List.length_map] at hl

theorem isLetters_of_lowercase (h : Text.lowercase word = e.name) : IsLetters word.toList := by
  refine ⟨fun hn => ?_, (Text.map_toLower_of_lowercase e.isPlain_name h).2⟩
  have hl := length_of_lowercase h
  rw [hn] at hl
  cases hl

/-- Letters spell no number. -/
theorem readInteger?_of_isLetters (h : IsLetters word.toList) : Text.readInteger? word = none := by
  obtain ⟨c, cs, hcs⟩ := List.exists_cons_of_ne_nil h.1
  have hc : Text.IsLetter c := h.2 c (hcs ▸ List.mem_cons_self)
  have hd : c.isDigit = false := by
    refine Bool.eq_false_iff.mpr fun hd => ?_
    have h₀ : 48 ≤ c.toNat ∧ c.toNat ≤ 57 := Char.isDigit_iff_toNat.mp hd
    unfold Text.IsLetter at hc
    omega
  have hn : Text.readDigits? (c :: cs) = none := by
    rw [Text.readDigits?, if_neg]
    simp [hd]
  have hs : Text.readSigned? (c :: cs) = none := by
    unfold Text.readSigned?
    split
    · rename_i h
      cases h
      exact absurd hc (by decide)
    · rename_i h
      cases h
      exact absurd hc (by decide)
    · rw [hn]
      rfl
  rw [Text.readInteger?, hcs, hs]

/-- Letters spell no symbol. -/
theorem not_reserves_of_isLetters (h : IsLetters word.toList) : TokenKind.symbol.reserves word = false := by
  have hno : ∀ w ∈ TokenKind.symbol.reserved, w.toList.any (fun c => decide (Text.IsLetter c)) = false := by decide
  refine Bool.eq_false_iff.mpr fun hw => ?_
  obtain ⟨c, cs, hcs⟩ := List.exists_cons_of_ne_nil h.1
  have hc : c ∈ word.toList := hcs ▸ List.mem_cons_self
  have hany : word.toList.any (fun c => decide (Text.IsLetter c)) = true :=
    List.any_eq_true.mpr ⟨c, hc, decide_eq_true (h.2 c hc)⟩
  rw [hno word (List.contains_iff_mem.mp hw)] at hany
  cases hany

theorem reading_of_lowercase (h : Text.lowercase word = e.name) :
    reading word.toList = .fresh e.name .engine := by
  have hi := readInteger?_of_isLetters (isLetters_of_lowercase h)
  have hs : TokenKind.symbol.reserves word = false := not_reserves_of_isLetters (isLetters_of_lowercase h)
  rw [reading, String.ofList_toList, recognize, hi, h, hs]
  cases e <;> rfl

/-- What is read as an engine is a word for one. -/
theorem lowercase_of_reading {w : List Char} (h : (reading w).kind = .engine) :
    ∃ e : Engine, Text.lowercase (String.ofList w) = e.name := by
  have hk : (recognize (String.ofList w)).2 = .engine := h
  have hr := lowercase_mem_reserved (show (recognize (String.ofList w)).2.isFolded = true by rw [hk]; rfl)
  rw [hk] at hr
  exact Engine.mem_reserved_iff.mp hr

end Words

/-! ## The engine in a derivation -/

/-- The engine is the last but one token of a definition, and any engine may stand there. -/
theorem derives_create_engine {ts : List Token} {d : TableDefinition} (h : Derives ts (.create d)) :
    ∃ front stop, ts = front ++ [d.engine, stop] ∧ d.engine.kind = .engine ∧
      ∀ t : Token, t.kind = .engine → Derives (front ++ [t, stop]) (.create { d with engine := t }) := by
  cases h with
  | @create verb table name engineWord engine stop body columns hv ht hn hb hew he hs =>
    refine ⟨verb :: table :: name :: (body ++ [engineWord]), stop, by simp, he, fun t hk => ?_⟩
    simpa using Derives.create hv ht hn hb hew hk hs

/-! ## The exchange -/

/-- Texts of the same width at the front of a text are the same. -/
theorem append_inj_of_width {a b a' b' : List Char} (h : a ++ b = a' ++ b') (hw : width a = width a') :
    a = a' ∧ b = b' := by
  induction a generalizing a' with
  | nil =>
    cases a' with
    | nil => exact ⟨rfl, h⟩
    | cons c a' =>
      have := c.utf8Size_pos
      simp [width] at hw
      omega
  | cons c a ih =>
    cases a' with
    | nil =>
      have := c.utf8Size_pos
      simp [width] at hw
      omega
    | cons c' a' =>
      obtain ⟨rfl, htail⟩ := List.cons.inj h
      simp only [width, Nat.add_left_cancel_iff] at hw
      obtain ⟨rfl, rfl⟩ := ih htail hw
      exact ⟨rfl, rfl⟩

/-- The engine of a definition is a lexeme of its text: what stands before it, the word itself and what follows. -/
theorem exists_engine_lexeme {text : String} {d : TableDefinition} (h : Statement.ofText text = .ok (.create d)) :
    ∃ (as : List Lexeme) (l : Lexeme) (bs : List Lexeme) (front : List Token) (stop : Token),
      split 0 text.toList = as ++ l :: bs ∧ l.start = d.engine.position ∧
      (reading l.text).kind = .engine ∧ as.map (reading ·.text) = front.map unplaced ∧
      bs.map (reading ·.text) = [unplaced stop] ∧
      ∀ t : Token, t.kind = .engine → Derives (front ++ [t, stop]) (.create { d with engine := t }) := by
  obtain ⟨ts, ht, hd⟩ := Statement.derives_of_ofText h
  obtain ⟨front, stop, rfl, hk, hd⟩ := derives_create_engine hd
  rw [ofText_eq, Except.ok.injEq] at ht
  obtain ⟨as, bs, hs, rfl, hbs⟩ := List.map_eq_append_iff.mp ht
  obtain ⟨l, bs, rfl, hl, hbs⟩ := List.map_eq_cons_iff.mp hbs
  refine ⟨as, l, bs, _, stop, hs, ?_, ?_, ?_, ?_, hd⟩
  · rw [← hl]
    rfl
  · rw [← hk, ← hl]
    rfl
  · rw [List.map_map]
    rfl
  · have := congrArg (List.map unplaced) hbs
    rwa [List.map_map] at this

/-- **Exchanging the engine word.** The request with the other word is the same definition with the other engine. -/
theorem SwapsEngine.ofText {r r' : String} (h : SwapsEngine r r') :
    ∃ d d' e, Statement.ofText r = .ok (.create d) ∧ Statement.ofText r' = .ok (.create d') ∧
      (Statement.create d').Same (.create { d with engine := .fresh (Engine.name e) .engine }) := by
  obtain @⟨before, word, after, word', d, e, hd, hp, hw, hw'⟩ := h
  obtain ⟨as, l, bs, front, stop, hs, hstart, hk, has, hbs, hderives⟩ := exists_engine_lexeme hd
  obtain ⟨e₀, he₀⟩ := lowercase_of_reading hk
  have hl := isLetters_of_lowercase he₀
  rw [String.toList_ofList] at hl
  have hcuts : Cuts 0 (before ++ word ++ after).toList (as ++ l :: bs) := hs ▸ cuts_split _ _
  obtain ⟨pre, rest, htext, hpre, bs', hbs', hcuts⟩ := hcuts.exchange hl (isLetters_of_lowercase hw')
  -- the word that is exchanged is the lexeme: both start at the same offset, and both are six letters long
  rw [String.toList_append, String.toList_append, List.append_assoc] at htext
  obtain ⟨rfl, htail⟩ := append_inj_of_width htext (by omega)
  have hlen : word.toList.length = l.text.length := by
    have := length_of_lowercase he₀
    rw [String.toList_ofList] at this
    rw [length_of_lowercase hw, this]
  obtain ⟨-, rfl⟩ := List.append_inj htail hlen
  have hr : Reads (before ++ word' ++ after).toList (front ++ [.fresh e.other.name .engine, stop]) := by
    have hstop : bs'.map (reading ·.text) = [unplaced stop] := by
      have := congrArg (List.map reading) hbs'
      rw [List.map_map, List.map_map] at this
      exact this.trans hbs
    rw [String.toList_append, String.toList_append, List.append_assoc, Reads, readings, hcuts.split_eq]
    simp only [List.map_append, List.map_cons, List.map_nil, has, hstop, reading_of_lowercase hw']
    rfl
  obtain ⟨s', hs', hsame⟩ := Statement.exists_ofText (hderives _ rfl) hr
  cases s' with
  | create d' => exact ⟨d, d', e.other, hd, hs', hsame⟩
  | insert i => cases hsame
  | select q => cases hsame
  | showCreate t => cases hsame

end Tabular
