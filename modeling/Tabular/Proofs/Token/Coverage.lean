import Tabular.Proofs.Statement.Fault
import Tabular.Proofs.Token.Identifier
import Tabular.Session.Run

/-!
# What the tokens of a text account for

A text is read into tokens without loss: behind every token stands the stretch of the text that it says, what lies
between two of them is blank, and two tokens without a blank between them are told apart by a separator
(`Token.Accounts`). All of this is proved of lexemes first, by induction on how the text is cut; a token stands where
its lexeme stands, and takes as many bytes, since the only values that are not kept as they were written are reserved
words in lower case (`Token.isSpelled_reading`).

So no text has a fragment that is no token, and no request fails for one (`Token.accounts_ofText`).
-/

namespace Tabular

/-! ## Lexemes -/

namespace Lexeme

/-- The byte offset behind a lexeme. -/
def stop (l : Lexeme) : Nat :=
  l.start + width l.text

/-- The byte of the given number belongs to the lexeme. -/
def Covers (l : Lexeme) (k : Nat) : Prop :=
  l.start ≤ k ∧ k < l.stop

/-- Induction on how a text is cut, for what does not depend on whether a lexeme is a separator or a word. -/
theorem Cuts.lexeme_induction {motive : (n : Nat) → (cs : List Char) → (ls : List Lexeme) → Cuts n cs ls → Prop}
    (nil : ∀ n, motive n [] [] .nil)
    (blank : ∀ n c cs ls (hc : Text.isBlank c = true) (h : Cuts (n + c.utf8Size) cs ls), motive _ _ _ h →
      motive n (c :: cs) ls (.blank hc h))
    (lexeme : ∀ n w cs ls (_ : IsSeparator w ∨ IsWord w) (h : Cuts (n + width w) cs ls)
      (hall : Cuts n (w ++ cs) (⟨w, n⟩ :: ls)), motive _ _ _ h → motive _ _ _ hall)
    {n : Nat} {cs : List Char} {ls : List Lexeme} (h : Cuts n cs ls) : motive n cs ls h := by
  induction h with
  | nil => exact nil _
  | blank hc h ih => exact blank _ _ _ _ hc h ih
  | separator hw h ih => exact lexeme _ _ _ _ (.inl hw) h (.separator hw h) ih
  | word hw he h ih => exact lexeme _ _ _ _ (.inr hw) h (.word hw he h) ih

theorem width_pos {w : List Char} (h : w ≠ []) : 0 < width w := by
  obtain ⟨c, w, rfl⟩ := List.exists_cons_of_ne_nil h
  exact Nat.add_pos_left c.utf8Size_pos _

/-- No lexeme has a blank in it. -/
theorem isBlank_of_mem {w : List Char} (h : IsSeparator w ∨ IsWord w) : ∀ c ∈ w, Text.isBlank c = false := by
  rcases h with hw | hw
  · cases hw with
    | mark hm => exact List.forall_mem_singleton.mpr (isBlank_of_isMark hm)
    | equal => exact List.forall_mem_cons.mpr ⟨rfl, List.forall_mem_singleton.mpr rfl⟩
  · exact (isWord_iff.mp hw).2.1

/-- A lexeme with a separator in it is that separator. -/
theorem eq_of_isInfix {w sep : List Char} (h : IsSeparator w ∨ IsWord w) (hsep : IsSeparator sep)
    (hi : sep <:+: w) : w = sep := by
  rcases h with hw | hw
  · cases hw with
    | mark hm =>
      refine (hi.eq_of_length_le ?_).symm
      exact List.length_pos_iff.mpr hsep.ne_nil
    | equal =>
      cases hsep with
      | mark hm =>
        -- the sign `==` has no mark in it
        have hmem : _ ∈ ['=', '='] := hi.subset (List.mem_singleton_self _)
        simp only [List.mem_cons, List.not_mem_nil, or_false, or_self] at hmem
        subst hmem
        nomatch hm
      | equal => rfl
  · exact absurd hi ((isWord_iff.mp hw).2.2 sep hsep)

section Places

variable {n : Nat} {cs : List Char} {ls : List Lexeme}

/-- No lexeme starts before its text. -/
theorem Cuts.le_start (h : Cuts n cs ls) : ∀ l ∈ ls, n ≤ l.start := by
  induction h using Cuts.lexeme_induction with
  | nil n => exact List.forall_mem_nil _
  | blank n c cs ls _ _ ih => exact fun l hl => Nat.le_of_add_right_le (ih l hl)
  | lexeme n w cs ls _ _ _ ih =>
    exact List.forall_mem_cons.mpr ⟨Nat.le_refl n, fun l hl => Nat.le_of_add_right_le (ih l hl)⟩

/-- Lexemes stand one behind the other. -/
theorem Cuts.pairwise (h : Cuts n cs ls) : ls.Pairwise fun l m => l.start < m.start ∧ l.stop ≤ m.start := by
  induction h using Cuts.lexeme_induction with
  | nil n => exact .nil
  | blank n c cs ls _ _ ih => exact ih
  | lexeme n w cs ls hw h _ ih =>
    refine .cons (fun m hm => ?_) ih
    have hle : n + width w ≤ m.start := h.le_start m hm
    have hpos : 0 < width w := width_pos (ne_nil_of_isSeparator_or_isWord hw)
    exact ⟨by show n < m.start; omega, hle⟩

/-- A character of two texts that are joined stands in the first one or in the second one. -/
theorem append_eq_append_cons {a b pre post : List Char} {c : Char} (h : a ++ b = pre ++ c :: post) :
    (∃ tail, a = pre ++ c :: tail) ∨ ∃ mid, pre = a ++ mid ∧ b = mid ++ c :: post := by
  rcases List.append_eq_append_iff.mp h with ⟨mid, hpre, hb⟩ | ⟨mid, ha, hpost⟩
  · exact .inr ⟨mid, hpre, hb⟩
  · cases mid with
    | nil => exact .inr ⟨[], by simpa using ha.symm, hpost.symm⟩
    | cons d mid =>
      obtain ⟨rfl, -⟩ := List.cons.inj hpost
      exact .inl ⟨mid, ha⟩

/-- **Blanks are what no lexeme covers.** The bytes of a character belong to a lexeme unless the character is a
blank. -/
theorem Cuts.isBlank_iff {pre post : List Char} {c : Char} {k : Nat} (h : Cuts n (pre ++ c :: post) ls)
    (hk : n + width pre ≤ k) (hk' : k < n + width pre + c.utf8Size) :
    Text.isBlank c = true ↔ ∀ l ∈ ls, ¬ l.Covers k := by
  generalize hcs : pre ++ c :: post = cs at h
  induction h using Cuts.lexeme_induction generalizing pre with
  | nil n => simp at hcs
  | blank n d cs ls hd h ih =>
    cases pre with
    | nil =>
      obtain ⟨rfl, rfl⟩ := List.cons.inj hcs
      refine iff_of_true hd fun l hl hcov => ?_
      have hle : n + c.utf8Size ≤ l.start := h.le_start l hl
      have hstart : l.start ≤ k := hcov.1
      simp only [width] at hk'
      omega
    | cons e pre =>
      obtain ⟨rfl, htail⟩ := List.cons.inj hcs
      rw [width, ← Nat.add_assoc] at hk hk'
      exact ih hk hk' htail
  | lexeme n w cs ls hw h _ ih =>
    rw [List.forall_mem_cons]
    rcases append_eq_append_cons hcs.symm with ⟨tail, rfl⟩ | ⟨mid, rfl, rfl⟩
    · -- the character stands in the lexeme, which has no blank in it
      have hc : Text.isBlank c = false := isBlank_of_mem hw c (by simp)
      have hstop : n + width pre + c.utf8Size ≤ n + width (pre ++ c :: tail) := by
        rw [width_append, width]
        omega
      refine iff_of_false (by simp [hc]) fun hno => hno.1 ⟨?_, ?_⟩
      · exact Nat.le_of_add_right_le hk
      · exact Nat.lt_of_lt_of_le hk' hstop
    · -- the character stands behind the lexeme
      rw [width_append, ← Nat.add_assoc] at hk hk'
      have hbehind : ¬ Covers ⟨w, n⟩ k := fun hcov => Nat.not_lt.mpr (Nat.le_of_add_right_le hk) hcov.2
      rw [ih hk hk' rfl]
      exact ⟨fun hno => ⟨hbehind, hno⟩, And.right⟩

/-- Where no word goes on, a lexeme that starts at once is a separator. -/
theorem Cuts.isSeparator_of_start (h : Cuts n cs ls) (hs : Lexeme.word cs = []) {m : Lexeme} (hm : m ∈ ls)
    (hstart : m.start = n) : IsSeparator m.text := by
  cases h with
  | nil => exact absurd hm List.not_mem_nil
  | @blank _ c cs _ _ h =>
    have hle : n + c.utf8Size ≤ m.start := h.le_start m hm
    have hpos : 0 < c.utf8Size := c.utf8Size_pos
    omega
  | @separator _ w cs ls hw h =>
    rcases List.mem_cons.mp hm with rfl | hm
    · exact hw
    · have hle : n + width w ≤ m.start := h.le_start m hm
      have hpos : 0 < width w := width_pos hw.ne_nil
      omega
  | @word _ w cs ls hw he _ =>
    rw [word_append_eq_iff.mpr ⟨hw.2, he⟩] at hs
    exact absurd hs hw.1

/-- **Touching lexemes.** Of two lexemes with nothing between them one is a separator. -/
theorem Cuts.pairwise_isSeparator (h : Cuts n cs ls) :
    ls.Pairwise fun l m => l.stop = m.start → IsSeparator l.text ∨ IsSeparator m.text := by
  induction h with
  | nil => exact .nil
  | blank _ _ ih => exact ih
  | separator hw _ ih => exact .cons (fun m _ _ => .inl hw) ih
  | word _ he h ih => exact .cons (fun m hm hstop => .inr (h.isSeparator_of_start he.stop hm hstop.symm)) ih

end Places
end Lexeme

/-! ## How tokens spell what is written -/

theorem Lexeme.width_map_toLower (cs : List Char) : width (cs.map Char.toLower) = width cs := by
  induction cs with
  | nil => rfl
  | cons c cs ih => rw [List.map_cons, width, width, Text.utf8Size_toLower, ih]

namespace Token

open Lexeme

/-- The value of the token spells what is written: a reserved word in lower case, and anything else as it is. -/
def IsSpelled (t : Token) (fragment : String) : Prop :=
  if t.kind.isFolded then t.value.toList = fragment.toList.map Char.toLower else t.value = fragment

theorem isSpelled_reading (w : List Char) : (reading w).IsSpelled (String.ofList w) := by
  have hv : (reading w).value = if (reading w).kind.isFolded then Text.lowercase (String.ofList w)
      else String.ofList w := recognize_value _
  unfold IsSpelled
  split
  · rename_i hk
    rw [if_pos hk] at hv
    have hplain := isPlain_of_mem_reserved hk _ (lowercase_mem_reserved hk)
    rw [hv, ← (Text.map_toLower_of_lowercase hplain rfl).1]
  · rename_i hk
    rwa [if_neg hk] at hv

/-- A reading takes as many bytes as its lexeme. -/
theorem utf8ByteSize_reading (w : List Char) : (reading w).value.utf8ByteSize = width w := by
  have h := isSpelled_reading w
  unfold IsSpelled at h
  split at h
  · rw [← width_toList, h, String.toList_ofList, width_map_toLower]
  · rw [h, width_eq_utf8ByteSize]

/-- A separator is kept as it is written. -/
theorem value_reading_of_isSeparator {w : List Char} (h : IsSeparator w) : (reading w).value.toList = w := by
  obtain ⟨-, hr⟩ := recognize_of_reserves .symbol _ (mem_reserved_of_isSeparator h)
  rw [reading, hr, String.toList_ofList]

/-! ## Tokens in their text -/

/-- The byte offset behind a token. -/
def stop (t : Token) : Nat :=
  t.position + t.value.utf8ByteSize

/-- The byte of the given number belongs to the token. -/
def Covers (t : Token) (k : Nat) : Prop :=
  t.position ≤ k ∧ k < t.stop

/-- The token stands in the text, behind `before` and where the fragment is. -/
structure Occurs (t : Token) (text before fragment after : String) : Prop where
  text : text = before ++ fragment ++ after
  position : t.position = before.utf8ByteSize
  size : t.value.utf8ByteSize = fragment.utf8ByteSize
  spelled : t.IsSpelled fragment
  /-- No blank belongs to it. -/
  blanks : ∀ c ∈ fragment.toList, Text.isBlank c = false
  /-- No separator belongs to it, unless it is one. -/
  separators : ∀ sep, IsSeparator sep → sep <:+: fragment.toList → fragment.toList = sep

/-- The tokens account for the whole text. -/
structure Accounts (text : String) (ts : List Token) : Prop where
  /-- Every token stands in the text. -/
  occurs : ∀ t ∈ ts, ∃ before fragment after, t.Occurs text before fragment after
  /-- They stand one behind the other. -/
  order : ts.Pairwise fun t u => t.position < u.position ∧ t.stop ≤ u.position
  /-- The bytes that belong to none are those of the blanks. -/
  blanks : ∀ before c after, text = before ++ String.singleton c ++ after → ∀ k, before.utf8ByteSize ≤ k →
    k < before.utf8ByteSize + c.utf8Size → (Text.isBlank c = true ↔ ∀ t ∈ ts, ¬ t.Covers k)
  /-- Of two with nothing between them one is a separator. -/
  apart : ts.Pairwise fun t u => t.stop = u.position → IsSeparator t.value.toList ∨ IsSeparator u.value.toList

theorem stop_located (l : Lexeme) : (located l).stop = l.stop := by
  show l.start + (reading l.text).value.utf8ByteSize = l.start + width l.text
  rw [utf8ByteSize_reading]

theorem covers_located {l : Lexeme} {k : Nat} : (located l).Covers k ↔ l.Covers k := by
  rw [Covers, stop_located]
  rfl

theorem occurs_located {text : String} {ls : List Lexeme} (h : Cuts 0 text.toList ls) {l : Lexeme} (hl : l ∈ ls) :
    ∃ before fragment after, (located l).Occurs text before fragment after := by
  have hw : IsSeparator l.text ∨ IsWord l.text := h.isSeparator_or_isWord l hl
  obtain ⟨as, bs, rfl⟩ := List.append_of_mem hl
  obtain ⟨pre, rest, htext, hstart, -⟩ := h.exists_before
  refine ⟨String.ofList pre, String.ofList l.text, String.ofList rest, ?_, ?_, ?_, ?_, ?_, ?_⟩
  · rw [← String.ofList_append, ← String.ofList_append, List.append_assoc, ← htext, String.ofList_toList]
  · rw [← width_eq_utf8ByteSize]
    exact hstart.trans (Nat.zero_add _)
  · rw [← width_eq_utf8ByteSize]
    exact utf8ByteSize_reading l.text
  · exact isSpelled_reading l.text
  · rw [String.toList_ofList]
    exact isBlank_of_mem hw
  · rw [String.toList_ofList]
    exact fun sep hsep hi => eq_of_isInfix hw hsep hi

/-- The tokens of lexemes account for the text that is cut into these. -/
theorem accounts_located {text : String} {ls : List Lexeme} (h : Cuts 0 text.toList ls) :
    Accounts text (ls.map located) where
  occurs := List.forall_mem_map.mpr fun l hl => occurs_located h hl
  order := by
    rw [List.pairwise_map]
    refine h.pairwise.imp fun {l m} hlm => ?_
    rw [stop_located]
    exact hlm
  blanks before c after htext k hk hk' := by
    have hchars : text.toList = before.toList ++ c :: after.toList := by
      rw [htext, String.toList_append, String.toList_append, String.toList_singleton, List.append_assoc]
      rfl
    rw [← width_toList, ← Nat.zero_add (width before.toList)] at hk hk'
    rw [hchars] at h
    rw [h.isBlank_iff hk hk', List.forall_mem_map]
    simp only [covers_located]
  apart := by
    rw [List.pairwise_map]
    refine h.pairwise_isSeparator.imp fun {l m} hlm hstop => ?_
    rw [stop_located] at hstop
    refine (hlm hstop).imp (fun hs => ?_) fun hs => ?_
    · exact (value_reading_of_isSeparator hs).symm ▸ hs
    · exact (value_reading_of_isSeparator hs).symm ▸ hs

end Token

/-! ## No text has a fragment that is no token -/

theorem Statement.ofTokens_ne_noToken (ts : List Token) (stop : Nat) (fragment : String) (position : Nat) :
    ofTokens ts stop ≠ .error (.noToken fragment position) := by
  intro h
  obtain ⟨k, p, -, he⟩ := ofTokens_eq_error_iff.mp h
  cases hk : ts[k]? with
  | some t =>
    rw [hk] at he
    cases p <;> nomatch he
  | none =>
    rw [hk] at he
    nomatch he

theorem Statement.ofText_ne_noToken (text fragment : String) (position : Nat) :
    ofText text ≠ .error (.noToken fragment position) := by
  obtain ⟨ts, hts, -⟩ := Token.exists_ofText text
  rw [ofText, hts]
  exact ofTokens_ne_noToken ts text.utf8ByteSize fragment position

/-- Carrying out a statement is no matter of syntax. -/
theorem Session.perform_ne_syntaxError (s : Session) (statement : Statement) (e : SyntaxError) :
    (s.perform statement).1 ≠ .error (.syntaxError e) := by
  cases statement with
  | create d =>
    simp only [perform, create, fail]
    (repeat' split) <;> nofun
  | insert i =>
    simp only [perform, insert, fail]
    (repeat' split) <;> nofun
  | select q =>
    simp only [perform, select, fail]
    (repeat' split) <;> nofun
  | showCreate name =>
    simp only [perform, showCreate, fail]
    (repeat' split) <;> nofun

/-- **Texts are read without loss.** Every text has tokens that account for it, and neither a statement nor a session
ever fails for a fragment that is no token. -/
theorem Token.accounts_ofText (text : String) :
    (∃ ts, Token.ofText text = .ok ts ∧ Accounts text ts) ∧
      (∀ fragment position, Statement.ofText text ≠ .error (.noToken fragment position)) ∧
      ∀ (s : Session) fragment position, (s.run text).1 ≠ .error (.syntaxError (.noToken fragment position)) := by
  refine ⟨⟨_, Token.ofText_eq text, accounts_located (Lexeme.cuts_split 0 text.toList)⟩,
    Statement.ofText_ne_noToken text, fun s fragment position h => ?_⟩
  unfold Session.run at h
  split at h
  · exact s.perform_ne_syntaxError _ _ h
  · rename_i e he
    cases h
    exact Statement.ofText_ne_noToken text fragment position he

end Tabular
