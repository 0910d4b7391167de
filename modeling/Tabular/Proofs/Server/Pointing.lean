import Tabular.Proofs.Server.Folding
import Tabular.Proofs.Schema.Rows
import Tabular.Proofs.Token.Coverage

/-!
# Where the error for a line points

A line is put into lower case before it is read, so the place that a syntax error names is one in the line in lower
case. It is the place of the token at fault in the line as it was sent, moved by the bytes that the characters before
the token gain in lower case (`Statement.Shifted`, `Session.shifted_of_runLine`). The place is right exactly if these
characters gain and lose equally many bytes, as they do where none of the 27 letters stands that change their size
(`Text.resizedPoints`), none of which is in ASCII.
-/

namespace Tabular

namespace Text

theorem utf8ByteSize_lowercase (text : String) :
    ((lowercase text).utf8ByteSize : Int) = text.utf8ByteSize + growth text.toList := by
  rw [← Lexeme.width_toList, ← Lexeme.width_toList, lowercase, String.toList_ofList, width_lowerFrom_eq]

end Text

namespace Statement

open Text (lowercase growth)

variable {ts : List Token} {k : Nat} {e : SyntaxError}

/-- What the error for a line in lower case says of the line as it is. Its tokens are `ts`, the first `k` of them are
its longest viable beginning, and the text `before` is what stands in front of the next one. -/
structure Shifted (line : String) (ts : List Token) (k : Nat) (before : String) (e : SyntaxError) : Prop where
  /-- It names the next token in lower case, or the end. -/
  found : e.found? = ts[k]?.map fun t => lowercase t.value
  token : ∀ t, ts[k]? = some t → t.position = before.utf8ByteSize ∧ ∃ after, line = before ++ after
  ending : k = ts.length → before = line
  /-- The place that it names lies as many bytes further as the characters of `before` gain in lower case. -/
  position : (e.position : Int) = before.utf8ByteSize + growth before.toList
  /-- So it is the place in the line exactly if they gain none. -/
  locates : Locates line ts k e ↔ growth before.toList = 0

/-! ## Where the place lies -/

theorem Locates.position_eq {line : String} {t : Token} (h : Locates line ts k e) (ht : ts[k]? = some t) :
    e.position = t.position := by
  obtain ⟨_, word, _, -, -, -, hword⟩ := h.token t ht
  exact (Token.position_of_ofFragment hword).symm

/-- The place where an error lies is the end of the line or the start of one of its tokens. -/
theorem Locates.position_mem {line : String} (h : Locates line ts k e) (hk : k ≤ ts.length) :
    e.position ∈ line.utf8ByteSize :: ts.map Token.position := by
  rcases hk.eq_or_lt with hend | hlt
  · rw [h.ending hend]
    exact List.mem_cons_self
  · rw [h.position_eq (List.getElem?_eq_getElem hlt)]
    exact List.mem_cons_of_mem _ (List.mem_map_of_mem (List.getElem_mem hlt))

/-- The error for the tokens of a line says where in the line it lies if the place is the right one. -/
theorem locates_iff {line before : String} (hts : Token.ofText line = .ok ts) (hk : k ≤ ts.length)
    (htoken : ∀ t, ts[k]? = some t → t.position = before.utf8ByteSize) (hending : k = ts.length → before = line) :
    Locates line ts k e ↔ e.position = before.utf8ByteSize := by
  cases ht : ts[k]? with
  | some t =>
    have hpos := htoken t ht
    constructor
    · intro h
      exact (h.position_eq ht).trans hpos
    · intro h
      rw [← hpos] at h
      refine ⟨fun hend => ?_, fun u hu => ?_⟩
      · simp [hend] at ht
      · rw [h]
        cases ht.symm.trans hu
        exact exists_text_before hts ht
  | none =>
    have hend : k = ts.length := Nat.le_antisymm hk (List.getElem?_eq_none_iff.mp ht)
    rw [hending hend]
    refine ⟨fun h => h.ending hend, fun h => ⟨fun _ => h, fun t hu => ?_⟩⟩
    rw [ht] at hu
    nomatch hu

/-- The text in front of a token, or of the end of the line, ends in lower case where the token in lower case starts. -/
theorem exists_before_lowercase {line : String} {us : List Token} (hts : Token.ofText line = .ok ts)
    (hus : Token.ofText (lowercase line) = .ok us) (k : Nat) : ∃ before,
      (∀ t, ts[k]? = some t → t.position = before.utf8ByteSize ∧ ∃ after, line = before ++ after) ∧
      (k = ts.length → before = line) ∧
      (us[k]?.map Token.position).getD (lowercase line).utf8ByteSize = (lowercase before).utf8ByteSize := by
  have hplaces := Token.positions_lowercase line hts hus
  cases ht : ts[k]? with
  | some t =>
    obtain ⟨u, hu, before, after, hline, hbefore, hbefore'⟩ := exists_getElem?_of_forall₂ hplaces ht
    refine ⟨before, fun t' ht' => ?_, fun hend => ?_, ?_⟩
    · cases ht'
      exact ⟨hbefore, after, hline⟩
    · simp [hend] at ht
    · rw [hu]
      exact hbefore'
  | none =>
    have hnone : us[k]? = none := by
      rw [List.getElem?_eq_none_iff, ← hplaces.length_eq]
      exact List.getElem?_eq_none_iff.mp ht
    exact ⟨line, nofun, fun _ => rfl, by rw [hnone]; rfl⟩

/-- **The error for a line in lower case** names the token of the line at fault, but its place in lower case. -/
theorem shifted_of_error {line : String} (h : ofText (lowercase line) = .error e) :
    ∃ ts k before, Token.ofText line = .ok ts ∧ LongestViable ts k ∧ Shifted line ts k before e := by
  obtain ⟨ts, us, hts, hus, hfold, hfolds⟩ := folds_ofText line
  rw [h] at hfolds
  generalize ofText line = outcome at hfolds
  cases hfolds with
  | @failure k _ _ hviable hviable' _ hreports _ =>
    obtain ⟨hfound, hposition⟩ := hreports.names hviable'.le
    obtain ⟨before, htoken, hending, hplace⟩ := exists_before_lowercase hts hus k
    have hshift : (e.position : Int) = before.utf8ByteSize + growth before.toList := by
      rw [hposition, hplace, Text.utf8ByteSize_lowercase]
    have hsame : e.found? = ts[k]?.map fun t => lowercase t.value := by
      have hvalues := Token.kinds_and_values_of_lowered hfold (Token.faithful_of_ofText hts)
      have hk := congrArg (fun l : List (TokenKind × String) => l[k]?.map Prod.snd) hvalues
      simp only [List.getElem?_map, Option.map_map] at hk
      exact hfound.trans hk
    refine ⟨ts, k, before, hts, hviable, hsame, htoken, hending, hshift, ?_⟩
    rw [locates_iff hts hviable.le (fun t ht => (htoken t ht).1) hending]
    omega

end Statement

/-! ## Lines -/

namespace Session

open Text (lowercase)

variable {s : Session} {line : String} {e : SyntaxError}

/-- Only a text that is no statement comes to a syntax error. -/
theorem error_of_run (h : (s.run line).1 = .error (.syntaxError e)) : Statement.ofText line = .error e := by
  unfold run at h
  cases htext : Statement.ofText line with
  | ok statement =>
    rw [htext] at h
    exact absurd h (s.perform_ne_syntaxError statement e)
  | error e' =>
    rw [htext] at h
    cases h
    rfl

/-- **Where the error for a line points.** A line without blanks around it that is no statement in lower case gets the
message of the error, which names the place in lower case of the first token of the line that cannot be right. This is
its place in the line unless a letter before it changes its size. -/
theorem shifted_of_runLine (s : Session) (hline : Text.trim line = line) (hne : line ≠ "")
    (he : (s.run (lowercase line)).1 = .error (.syntaxError e)) :
    s.runLine line = (some (reply (.error (.syntaxError e))), s) ∧
      ∃ ts k before, Token.ofText line = .ok ts ∧ Statement.LongestViable ts k ∧
        Statement.Shifted line ts k before e ∧
        ((∀ c ∈ before.toList, c.toNat ∉ Text.resizedPoints) → Statement.Locates line ts k e) := by
  have htext : Statement.ofText (lowercase line) = .error e := error_of_run he
  constructor
  · have hempty : line.isEmpty = false := by simpa [String.isEmpty_iff] using hne
    simp only [runLine, hline, hempty, run, htext, Bool.false_eq_true, if_false]
  · obtain ⟨ts, k, before, hts, hk, hshifted⟩ := Statement.shifted_of_error htext
    exact ⟨ts, k, before, hts, hk, hshifted, fun hsizes => hshifted.locates.mpr (Text.growth_eq_zero hsizes)⟩

/-- The reply to a line with a letter that is longer in lower case names the place behind the space before the token. -/
theorem shifted_of_runLine_longer :
    let line := "select (İ) frm t;"
    let e : SyntaxError := .unexpectedToken (.word "from") "frm" 13
    Text.trim line = line ∧ line ≠ "" ∧ (new.run (lowercase line)).1 = .error (.syntaxError e) ∧
      new.runLine line = (some (reply (.error (.syntaxError e))), new) ∧
      ∃ ts k before, Token.ofText line = .ok ts ∧ Statement.LongestViable ts k ∧
        Statement.Shifted line ts k before e ∧
        ((∀ c ∈ before.toList, c.toNat ∉ Text.resizedPoints) → Statement.Locates line ts k e) := by
  intro line e
  have hline : Text.trim line = line := by decide +kernel
  have hne : line ≠ "" := by decide +kernel
  have he : (new.run (lowercase line)).1 = .error (.syntaxError e) := by decide +kernel
  exact ⟨hline, hne, he, shifted_of_runLine new hline hne he⟩

/-- **The place that a reply names need not be one in the line.** The word 12 bytes into the first line is said to stand
13 bytes into it, and the second line, which has 16 bytes, is said to end after 14. No token starts at these places and
no line ends there. -/
theorem runLine_misplaces :
    let longer := "select (İ) frm t;"
    let shorter := "show create (\u212a"
    let word : SyntaxError := .unexpectedToken (.word "from") "frm" 13
    let ending : SyntaxError := .unexpectedEnd (.word ")") 14
    (Text.trim longer = longer ∧ (new.run (lowercase longer)).1 = .error (.syntaxError word) ∧
      new.runLine longer = (some "syntax error at 13: expected \"from\", found \"frm\"\n", new) ∧
      Statement.ofText longer = .error (.unexpectedToken (.word "from") "frm" 12) ∧
      ∀ ts k, Token.ofText longer = .ok ts → k ≤ ts.length → ¬ Statement.Locates longer ts k word) ∧
    Text.trim shorter = shorter ∧ (new.run (lowercase shorter)).1 = .error (.syntaxError ending) ∧
      new.runLine shorter = (some "syntax error at 14: expected \")\", found end of input\n", new) ∧
      Statement.ofText shorter = .error (.unexpectedEnd (.word ")") 16) ∧
      ∀ ts k, Token.ofText shorter = .ok ts → k ≤ ts.length → ¬ Statement.Locates shorter ts k ending := by
  intro longer shorter word ending
  have hlonger : Token.ofText longer = .ok [⟨"select", .keyword, 0⟩, ⟨"(", .symbol, 7⟩, ⟨"İ", .identifier, 8⟩,
      ⟨")", .symbol, 10⟩, ⟨"frm", .identifier, 12⟩, ⟨"t", .identifier, 16⟩, ⟨";", .symbol, 17⟩] := by decide +kernel
  have hshorter : Token.ofText shorter = .ok [⟨"show", .keyword, 0⟩, ⟨"create", .keyword, 5⟩, ⟨"(", .symbol, 12⟩,
      ⟨"\u212a", .identifier, 13⟩] := by decide +kernel
  refine ⟨⟨by decide +kernel, by decide +kernel, by decide +kernel, by decide +kernel, fun ts k hts hk h => ?_⟩,
    by decide +kernel, by decide +kernel, by decide +kernel, by decide +kernel, fun ts k hts hk h => ?_⟩
  · cases hlonger.symm.trans hts
    exact absurd (h.position_mem hk) (by decide +kernel)
  · cases hshorter.symm.trans hts
    exact absurd (h.position_mem hk) (by decide +kernel)

end Session
end Tabular
