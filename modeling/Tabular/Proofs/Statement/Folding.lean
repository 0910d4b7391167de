import Tabular.Proofs.Statement.Fault
import Tabular.Proofs.Statement.RoundTrip
import Tabular.Proofs.Token.Folding

/-!
# Statements of lowercase text

A text in lower case is a statement exactly if the text is one. The statement is then the same with its identifiers in
lower case; and if the text is none, both are found out behind the same number of tokens and with the same expectation
(`Statement.Folds`, `Statement.folds_ofText`). The grammar does not look at the letters of identifiers, so the reader
stops in a state that expects the same (`Progress.StopsAt.map_iff`).
-/

namespace Tabular

open Token

/-! ## Changed tokens -/

theorem Token.keeps_lowered : Keeps lowered where
  kind t := by
    unfold lowered
    split <;> rfl
  spells t word := by
    unfold lowered
    split
    · rename_i hk
      rw [spells, spells, hk]
      rfl
    · rfl

theorem Token.unplaced_lowered (t : Token) : t.lowered.unplaced = t.unplaced.lowered := by
  unfold lowered unplaced
  split <;> rfl

namespace Progress

variable {f : Token → Token} {p : Progress}

/-- Whether the reader stops, and where, does not depend on what the grammar does not see. -/
theorem StopsAt.map_iff (hf : Token.Keeps f) {ts : List Token} {k : Nat} :
    StopsAt (ts.map f) k p ↔ ∃ q, StopsAt ts k q ∧ q.mapTokens f = p := by
  constructor
  · rintro ⟨hle, hread, href, hun⟩
    rw [← List.map_take] at hread
    obtain ⟨q, hq, rfl⟩ := (foldlM_mapTokens_iff (p := start) hf).mp hread
    rw [List.length_map] at hle hun
    refine ⟨q, ⟨hle, hq, fun t ht => ?_, fun hk s hs => ?_⟩, rfl⟩
    · rw [← admits_mapTokens hf]
      exact href (f t) (by rw [List.getElem?_map, ht]; rfl)
    · subst hs
      exact hun hk _ rfl
  · rintro ⟨q, ⟨hle, hread, href, hun⟩, rfl⟩
    refine ⟨by rwa [List.length_map], ?_, fun u hu => ?_, fun hk s hs => ?_⟩
    · rw [← List.map_take]
      exact (foldlM_mapTokens_iff (p := start) hf).mpr ⟨q, hread, rfl⟩
    · rw [List.getElem?_map, Option.map_eq_some_iff] at hu
      obtain ⟨t, ht, rfl⟩ := hu
      rw [admits_mapTokens hf]
      exact href t ht
    · rw [List.length_map] at hk
      obtain ⟨s', rfl, -⟩ := mapTokens_eq_complete_iff.mp hs
      exact hun hk s' rfl

/-- What an error expects does not depend on the tokens. -/
theorem expected?_fault_mapTokens (p : Progress) (stop stop' : Nat) (next? : Option Token) :
    ((p.mapTokens f).fault stop' (next?.map f)).expected? = (p.fault stop next?).expected? := by
  cases next? <;> cases p <;> rfl

end Progress

/-! ## Texts -/

namespace Statement

/-- What tokens `ts` of a text of `stop` bytes come to, and what tokens `us` of a text of `stop'` bytes come to: the same
statement but for its identifiers, which are in lower case, or two failures behind as many tokens that expect the
same. -/
inductive Folds (ts us : List Token) (stop stop' : Nat) :
    Except SyntaxError Statement → Except SyntaxError Statement → Prop
  | statement {s s' : Statement} : s'.Same (s.mapTokens lowered) → Folds ts us stop stop' (.ok s) (.ok s')
  | failure {k : Nat} {e e' : SyntaxError} : LongestViable ts k → LongestViable us k → Reports ts stop k e →
      Reports us stop' k e' → e'.expected? = e.expected? → Folds ts us stop stop' (.error e) (.error e')

variable {ts us : List Token}

/-- Tokens that are the same but for the case of their identifiers come to the same. -/
theorem folds_ofTokens (h : us.map unplaced = (ts.map unplaced).map lowered) (stop stop' : Nat) :
    Folds ts us stop stop' (ofTokens ts stop) (ofTokens us stop') := by
  have hsame : us.map unplaced = (ts.map lowered).map unplaced := by
    rw [h, List.map_map, List.map_map]
    exact List.map_congr_left fun t _ => (unplaced_lowered t).symm
  cases hts : ofTokens ts stop with
  | ok s =>
    have hd : Derives ts s := derives_iff.mpr (ofTokens_eq_ok_iff_completes.mp hts)
    have hlow : Derives (ts.map lowered) (s.mapTokens lowered) := (derives_map_iff keeps_lowered).mpr ⟨s, hd, rfl⟩
    have hus : Derives (us.map unplaced) ((s.mapTokens lowered).mapTokens unplaced) :=
      hsame ▸ (derives_map_iff keeps_unplaced).mpr ⟨_, hlow, rfl⟩
    obtain ⟨s', hs', hunplaced⟩ := (derives_map_iff keeps_unplaced).mp hus
    rw [ofTokens_eq_ok_iff_completes.mpr (derives_iff.mp hs')]
    exact .statement hunplaced
  | error e =>
    obtain ⟨k, p, hp, rfl⟩ := ofTokens_eq_error_iff.mp hts
    have hlow : Progress.StopsAt (ts.map lowered) k (p.mapTokens lowered) :=
      (Progress.StopsAt.map_iff keeps_lowered).mpr ⟨p, hp, rfl⟩
    have hus : Progress.StopsAt (us.map unplaced) k ((p.mapTokens lowered).mapTokens unplaced) :=
      hsame ▸ (Progress.StopsAt.map_iff keeps_unplaced).mpr ⟨_, hlow, rfl⟩
    obtain ⟨q, hq, hunplaced⟩ := (Progress.StopsAt.map_iff keeps_unplaced).mp hus
    have hnext : us[k]?.map unplaced = (ts[k]?.map lowered).map unplaced := by
      simpa only [List.getElem?_map] using congrArg (·[k]?) hsame
    have hexpected : (q.fault stop' us[k]?).expected? = (p.fault stop ts[k]?).expected? := by
      rw [← q.expected?_fault_mapTokens (f := unplaced) stop' stop, hunplaced, hnext,
        Progress.expected?_fault_mapTokens _ stop, Progress.expected?_fault_mapTokens]
    rw [ofTokens_eq_error_iff.mpr ⟨k, q, hq, rfl⟩]
    exact .failure (longestViable_of_stopsAt hp) (longestViable_of_stopsAt hq) (reports_of_stopsAt hp)
      (reports_of_stopsAt hq) hexpected

/-- **Statements of lowercase text.** A text and the text in lower case come to the same. -/
theorem folds_ofText (text : String) : ∃ ts us, Token.ofText text = .ok ts ∧ Token.ofText (Text.lowercase text) = .ok us ∧
    us.map unplaced = (ts.map unplaced).map lowered ∧
    Folds ts us text.utf8ByteSize (Text.lowercase text).utf8ByteSize (ofText text) (ofText (Text.lowercase text)) := by
  obtain ⟨ts, hts, hread⟩ := Token.exists_ofText text
  obtain ⟨us, hus, hread'⟩ := Token.exists_ofText (Text.lowercase text)
  have hfold : us.map unplaced = (ts.map unplaced).map lowered := by rw [hread', hread, readings_lowercase]
  refine ⟨ts, us, hts, hus, hfold, ?_⟩
  rw [ofText, ofText, hts, hus]
  exact folds_ofTokens hfold _ _

end Statement
end Tabular
