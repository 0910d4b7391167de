import Tabular.Proofs.Text.Lowercase
import Tabular.Proofs.Token.Cutting

/-!
# Lowercase text, character by character

What stands in lower case for one character of a text (`lowerAt`) is either the character itself or made of small
letters (`lowerAt_cases`), and a small letter stays as it is (`IsSmall`). So lowercase text does not change when it is
put into lower case again (`lowercase_lowercase`).

Blanks, marks and the sign `=` stay as they are, and no other character becomes one of them. As none of them is cased
or case-ignorable, the form of a `Σ` does not depend on what lies behind one of them, and a text is put into lower case
piece by piece (`lowerFrom_append`, `lowerFrom_seams`). Texts of digits and signs have no case at all
(`lowercase_iff_of_isSign`).
-/

namespace Tabular.Text

open Lexeme (isBreak isMark)

/-! ## Seams -/

/-- A blank, a mark or the sign `=`. -/
def IsSeam (c : Char) : Prop :=
  isBreak c = true ∨ c = '='

instance : DecidablePred IsSeam :=
  fun _ => inferInstanceAs (Decidable (_ ∨ _))

theorem IsSeam.of_isBlank {c : Char} (h : isBlank c = true) : IsSeam c :=
  .inl (Lexeme.isBreak_of_isBlank h)

/-- The numbers of the blanks, of the marks and of the sign `=`. -/
def seamPoints : List Nat :=
  List.range' 0x09 5 ++ [0x20, 0x28, 0x29, 0x2A, 0x2C, 0x3B, 0x3C, 0x3D, 0x3E, 0x85, 0xA0, 0x1680] ++
    List.range' 0x2000 11 ++ [0x2028, 0x2029, 0x202F, 0x205F, 0x3000]

theorem IsSeam.toNat_mem {c : Char} (h : IsSeam c) : c.toNat ∈ seamPoints := by
  simp only [IsSeam, isBreak, Bool.or_eq_true] at h
  rcases h with (hb | hm) | rfl
  · simp only [isBlank, Bool.or_eq_true, Bool.and_eq_true, decide_eq_true_eq, beq_iff_eq] at hb
    simp only [seamPoints, List.mem_append, List.mem_range'_1, List.mem_cons, List.not_mem_nil, or_false]
    omega
  · simp only [isMark, Bool.or_eq_true, beq_iff_eq] at hm
    rcases hm with (((((rfl | rfl) | rfl) | rfl) | rfl) | rfl) | rfl <;> decide
  · decide

/-- A seam has no case and is not looked through, and it is its own lowercase form. -/
theorem IsSeam.lower {c : Char} (h : IsSeam c) :
    lowerChar c = [c] ∧ isCased c = false ∧ isCaseIgnorable c = false ∧ c ≠ 'Σ' := by
  have hall : ∀ n ∈ seamPoints, lowerChar (Char.ofNat n) = [Char.ofNat n] ∧ isCased (Char.ofNat n) = false ∧
      isCaseIgnorable (Char.ofNat n) = false ∧ Char.ofNat n ≠ 'Σ' := by decide +kernel
  have hc := hall c.toNat h.toNat_mem
  rwa [Char.ofNat_toNat] at hc

/-! ## Small letters -/

/-- A character that stands in lower case and that is no seam. -/
structure IsSmall (c : Char) : Prop where
  lower : lowerChar c = [c]
  sigma : c ≠ 'Σ'
  seam : ¬ IsSeam c

/-- None of the letters to which the run leads is moved by the other run. -/
def CaseRun.avoids (r q : CaseRun) : Bool :=
  Nat.blt r.final q.first || Nat.blt q.last r.target ||
    ((Nat.beq (r.step % q.step) 0 || Nat.beq r.first r.last) && !Nat.beq (r.target % q.step) (q.first % q.step))

theorem lowercaseRuns_avoids : ∀ r ∈ lowercaseRuns, ∀ q ∈ lowercaseRuns, r.avoids q = true := by
  have h : lowercaseRuns.all (fun r => lowercaseRuns.all r.avoids) = true := by decide +kernel
  simpa only [List.all_eq_true] using h

/-- The runs lead neither to a blank nor to `İ`. -/
theorem lowercaseRuns_final : ∀ r ∈ lowercaseRuns, (r.first = r.last ∧ r.target = 0x6B) ∨
    0xA0 < r.target ∧ (r.final < 0x130 ∨ 0x130 < r.target) ∧ (r.final < 0x1680 ∨ 0x1680 < r.target) ∧
      (r.final < 0x2000 ∨ 0x205F < r.target) ∧ (r.final < 0x3000 ∨ 0x3000 < r.target) := by
  decide +kernel

/-- A letter is moved to `k`, or to a character outside ASCII that is neither a blank nor `İ`. -/
theorem caseImage?_bounds {n m : Nat} (h : caseImage? lowercaseRuns n = some m) : m = 0x6B ∨
    0xA0 < m ∧ m ≠ 0x130 ∧ m ≠ 0x1680 ∧ (m < 0x2000 ∨ 0x205F < m) ∧ m ≠ 0x3000 := by
  obtain ⟨r, hr, ⟨hf, hl, -⟩, rfl⟩ := exists_run_of_caseImage? h
  have hfinal := lowercaseRuns_final r hr
  unfold CaseRun.final at hfinal
  omega

theorem CaseRun.covers_of_avoids {r q : CaseRun} (h : r.avoids q = true) {d : Nat} (hd : d ≤ r.last - r.first)
    (hs : d % r.step = 0) : q.covers (r.target + d) = false := by
  refine Bool.eq_false_iff.mpr fun hc => ?_
  simp only [covers, Bool.and_eq_true, decide_eq_true_eq, beq_iff_eq] at hc
  obtain ⟨⟨hf, hl⟩, hstep⟩ := hc
  simp only [avoids, final, Bool.or_eq_true, Bool.and_eq_true, Nat.blt_eq, Nat.beq_eq, Bool.not_eq_true'] at h
  rcases h with (h | h) | ⟨hr, hne⟩
  · omega
  · omega
  · -- the letters to which `r` leads lie between the letters of `q`
    have hdvd : q.step ∣ d := by
      rcases hr with hr | hr
      · exact Nat.dvd_trans (Nat.dvd_of_mod_eq_zero hr) (Nat.dvd_of_mod_eq_zero hs)
      · rw [show d = 0 by omega]
        exact Nat.dvd_zero _
    obtain ⟨i, rfl⟩ := hdvd
    obtain ⟨j, hj⟩ := Nat.dvd_of_mod_eq_zero hstep
    have heq : r.target + q.step * i = q.first + q.step * j := by omega
    have hmod := congrArg (· % q.step) heq
    simp only [Nat.add_mul_mod_self_left] at hmod
    exact Nat.ne_of_beq_eq_false hne hmod

/-- A letter to which a run leads is not moved any more. -/
theorem caseImage?_of_caseImage? {n m : Nat} (h : caseImage? lowercaseRuns n = some m) :
    caseImage? lowercaseRuns m = none := by
  obtain ⟨r, hr, ⟨hf, hl, hs⟩, rfl⟩ := exists_run_of_caseImage? h
  refine List.findSome?_eq_none_iff.mpr fun q hq => ?_
  have hc : q.covers (r.target + (n - r.first)) = false :=
    CaseRun.covers_of_avoids (lowercaseRuns_avoids r hr q hq) (by omega) hs
  rw [CaseRun.image?, hc]
  rfl

theorem isSmall_of_caseImage? {n m : Nat} (h : caseImage? lowercaseRuns n = some m) : IsSmall (Char.ofNat m) := by
  obtain ⟨d, rfl, hd⟩ := caseImage?_lowercaseRuns h
  rw [Char.ofNat_toNat]
  rcases hd with rfl | hge
  · exact ⟨by decide, by decide, by decide⟩
  · have hnone : caseImage? lowercaseRuns d.toNat = none := caseImage?_of_caseImage? h
    have hbounds := caseImage?_bounds h
    refine ⟨?_, ?_, fun hseam => ?_⟩
    · have hdot : d ≠ 'İ' := by
        rintro rfl
        exact absurd hbounds (by decide)
      rw [lowerChar, if_neg (Nat.not_lt.mpr hge), if_neg hdot, caseImage, hnone]
    · -- `Σ` itself is moved by a run
      rintro rfl
      exact absurd hnone (by decide)
    · have hwhere : ∀ k ∈ seamPoints, k < 128 ∨ k = 0x85 ∨ k = 0xA0 ∨ k = 0x1680 ∨ 0x2000 ≤ k ∧ k ≤ 0x205F ∨
          k = 0x3000 := by decide
      have hpoint := hwhere d.toNat hseam.toNat_mem
      omega

/-! ## One character -/

/-- What stands in lower case for the character `c` between what stands before and after it. -/
def lowerAt (before : Bool) (c : Char) (after : List Char) : List Char :=
  if c = 'Σ' then [lowerSigma before after] else lowerChar c

theorem lowerFrom_cons (before : Bool) (c : Char) (cs : List Char) :
    lowerFrom before (c :: cs) = lowerAt before c cs ++ lowerFrom (casedAfter before c) cs :=
  rfl

/-- The small letter of an ASCII letter. -/
theorem isSmall_toLower {c : Char} (h : 65 ≤ c.toNat ∧ c.toNat ≤ 90) : IsSmall c.toLower := by
  have hn : c.toLower.toNat = c.toNat + 32 := by rw [toNat_toLower, if_pos h]
  refine ⟨?_, ?_, ?_⟩
  · rw [lowerChar, if_pos (by omega), toLower_eq_self (by omega)]
  · intro he
    rw [he] at hn
    have : 0x3A3 = c.toNat + 32 := hn
    omega
  · intro hs
    have hwhere : ∀ k ∈ seamPoints, k < 97 ∨ 122 < k := by decide
    have := hwhere _ hs.toNat_mem
    omega

theorem lowerChar_cases (c : Char) : lowerChar c = [c] ∨ lowerChar c ≠ [] ∧ ∀ d ∈ lowerChar c, IsSmall d := by
  unfold lowerChar
  split
  · by_cases h : 65 ≤ c.toNat ∧ c.toNat ≤ 90
    · exact .inr ⟨List.cons_ne_nil _ _, List.forall_mem_singleton.mpr (isSmall_toLower h)⟩
    · exact .inl (by rw [toLower_eq_self h])
  · split
    · have hi : IsSmall 'i' := ⟨by decide, by decide, by decide⟩
      have hdot : IsSmall '\u0307' := ⟨by decide, by decide, by decide⟩
      exact .inr ⟨List.cons_ne_nil _ _, List.forall_mem_cons.mpr ⟨hi, List.forall_mem_singleton.mpr hdot⟩⟩
    · cases hn : caseImage? lowercaseRuns c.toNat with
      | none => exact .inl (by rw [caseImage, hn])
      | some n =>
        rw [caseImage, hn]
        exact .inr ⟨List.cons_ne_nil _ _, List.forall_mem_singleton.mpr (isSmall_of_caseImage? hn)⟩

/-- **Lowercase characters.** A character stays as it is, or it becomes small letters. -/
theorem lowerAt_cases (before : Bool) (c : Char) (after : List Char) :
    lowerAt before c after = [c] ∧ lowerChar c = [c] ∧ c ≠ 'Σ' ∨
      lowerAt before c after ≠ [] ∧ ∀ d ∈ lowerAt before c after, IsSmall d := by
  unfold lowerAt
  by_cases hc : c = 'Σ'
  · rw [if_pos hc, lowerSigma]
    refine .inr ⟨List.cons_ne_nil _ _, List.forall_mem_singleton.mpr ?_⟩
    split
    · exact ⟨by decide, by decide, by decide⟩
    · exact ⟨by decide, by decide, by decide⟩
  · rw [if_neg hc]
    exact (lowerChar_cases c).imp_left fun h => ⟨h, h, hc⟩

section Character

variable {before : Bool} {c d : Char} {after : List Char}

theorem lowerAt_ne_nil : lowerAt before c after ≠ [] := by
  rcases lowerAt_cases before c after with ⟨h, -⟩ | ⟨h, -⟩
  · rw [h]
    exact List.cons_ne_nil _ _
  · exact h

/-- What stands in lower case stays as it is. -/
theorem lower_of_mem_lowerAt (h : d ∈ lowerAt before c after) : lowerChar d = [d] ∧ d ≠ 'Σ' := by
  rcases lowerAt_cases before c after with ⟨hsame, hl⟩ | ⟨-, hsmall⟩
  · rw [hsame, List.mem_singleton] at h
    exact h ▸ hl
  · exact ⟨(hsmall d h).lower, (hsmall d h).sigma⟩

theorem IsSeam.lowerAt_eq (h : IsSeam c) : lowerAt before c after = [c] := by
  obtain ⟨hl, -, -, hs⟩ := h.lower
  rw [lowerAt, if_neg hs, hl]

/-- Only a seam becomes a seam. -/
theorem eq_of_mem_lowerAt (h : d ∈ lowerAt before c after) (hd : IsSeam d) : c = d := by
  rcases lowerAt_cases before c after with ⟨hsame, -⟩ | ⟨-, hsmall⟩
  · rw [hsame, List.mem_singleton] at h
    exact h.symm
  · exact absurd hd (hsmall d h).seam

end Character

/-! ## Texts -/

section Texts

variable {before : Bool} {c : Char} {cs rest : List Char}

/-- Every character of lowercase text stands there for a character. -/
theorem exists_of_mem_lowerFrom {d : Char} (h : d ∈ lowerFrom before cs) :
    ∃ before' c after, d ∈ lowerAt before' c after := by
  induction cs generalizing before with
  | nil => exact absurd h List.not_mem_nil
  | cons c cs ih =>
    rw [lowerFrom_cons, List.mem_append] at h
    rcases h with h | h
    · exact ⟨before, c, cs, h⟩
    · exact ih h

/-- A text all characters of which stand in lower case is a lowercase text. -/
theorem lowerFrom_eq_self (h : ∀ c ∈ cs, lowerChar c = [c] ∧ c ≠ 'Σ') : lowerFrom before cs = cs := by
  induction cs generalizing before with
  | nil => rfl
  | cons c cs ih =>
    obtain ⟨⟨hl, hs⟩, hcs⟩ := List.forall_mem_cons.mp h
    rw [lowerFrom_cons, lowerAt, if_neg hs, hl, ih hcs, List.singleton_append]

theorem lowerFrom_lowerFrom (before before' : Bool) (cs : List Char) :
    lowerFrom before (lowerFrom before' cs) = lowerFrom before' cs := by
  refine lowerFrom_eq_self fun d hd => ?_
  obtain ⟨_, _, _, hc⟩ := exists_of_mem_lowerFrom hd
  exact lower_of_mem_lowerAt hc

/-- **Lowercase text stays as it is.** -/
theorem lowercase_lowercase (text : String) : lowercase (lowercase text) = lowercase text := by
  rw [lowercase, lowercase, String.toList_ofList, lowerFrom_lowerFrom]

/-! ## Seams in a text -/

theorem IsSeam.casedAhead (h : IsSeam c) (cs : List Char) : Text.casedAhead (c :: cs) = false := by
  obtain ⟨-, hc, hi, -⟩ := h.lower
  rw [Text.casedAhead, hi, hc]
  rfl

/-- What stands before a seam does not matter to what stands behind it. -/
theorem IsSeam.lowerFrom_cons (h : IsSeam c) (before : Bool) (cs : List Char) :
    lowerFrom before (c :: cs) = c :: lowerFrom false cs := by
  obtain ⟨-, hc, hi, -⟩ := h.lower
  have hafter : casedAfter before c = false := by
    rw [casedAfter, hi, hc]
    rfl
  rw [Text.lowerFrom_cons, h.lowerAt_eq, hafter, List.singleton_append]

/-- Seams stay as they are, and what follows them is put into lower case by itself. -/
theorem lowerFrom_seams {w : List Char} (hw : ∀ c ∈ w, IsSeam c) (hb : w = [] → before = false) (cs : List Char) :
    lowerFrom before (w ++ cs) = w ++ lowerFrom false cs := by
  induction w generalizing before with
  | nil => rw [hb rfl, List.nil_append, List.nil_append]
  | cons c w ih =>
    obtain ⟨hc, hw⟩ := List.forall_mem_cons.mp hw
    rw [List.cons_append, hc.lowerFrom_cons, ih hw fun _ => rfl, List.cons_append]

theorem casedAhead_append (h : casedAhead rest = false) (cs : List Char) :
    casedAhead (cs ++ rest) = casedAhead cs := by
  induction cs with
  | nil => rw [List.nil_append, h, casedAhead]
  | cons c cs ih => rw [List.cons_append, casedAhead, casedAhead, ih]

/-- A text in front of one that starts with no cased character is put into lower case by itself. -/
theorem lowerFrom_append (h : casedAhead rest = false) (before : Bool) (cs : List Char) :
    lowerFrom before (cs ++ rest) = lowerFrom before cs ++ lowerFrom (cs.foldl casedAfter before) rest := by
  induction cs generalizing before with
  | nil => rfl
  | cons c cs ih =>
    have hat : lowerAt before c (cs ++ rest) = lowerAt before c cs := by
      rw [lowerAt, lowerSigma, casedAhead_append h]
      rfl
    rw [List.cons_append, lowerFrom_cons, lowerFrom_cons, hat, ih, List.append_assoc]
    rfl

/-- The first character of lowercase text stands for the first one of the text. -/
theorem exists_head?_lowerFrom (before : Bool) (c : Char) (cs : List Char) :
    ∃ d ∈ lowerAt before c cs, (lowerFrom before (c :: cs)).head? = some d := by
  have hne : lowerAt before c cs ≠ [] := lowerAt_ne_nil
  obtain ⟨d, ds, hd⟩ := List.exists_cons_of_ne_nil hne
  refine ⟨d, hd ▸ List.mem_cons_self, ?_⟩
  rw [lowerFrom_cons, hd]
  rfl

/-- The last character of lowercase text stands for the last one of the text. -/
theorem exists_getLast?_lowerFrom (before : Bool) (cs : List Char) (c : Char) :
    ∃ before', ∃ d ∈ lowerAt before' c [], (lowerFrom before (cs ++ [c])).getLast? = some d := by
  induction cs generalizing before with
  | nil =>
    have hne : lowerAt before c [] ≠ [] := lowerAt_ne_nil
    refine ⟨before, _, List.getLast_mem hne, ?_⟩
    rw [List.nil_append, lowerFrom_cons, lowerFrom, List.append_nil, List.getLast?_eq_some_getLast hne]
  | cons e cs ih =>
    obtain ⟨before', d, hd, hlast⟩ := ih (casedAfter before e)
    refine ⟨before', d, hd, ?_⟩
    rw [List.cons_append, lowerFrom_cons, List.getLast?_append, hlast]
    rfl

end Texts

/-! ## Signs -/

/-- An ASCII character that is not a letter. -/
def IsSign (c : Char) : Prop :=
  c.toNat < 128 ∧ ¬ IsLetter c

instance : DecidablePred IsSign :=
  fun _ => inferInstanceAs (Decidable (_ ∧ _))

theorem IsSign.toLower {c : Char} (h : IsSign c) : c.toLower = c :=
  toLower_eq_self fun hu => h.2 (.inl hu)

theorem isSign_of_toLower {c : Char} (h : IsSign c.toLower) : IsSign c := by
  by_cases hu : 65 ≤ c.toNat ∧ c.toNat ≤ 90
  · have hn : c.toLower.toNat = c.toNat + 32 := by rw [toNat_toLower, if_pos hu]
    exact absurd (.inr (by omega)) h.2
  · rwa [toLower_eq_self hu] at h

/-- Signs stay as they are. -/
theorem lowercase_of_isSign {text : String} (h : ∀ c ∈ text.toList, IsSign c) : lowercase text = text := by
  have hself : lowerFrom false text.toList = text.toList := by
    refine lowerFrom_eq_self fun c hc => ?_
    have hs : IsSign c := h c hc
    refine ⟨?_, ?_⟩
    · rw [lowerChar, if_pos hs.1, hs.toLower]
    · rintro rfl
      exact absurd hs.1 (by decide)
  rw [lowercase, hself, String.ofList_toList]

/-- No other text becomes signs. -/
theorem isSign_of_lowercase {text : String} (h : ∀ c ∈ (lowercase text).toList, IsSign c) :
    ∀ c ∈ text.toList, IsSign c := by
  rw [lowercase, String.toList_ofList] at h
  have hmap : lowerFrom false text.toList = text.toList.map Char.toLower := by
    refine lowerFrom_of_fromAscii fun d hd => ⟨(h d hd).1, ?_⟩
    rintro rfl
    exact absurd (h _ hd) (by decide)
  rw [hmap] at h
  exact fun c hc => isSign_of_toLower (h _ (List.mem_map_of_mem hc))

/-- What holds of texts of signs only does not depend on case. -/
theorem lowercase_iff_of_isSign {P : String → Prop} (hP : ∀ text, P text → ∀ c ∈ text.toList, IsSign c)
    (text : String) : P (lowercase text) ↔ P text := by
  constructor
  · intro h
    rwa [lowercase_of_isSign (isSign_of_lowercase (hP _ h))] at h
  · intro h
    rwa [lowercase_of_isSign (hP _ h)]

end Tabular.Text
