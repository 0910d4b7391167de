import Tabular.Text.Lowercase

/-!
# Words of ASCII letters in lower case

Hardly any letter outside ASCII has an ASCII letter for its lowercase form: the Kelvin sign becomes `k`, and `İ` gets a
combining dot behind its `i`. So a text whose lowercase form is ASCII without a `k` is itself ASCII, and the map goes
character by character (`lowerFrom_of_fromAscii`, and for words of letters `map_toLower_of_lowercase`).
-/

namespace Tabular.Text

/-- An ASCII letter. -/
def IsLetter (c : Char) : Prop :=
  65 ≤ c.toNat ∧ c.toNat ≤ 90 ∨ 97 ≤ c.toNat ∧ c.toNat ≤ 122

instance : DecidablePred IsLetter :=
  fun _ => inferInstanceAs (Decidable (_ ∨ _))

/-- A small ASCII letter, but not `k`. -/
def IsPlain (c : Char) : Prop :=
  97 ≤ c.toNat ∧ c.toNat ≤ 122 ∧ c ≠ 'k'

instance : DecidablePred IsPlain :=
  fun _ => inferInstanceAs (Decidable (_ ∧ _))

theorem toNat_toLower (c : Char) :
    c.toLower.toNat = if 65 ≤ c.toNat ∧ c.toNat ≤ 90 then c.toNat + 32 else c.toNat := by
  unfold Char.toLower
  have ha : 'A'.val ≤ c.val ↔ 65 ≤ c.toNat := UInt32.le_iff_toNat_le
  have hz : c.val ≤ 'Z'.val ↔ c.toNat ≤ 90 := UInt32.le_iff_toNat_le
  by_cases h : 65 ≤ c.toNat ∧ c.toNat ≤ 90
  · rw [dif_pos ⟨ha.mpr h.1, hz.mpr h.2⟩, if_pos h]
    have h32 : ('a'.val - 'A'.val).toNat = 32 := rfl
    have hlt : c.val.toNat + 32 < 2 ^ 32 := by
      have : c.val.toNat ≤ 90 := h.2
      omega
    show (c.val + ('a'.val - 'A'.val)).toNat = c.val.toNat + 32
    rw [UInt32.toNat_add, h32, Nat.mod_eq_of_lt hlt]
  · rw [dif_neg (fun h' => h ⟨ha.mp h'.1, hz.mp h'.2⟩), if_neg h]

theorem toLower_eq_self {c : Char} (h : ¬ (65 ≤ c.toNat ∧ c.toNat ≤ 90)) : c.toLower = c :=
  Char.toNat_inj.mp (by rw [toNat_toLower, if_neg h])

/-- A small letter takes as many bytes as its capital. -/
theorem utf8Size_toLower (c : Char) : c.toLower.utf8Size = c.utf8Size := by
  by_cases h : 65 ≤ c.toNat ∧ c.toNat ≤ 90
  · have hlow : c.toLower.toNat = c.toNat + 32 := by rw [toNat_toLower, if_pos h]
    have hone : ∀ d : Char, d.toNat ≤ 127 → d.utf8Size = 1 := fun d hd =>
      Char.utf8Size_eq_one_iff.mpr (UInt32.le_iff_toNat_le.mpr hd)
    rw [hone c (by omega), hone c.toLower (by omega)]
  · rw [toLower_eq_self h]

theorem isLetter_of_toLower {c : Char} (h : IsPlain c.toLower) : IsLetter c := by
  have hn : 97 ≤ c.toLower.toNat ∧ c.toLower.toNat ≤ 122 := ⟨h.1, h.2.1⟩
  rw [toNat_toLower] at hn
  unfold IsLetter
  split at hn <;> omega

/-! ## Letters outside ASCII -/

/-- An ASCII character that is the lowercase form of ASCII characters only. -/
def FromAscii (c : Char) : Prop :=
  c.toNat < 128 ∧ c ≠ 'k'

theorem IsPlain.fromAscii {c : Char} (h : IsPlain c) : FromAscii c :=
  ⟨Nat.lt_of_le_of_lt h.2.1 (by decide), h.2.2⟩

/-- The letter to which a run moves its last one. -/
def CaseRun.final (r : CaseRun) : Nat :=
  r.target + (r.last - r.first)

/-- The runs lead to characters, and out of ASCII but for the Kelvin sign. -/
theorem lowercaseRuns_target : ∀ r ∈ lowercaseRuns,
    (r.first = r.last ∧ r.target = 'k'.toNat) ∨
      128 ≤ r.target ∧ (r.final < 0xD800 ∨ 0xDFFF < r.target ∧ r.final < 0x110000) := by
  decide +kernel

/-- A letter is moved by one of the runs. -/
theorem exists_run_of_caseImage? {runs : List CaseRun} {n m : Nat} (h : caseImage? runs n = some m) :
    ∃ r ∈ runs, (r.first ≤ n ∧ n ≤ r.last ∧ (n - r.first) % r.step = 0) ∧ m = r.target + (n - r.first) := by
  obtain ⟨r, hr, hi⟩ := List.exists_of_findSome?_eq_some h
  simp only [CaseRun.image?, CaseRun.covers, Option.ite_none_right_eq_some, Bool.and_eq_true, decide_eq_true_eq,
    beq_iff_eq, Option.some.injEq] at hi
  obtain ⟨⟨⟨hf, hl⟩, hs⟩, rfl⟩ := hi
  exact ⟨r, hr, ⟨hf, hl, hs⟩, rfl⟩

/-- A letter is moved to `k`, or to a character outside ASCII. -/
theorem caseImage?_lowercaseRuns {n m : Nat} (h : caseImage? lowercaseRuns n = some m) :
    ∃ d : Char, m = d.toNat ∧ (d = 'k' ∨ 128 ≤ d.toNat) := by
  obtain ⟨r, hr, ⟨hf, hl, -⟩, rfl⟩ := exists_run_of_caseImage? h
  obtain ⟨he, ht⟩ | ⟨ht, hv⟩ := lowercaseRuns_target r hr
  · exact ⟨'k', by omega, .inl rfl⟩
  · unfold CaseRun.final at hv
    have hvalid : (r.target + (n - r.first)).isValidChar := by
      unfold Nat.isValidChar
      omega
    exact ⟨Char.ofNatAux _ hvalid, rfl, .inr (Nat.le_add_right_of_le ht)⟩

theorem caseImage_of_caseImage? {runs : List CaseRun} {c d : Char} (h : caseImage? runs c.toNat = some d.toNat) :
    caseImage runs c = d := by
  rw [caseImage, h]
  exact d.ofNat_toNat

/-- The image of a letter outside ASCII is `k` or lies outside ASCII as well. -/
theorem not_fromAscii_caseImage {c : Char} (hc : 128 ≤ c.toNat) : ¬ FromAscii (caseImage lowercaseRuns c) := by
  cases hm : caseImage? lowercaseRuns c.toNat with
  | none =>
    rw [caseImage, hm]
    exact fun h => Nat.not_lt.mpr hc h.1
  | some m =>
    obtain ⟨d, rfl, hd⟩ := caseImage?_lowercaseRuns hm
    rw [caseImage_of_caseImage? hm]
    rintro ⟨hlt, hk⟩
    exact Nat.not_lt.mpr (hd.resolve_left hk) hlt

theorem lowerChar_of_fromAscii {c : Char} (h : ∀ d ∈ lowerChar c, FromAscii d) : lowerChar c = [c.toLower] := by
  unfold lowerChar at h ⊢
  split
  · rfl
  · rename_i hc
    rw [if_neg hc] at h
    split at h
    · exact absurd (h '\u0307' (by simp)).1 (by decide)
    · exact absurd (h _ (List.mem_singleton_self _)) (not_fromAscii_caseImage (Nat.le_of_not_lt hc))

/-! ## Words -/

/-- What is ASCII without a `k` in lower case was put into lower case character by character. -/
theorem lowerFrom_of_fromAscii {before : Bool} {cs : List Char} (h : ∀ d ∈ lowerFrom before cs, FromAscii d) :
    lowerFrom before cs = cs.map Char.toLower := by
  induction cs generalizing before with
  | nil => rfl
  | cons c cs ih =>
    rw [lowerFrom, List.forall_mem_append] at h
    rw [lowerFrom, ih h.2, List.map_cons]
    split
    · rename_i hc
      have hs := h.1
      rw [if_pos hc, List.forall_mem_singleton, lowerSigma] at hs
      split at hs <;> exact absurd hs.1 (by decide)
    · rename_i hc
      have hl := h.1
      rw [if_neg hc] at hl
      rw [lowerChar_of_fromAscii hl, List.singleton_append]

/-- What is small ASCII letters in lower case, none of them a `k`, is the same letters, small or capital. -/
theorem map_toLower_of_lowercase {text word : String} (hw : ∀ d ∈ word.toList, IsPlain d)
    (h : lowercase text = word) : text.toList.map Char.toLower = word.toList ∧ ∀ c ∈ text.toList, IsLetter c := by
  have hl : lowerFrom false text.toList = word.toList := by rw [← h, lowercase, String.toList_ofList]
  have hm : text.toList.map Char.toLower = word.toList := by
    rw [← hl]
    exact (lowerFrom_of_fromAscii fun d hd => (hw d (hl ▸ hd)).fromAscii).symm
  refine ⟨hm, fun c hc => isLetter_of_toLower (hw _ ?_)⟩
  rw [← hm]
  exact List.mem_map_of_mem hc

end Tabular.Text
