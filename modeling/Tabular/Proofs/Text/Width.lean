import Tabular.Proofs.Text.Folding

/-!
# The bytes of lowercase text

Some letters take more or fewer bytes in lower case than they do as they are. How many bytes a text gains or loses
(`growth`) does not depend on what stands around its characters, as both forms of `Σ` take as many bytes as `Σ` itself;
so it is the sum of what they gain one by one (`width_lowerFrom_eq`), and texts that are put together gain what
their parts do. There are 27 letters that change their size (`growthOf_eq_zero_iff`), all of them outside ASCII.
-/

namespace Tabular.Text

open Lexeme (width width_append)

/-! ## What a text gains -/

/-- The bytes that a character gains when it is put into lower case; it loses bytes if the number is negative. -/
def growthOf (c : Char) : Int :=
  width (lowerChar c) - c.utf8Size

/-- The bytes that the characters gain together. -/
def growth : List Char → Int
  | [] => 0
  | c :: cs => growthOf c + growth cs

theorem growth_append (a b : List Char) : growth (a ++ b) = growth a + growth b := by
  induction a with
  | nil => rw [List.nil_append, growth, Int.zero_add]
  | cons c a ih => rw [List.cons_append, growth, growth, ih, Int.add_assoc]

/-- Both lowercase forms of `Σ` take as many bytes. -/
theorem width_lowerAt (before : Bool) (c : Char) (after : List Char) :
    width (lowerAt before c after) = width (lowerChar c) := by
  unfold lowerAt
  split
  · rename_i hc
    have hsigma : width (lowerChar 'Σ') = 2 := by decide +kernel
    rw [hc, hsigma, lowerSigma]
    split <;> rfl
  · rfl

/-- **Lowercase text takes the bytes of the text and those that its characters gain.** -/
theorem width_lowerFrom_eq (before : Bool) (cs : List Char) :
    (width (lowerFrom before cs) : Int) = width cs + growth cs := by
  induction cs generalizing before with
  | nil => rfl
  | cons c cs ih =>
    have hrest := ih (casedAfter before c)
    rw [lowerFrom_cons, width_append, width_lowerAt, width, growth, growthOf]
    omega

theorem width_lowerFrom_append (a b : List Char) :
    width (lowerFrom false (a ++ b)) = width (lowerFrom false a) + width (lowerFrom false b) := by
  have hall := width_lowerFrom_eq false (a ++ b)
  have ha := width_lowerFrom_eq false a
  have hb := width_lowerFrom_eq false b
  rw [width_append, growth_append] at hall
  omega

/-! ## The letters that change their size -/

/-- The numbers of the letters that take more or fewer bytes in lower case. -/
def resizedPoints : List Nat :=
  [0x130, 0x23A, 0x23E, 0x1E9E, 0x2126, 0x212A, 0x212B, 0x2C62, 0x2C64, 0x2C6D, 0x2C6E, 0x2C6F, 0x2C70, 0x2C7E, 0x2C7F,
   0xA78D, 0xA7AA, 0xA7AB, 0xA7AC, 0xA7AD, 0xA7AE, 0xA7B0, 0xA7B1, 0xA7B2, 0xA7C5, 0xA7CB, 0xA7DC]

/-- The first and the last character of one, two, three and four bytes. -/
def sizeBounds : List (Nat × Nat) :=
  [(0, 0x7F), (0x80, 0x7FF), (0x800, 0xFFFF), (0x10000, 0x10FFFF)]

theorem utf8Size_eq_of_sizeBounds {c d : Char} {lo hi : Nat} (h : (lo, hi) ∈ sizeBounds)
    (hc : lo ≤ c.toNat ∧ c.toNat ≤ hi) (hd : lo ≤ d.toNat ∧ d.toNat ≤ hi) : c.utf8Size = d.utf8Size := by
  have hsize : ∀ c : Char, c.utf8Size =
      if c.toNat ≤ 0x7F then 1 else if c.toNat ≤ 0x7FF then 2 else if c.toNat ≤ 0xFFFF then 3 else 4 := by
    intro c
    simp only [Char.utf8Size, UInt32.le_iff_toNat_le]
    rfl
  simp only [sizeBounds, List.mem_cons, List.not_mem_nil, or_false, Prod.mk.injEq] at h
  rw [hsize, hsize]
  rcases h with ⟨rfl, rfl⟩ | ⟨rfl, rfl⟩ | ⟨rfl, rfl⟩ | ⟨rfl, rfl⟩ <;> (repeat' split) <;> omega

/-- A run moves letters to letters of the same size, but for those that change theirs. -/
theorem lowercaseRuns_sizes : ∀ r ∈ lowercaseRuns,
    (r.first ∈ resizedPoints ∧ r.last ∈ resizedPoints ∧ r.last ≤ r.first + 1) ∨
      ∃ bounds ∈ sizeBounds, (bounds.1 ≤ r.first ∧ r.last ≤ bounds.2) ∧ bounds.1 ≤ r.target ∧ r.final ≤ bounds.2 := by
  decide +kernel

theorem utf8Size_caseImage {c : Char} (hc : c.toNat ∉ resizedPoints) :
    (caseImage lowercaseRuns c).utf8Size = c.utf8Size := by
  cases hm : caseImage? lowercaseRuns c.toNat with
  | none => rw [caseImage, hm]
  | some m =>
    obtain ⟨d, rfl, -⟩ := caseImage?_lowercaseRuns hm
    obtain ⟨r, hr, ⟨hf, hl, -⟩, hd⟩ := exists_run_of_caseImage? hm
    rw [caseImage_of_caseImage? hm]
    rcases lowercaseRuns_sizes r hr with ⟨hfirst, hlast, hle⟩ | ⟨⟨lo, hi⟩, hb, hfrom, hto⟩
    · -- the run has two letters at most
      have hends : c.toNat = r.first ∨ c.toNat = r.last := by omega
      exact absurd (hends.elim (· ▸ hfirst) (· ▸ hlast)) hc
    · refine utf8Size_eq_of_sizeBounds hb ?_ (by omega)
      unfold CaseRun.final at hto
      omega

/-- **The letters that change their size** are those of the list. -/
theorem growthOf_eq_zero_iff {c : Char} : growthOf c = 0 ↔ c.toNat ∉ resizedPoints := by
  constructor
  · intro h hc
    have hall : ∀ n ∈ resizedPoints, growthOf (Char.ofNat n) ≠ 0 := by decide +kernel
    exact hall c.toNat hc (by rwa [Char.ofNat_toNat])
  · intro hc
    have hsize : width (lowerChar c) = c.utf8Size := by
      unfold lowerChar
      split
      · exact utf8Size_toLower c
      split
      · rename_i hdot
        subst hdot
        exact absurd (by decide) hc
      · exact utf8Size_caseImage hc
    rw [growthOf, hsize, Int.sub_self]

theorem growth_eq_zero {cs : List Char} (h : ∀ c ∈ cs, c.toNat ∉ resizedPoints) : growth cs = 0 := by
  induction cs with
  | nil => rfl
  | cons c cs ih =>
    obtain ⟨hc, hcs⟩ := List.forall_mem_cons.mp h
    rw [growth, growthOf_eq_zero_iff.mpr hc, ih hcs, Int.add_zero]

end Tabular.Text
