import Tabular.Text.Integer

/-!
# Writing and reading integers

The shortest spelling of a 64-bit integer is read as that integer (`readInteger?_integerText`), down to the least and
up to the greatest one. Whatever is read as an integer is made of digits, with at most one sign before them.
-/

namespace Tabular.Text

/-- A decimal digit or a sign. -/
def IsNumeral (c : Char) : Prop :=
  c.isDigit = true ∨ c = '-' ∨ c = '+'

/-! ## Reading what is written -/

theorem readDigits?_toDigits (n : Nat) : readDigits? (Nat.toDigits 10 n) = some n := by
  have hne : Nat.toDigits 10 n ≠ [] := Nat.toDigits_ne_nil
  have hall : (Nat.toDigits 10 n).all Char.isDigit = true := by
    rw [List.all_eq_true]
    intro c hc
    exact Nat.isDigit_of_mem_toDigits (by decide) (by decide) hc
  rw [readDigits?, if_pos ⟨hne, hall⟩, Nat.ofDigitChars_ten_toDigits]

/-- How a number is read, by its first character: without a sign the digits stand for themselves. -/
theorem readSigned?_cons (c : Char) (cs : List Char) : readSigned? (c :: cs) =
    if c = '-' then (readDigits? cs).map fun n : Nat => -(n : Int)
    else (readDigits? (if c = '+' then cs else c :: cs)).map fun n : Nat => (n : Int) := by
  unfold readSigned?
  split
  · rename_i h
    cases h
    rw [if_pos rfl]
    cases readDigits? cs <;> rfl
  · rename_i h
    cases h
    rw [if_neg (by decide), if_pos rfl]
    cases readDigits? cs <;> rfl
  · rename_i hm hp
    rw [if_neg (fun h => hm cs (by rw [h])), if_neg (fun h => hp cs (by rw [h]))]
    cases readDigits? (c :: cs) <;> rfl

theorem readSigned?_toDigits (n : Nat) : readSigned? (Nat.toDigits 10 n) = some (n : Int) := by
  obtain ⟨c, cs, hcs⟩ := List.exists_cons_of_ne_nil (Nat.toDigits_ne_nil (b := 10) (n := n))
  have hc : c ∈ Nat.toDigits 10 n := hcs ▸ List.mem_cons_self
  have hd : c.isDigit = true := Nat.isDigit_of_mem_toDigits (by decide) (by decide) hc
  have hm : c ≠ '-' := by rintro rfl; cases hd
  have hp : c ≠ '+' := by rintro rfl; cases hd
  have hr := readDigits?_toDigits n
  rw [hcs] at hr ⊢
  rw [readSigned?_cons, if_neg hm, if_neg hp, hr, Option.map_some]

theorem readSigned?_repr (v : Int) : readSigned? v.repr.toList = some v := by
  rw [Int.repr_eq_if]
  split
  · rename_i hv
    rw [Nat.toList_repr, readSigned?_toDigits, Int.toNat_of_nonneg hv]
  · rename_i hv
    have hneg : 0 ≤ -v := by omega
    have hl : ("-" ++ (-v).toNat.repr).toList = '-' :: Nat.toDigits 10 (-v).toNat := by
      rw [String.toList_append, Nat.toList_repr]
      rfl
    rw [hl, readSigned?_cons, if_pos rfl, readDigits?_toDigits, Option.map_some, Int.toNat_of_nonneg hneg, Int.neg_neg]

theorem fitsInt64_toInt (n : Int64) : FitsInt64 n.toInt := by
  have hl := n.le_toInt
  have hu := n.toInt_lt
  unfold FitsInt64
  omega

/-- **An integer that is written is read as it was.** -/
theorem readInteger?_integerText (n : Int64) : readInteger? (integerText n) = some n := by
  rw [readInteger?, integerText, readSigned?_repr]
  simp only [if_pos (fitsInt64_toInt n), Int64.ofInt_toInt]

/-! ## The characters of an integer -/

theorem isDigit_of_readDigits? {cs : List Char} {n : Nat} (h : readDigits? cs = some n) :
    ∀ c ∈ cs, c.isDigit = true := by
  unfold readDigits? at h
  split at h
  · rename_i hcs
    exact List.all_eq_true.mp hcs.2
  · nomatch h

theorem isNumeral_of_readSigned? {cs : List Char} {v : Int} (h : readSigned? cs = some v) :
    cs ≠ [] ∧ ∀ c ∈ cs, IsNumeral c := by
  cases cs with
  | nil => cases h
  | cons c cs =>
    refine ⟨List.cons_ne_nil _ _, ?_⟩
    rw [readSigned?_cons] at h
    by_cases hm : c = '-'
    · rw [if_pos hm] at h
      obtain ⟨n, hn, -⟩ := Option.map_eq_some_iff.mp h
      have hd := isDigit_of_readDigits? hn
      exact List.forall_mem_cons.mpr ⟨.inr (.inl hm), fun d hc => .inl (hd d hc)⟩
    · rw [if_neg hm] at h
      obtain ⟨n, hn, -⟩ := Option.map_eq_some_iff.mp h
      have hd := isDigit_of_readDigits? hn
      by_cases hp : c = '+'
      · rw [if_pos hp] at hd
        exact List.forall_mem_cons.mpr ⟨.inr (.inr hp), fun d hc => .inl (hd d hc)⟩
      · rw [if_neg hp] at hd
        exact fun d hc => .inl (hd d hc)

theorem isNumeral_of_readInteger? {text : String} {n : Int64} (h : readInteger? text = some n) :
    text.toList ≠ [] ∧ ∀ c ∈ text.toList, IsNumeral c := by
  unfold readInteger? at h
  split at h
  · rename_i hv
    exact isNumeral_of_readSigned? hv
  · nomatch h

end Tabular.Text
