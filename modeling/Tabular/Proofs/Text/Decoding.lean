import Tabular.Text.Utf8

/-!
# Decoding piece by piece

A byte below `0x80` is a character of its own and no part of a longer sequence, so a sequence that has not come to its
end before such a byte is a fault there as it is at the end of all bytes (`readSequence_append`). What stands on both
sides of the byte is therefore decoded on its own (`decode_append_cons`), whatever faults it holds.
-/

namespace Tabular.Text

variable {b : UInt8}

/-- A byte below `0x80` goes on with no sequence. -/
theorem not_between_of_lt (hb : b < 0x80) {low high : UInt8} (hl : 0x80 ≤ low) :
    (low ≤ b && b ≤ high) = false := by
  rw [Bool.and_eq_false_iff]
  left
  simp only [UInt8.lt_iff_toNat_lt, UInt8.le_iff_toNat_le, decide_eq_false_iff_not] at hb hl ⊢
  omega

/-- Continuation bytes end where the byte stands. -/
theorem readMore_append (hb : b < 0x80) (bits more : Nat) (front rest : List UInt8) :
    readMore bits more (front ++ b :: rest) = readMore bits more front := by
  induction more generalizing bits front with
  | zero => simp [readMore]
  | succ more ih =>
    cases front with
    | nil => simp [readMore, not_between_of_lt hb (by decide : (0x80 : UInt8) ≤ 0x80)]
    | cons c front => simp [readMore, ih]

/-- The second byte of a sequence is never below `0x80`. -/
theorem le_low_of_lead? {first : UInt8} {lead : Lead} (h : lead? first = some lead) : 0x80 ≤ lead.low := by
  unfold lead? at h
  repeat' split at h
  all_goals first
    | (rw [Option.some.injEq] at h
       subst h
       simp only
       decide)
    | nomatch h

/-- A sequence ends where the byte stands, if it does not end before. -/
theorem readSequence_append (hb : b < 0x80) (first : UInt8) (front rest : List UInt8) :
    readSequence first (front ++ b :: rest) = readSequence first front := by
  unfold readSequence
  by_cases hfirst : first < 0x80
  · rw [if_pos hfirst, if_pos hfirst]
  rw [if_neg hfirst, if_neg hfirst]
  cases hl : lead? first with
  | none => simp
  | some lead =>
    cases front with
    | nil => simp [not_between_of_lt hb (le_low_of_lead? hl)]
    | cons second front => simp [readMore_append hb]

/-! ## Sequences lie within the bytes -/

theorem readMore_le_length (bits more : Nat) (bs : List UInt8) : (readMore bits more bs).2 ≤ bs.length := by
  induction more generalizing bits bs with
  | zero => simp [readMore]
  | succ more ih =>
    cases bs with
    | nil => simp [readMore]
    | cons c bs =>
      rw [readMore]
      split
      · have := ih (addBits bits c) bs
        simp only [List.length_cons]
        omega
      · simp

theorem readSequence_le_length (first : UInt8) (bs : List UInt8) : (readSequence first bs).2 ≤ bs.length := by
  unfold readSequence
  split
  · simp
  split
  · rename_i lead second bs hl
    split
    · have := readMore_le_length (addBits lead.bits second) lead.more bs
      simp only [List.length_cons]
      omega
    · simp
  · simp

/-! ## Bytes on both sides -/

theorem decode_nil : decode [] = [] := by
  rw [decode]

theorem decode_cons (first : UInt8) (bs : List UInt8) : decode (first :: bs) =
    (readSequence first bs).1.map Char.ofNat :: decode (bs.drop (readSequence first bs).2) := by
  rw [decode]

/-- **What stands before and after a byte below `0x80` is decoded on its own.** -/
theorem decode_append_cons (hb : b < 0x80) (front rest : List UInt8) :
    decode (front ++ b :: rest) = decode front ++ some (Char.ofNat b.toNat) :: decode rest := by
  induction hn : front.length using Nat.strongRecOn generalizing front with
  | ind n ih =>
    cases front with
    | nil =>
      have hread : readSequence b rest = (some b.toNat, 0) := if_pos hb
      rw [List.nil_append, decode_cons, hread, decode_nil]
      rfl
    | cons first front =>
      -- the rest of the front part is shorter, and the sequence that is read does not reach beyond it
      have hle := readSequence_le_length first front
      have hshort : (front.drop (readSequence first front).2).length < n := by
        rw [← hn, List.length_drop, List.length_cons]
        omega
      rw [List.cons_append, decode_cons, readSequence_append hb, List.drop_append_of_le_length hle,
        ih _ hshort _ rfl, decode_cons, List.cons_append]

theorem decodeLossy_append_cons (hb : b < 0x80) (front rest : List UInt8) :
    decodeLossy (front ++ b :: rest) = decodeLossy (front ++ [b]) ++ decodeLossy rest := by
  rw [decodeLossy, decodeLossy, decodeLossy, decode_append_cons hb front rest, decode_append_cons hb front [],
    decode_nil, ← String.ofList_append, ← List.map_append]
  simp

end Tabular.Text
