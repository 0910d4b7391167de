import Mathlib.Algebra.Group.Nat.Defs
import Tabular.Proofs.Text.Lowercase
import Tabular.Text.Utf8

/-!
# Encoding and decoding

The bytes of a text are decoded to the text (`decodeLossy_encode`), as the sequence of each character is read to its end
and to the character that it encodes (`readSequence_encode`). Only a newline has the byte of a newline in its sequence
(`eq_newline_of_mem_encode`), and only the byte of a newline is decoded to one (`newline_of_decode`).
-/

namespace Tabular.Text

/-- The bytes of a text. -/
def encode (text : String) : List UInt8 :=
  text.toUTF8.data.toList

theorem encode_eq (text : String) : encode text = text.toList.flatMap String.utf8EncodeChar := by
  have h : text.toUTF8 = text.toList.utf8Encode := by
    rw [← String.toByteArray_ofList, String.ofList_toList]
    rfl
  rw [encode, h, List.utf8Encode, List.data_toByteArray]

theorem encode_append (s u : String) : encode (s ++ u) = encode s ++ encode u := by
  simp [encode_eq]

theorem length_encode (text : String) : (encode text).length = text.utf8ByteSize := by
  rw [encode, Array.length_toList]
  rfl

/-! ## One sequence -/

/-- What a first byte announces, by its number. -/
theorem lead?_eq (b : UInt8) : lead? b =
    if b.toNat < 194 then none
    else if b.toNat < 224 then some ⟨b.toNat - 192, 0x80, 0xBF, 0⟩
    else if b.toNat = 224 then some ⟨0, 0xA0, 0xBF, 1⟩
    else if b.toNat = 237 then some ⟨13, 0x80, 0x9F, 1⟩
    else if b.toNat < 240 then some ⟨b.toNat - 224, 0x80, 0xBF, 1⟩
    else if b.toNat = 240 then some ⟨0, 0x90, 0xBF, 2⟩
    else if b.toNat < 244 then some ⟨b.toNat - 240, 0x80, 0xBF, 2⟩
    else if b.toNat = 244 then some ⟨4, 0x80, 0x8F, 2⟩
    else none := by
  simp only [lead?, UInt8.lt_iff_toNat_lt, beq_iff_eq, ← UInt8.toNat_inj]
  rfl

/-- Whether a byte lies between two others, by its number. -/
theorem between_iff {n : Nat} (h : n < 256) (low high : UInt8) :
    (low ≤ UInt8.ofNat n && UInt8.ofNat n ≤ high) = true ↔ low.toNat ≤ n ∧ n ≤ high.toNat := by
  rw [Bool.and_eq_true, decide_eq_true_iff, decide_eq_true_iff, UInt8.le_iff_toNat_le, UInt8.le_iff_toNat_le,
    UInt8.toNat_ofNat_of_lt' h]

theorem addBits_ofNat {n : Nat} (h : n < 64) (bits : Nat) : addBits bits (UInt8.ofNat (n + 128)) = bits * 64 + n := by
  have hb : (UInt8.ofNat (n + 128)).toNat = n + 128 :=
    UInt8.toNat_ofNat_of_lt' (Nat.lt_trans (Nat.add_lt_add_right h 128) (by decide))
  unfold addBits
  rw [hb]
  simp only [Nat.add_sub_cancel]

/-- A byte that goes on with a sequence adds its six bits. -/
theorem readMore_cons {n : Nat} (h : n < 64) (bits more : Nat) (bs : List UInt8) :
    readMore bits (more + 1) (UInt8.ofNat (n + 128) :: bs) =
      ((readMore (bits * 64 + n) more bs).1, (readMore (bits * 64 + n) more bs).2 + 1) := by
  have hbetween : (0x80 ≤ UInt8.ofNat (n + 128) && UInt8.ofNat (n + 128) ≤ 0xBF) = true :=
    (between_iff (by omega) 0x80 0xBF).mpr ⟨Nat.le_add_left 128 n, Nat.add_le_add_right (Nat.le_of_lt_succ h) 128⟩
  rw [readMore, if_pos hbetween, addBits_ofNat h]

/-- A first byte and a second one in the range that it announces. -/
theorem readSequence_lead {b low high : UInt8} {bits more n : Nat} (hl : lead? b = some ⟨bits, low, high, more⟩)
    (hb : 128 ≤ b.toNat) (hn : n < 64) (hlow : low.toNat ≤ n + 128) (hhigh : n + 128 ≤ high.toNat) (bs : List UInt8) :
    readSequence b (UInt8.ofNat (n + 128) :: bs) =
      ((readMore (bits * 64 + n) more bs).1, (readMore (bits * 64 + n) more bs).2 + 1) := by
  have hsmall : ¬ b < 0x80 := by
    rw [UInt8.lt_iff_toNat_lt]
    exact Nat.not_lt.mpr hb
  unfold readSequence
  rw [if_neg hsmall, hl]
  simp only [(between_iff (by omega) low high).mpr ⟨hlow, hhigh⟩, if_true, addBits_ofNat hn]

section Sequences

variable {v : Nat} (rest : List UInt8)

theorem readSequence_one (h : v ≤ 127) : readSequence (UInt8.ofNat v) rest = (some v, 0) := by
  have hb : (UInt8.ofNat v).toNat = v := UInt8.toNat_ofNat_of_lt' (Nat.lt_of_le_of_lt h (by decide))
  have hsmall : UInt8.ofNat v < 0x80 := by
    rw [UInt8.lt_iff_toNat_lt, hb]
    exact Nat.lt_succ_of_le h
  unfold readSequence
  rw [if_pos hsmall, hb]

theorem readSequence_two (hl : 127 < v) (hu : v ≤ 2047) :
    readSequence (UInt8.ofNat (v / 64 % 32 + 192)) (UInt8.ofNat (v % 64 + 128) :: rest) = (some v, 1) := by
  have h80 : (0x80 : UInt8).toNat = 128 := rfl
  have hBF : (0xBF : UInt8).toNat = 191 := rfl
  have hb : (UInt8.ofNat (v / 64 % 32 + 192)).toNat = v / 64 + 192 := by
    rw [UInt8.toNat_ofNat']
    omega
  have hlead : lead? (UInt8.ofNat (v / 64 % 32 + 192)) = some ⟨v / 64, 0x80, 0xBF, 0⟩ := by
    rw [lead?_eq, hb, if_neg (by omega), if_pos (by omega), Nat.add_sub_cancel]
  rw [readSequence_lead hlead (by omega) (by omega) (by omega) (by omega)]
  refine Prod.ext (congrArg some ?_) rfl
  show v / 64 * 64 + v % 64 = v
  omega

/-- The first byte of three leaves out overlong forms and surrogates. -/
theorem lead?_three (hl : 2047 < v) (hu : v ≤ 65535) (hs : v < 0xD800 ∨ 0xDFFF < v) :
    ∃ low high, lead? (UInt8.ofNat (v / 4096 % 16 + 224)) = some ⟨v / 4096, low, high, 1⟩ ∧
      low.toNat ≤ v / 64 % 64 + 128 ∧ v / 64 % 64 + 128 ≤ high.toNat := by
  have h80 : (0x80 : UInt8).toNat = 128 := rfl
  have hA0 : (0xA0 : UInt8).toNat = 160 := rfl
  have h9F : (0x9F : UInt8).toNat = 159 := rfl
  have hBF : (0xBF : UInt8).toNat = 191 := rfl
  have hb : (UInt8.ofNat (v / 4096 % 16 + 224)).toNat = v / 4096 + 224 := by
    rw [UInt8.toNat_ofNat']
    omega
  rw [lead?_eq, hb, if_neg (by omega), if_neg (by omega)]
  by_cases he : v / 4096 = 0
  · rw [if_pos (by omega), he]
    exact ⟨_, _, rfl, by omega, by omega⟩
  rw [if_neg (by omega)]
  by_cases hd : v / 4096 = 13
  · rw [if_pos (by omega), hd]
    exact ⟨_, _, rfl, by omega, by omega⟩
  · rw [if_neg (by omega), if_pos (by omega), Nat.add_sub_cancel]
    exact ⟨_, _, rfl, by omega, by omega⟩

theorem readSequence_three (hl : 2047 < v) (hu : v ≤ 65535) (hs : v < 0xD800 ∨ 0xDFFF < v) :
    readSequence (UInt8.ofNat (v / 4096 % 16 + 224))
      (UInt8.ofNat (v / 64 % 64 + 128) :: UInt8.ofNat (v % 64 + 128) :: rest) = (some v, 2) := by
  obtain ⟨low, high, hlead, hlow, hhigh⟩ := lead?_three hl hu hs
  have hb : 128 ≤ (UInt8.ofNat (v / 4096 % 16 + 224)).toNat := by
    rw [UInt8.toNat_ofNat']
    omega
  rw [readSequence_lead hlead hb (by omega) hlow hhigh, readMore_cons (by omega)]
  refine Prod.ext (congrArg some ?_) rfl
  show (v / 4096 * 64 + v / 64 % 64) * 64 + v % 64 = v
  omega

/-- The first byte of four leaves out overlong forms and what lies above the last code point. -/
theorem lead?_four (hl : 65535 < v) (hu : v < 0x110000) :
    ∃ low high, lead? (UInt8.ofNat (v / 262144 % 8 + 240)) = some ⟨v / 262144, low, high, 2⟩ ∧
      low.toNat ≤ v / 4096 % 64 + 128 ∧ v / 4096 % 64 + 128 ≤ high.toNat := by
  have h80 : (0x80 : UInt8).toNat = 128 := rfl
  have h8F : (0x8F : UInt8).toNat = 143 := rfl
  have h90 : (0x90 : UInt8).toNat = 144 := rfl
  have hBF : (0xBF : UInt8).toNat = 191 := rfl
  have hb : (UInt8.ofNat (v / 262144 % 8 + 240)).toNat = v / 262144 + 240 := by
    rw [UInt8.toNat_ofNat']
    omega
  rw [lead?_eq, hb, if_neg (by omega), if_neg (by omega), if_neg (by omega), if_neg (by omega), if_neg (by omega)]
  by_cases he : v / 262144 = 0
  · rw [if_pos (by omega), he]
    exact ⟨_, _, rfl, by omega, by omega⟩
  rw [if_neg (by omega)]
  by_cases hd : v / 262144 = 4
  · rw [if_neg (by omega), if_pos (by omega), hd]
    exact ⟨_, _, rfl, by omega, by omega⟩
  · rw [if_pos (by omega), Nat.add_sub_cancel]
    exact ⟨_, _, rfl, by omega, by omega⟩

theorem readSequence_four (hl : 65535 < v) (hu : v < 0x110000) :
    readSequence (UInt8.ofNat (v / 262144 % 8 + 240)) (UInt8.ofNat (v / 4096 % 64 + 128) ::
      UInt8.ofNat (v / 64 % 64 + 128) :: UInt8.ofNat (v % 64 + 128) :: rest) = (some v, 3) := by
  obtain ⟨low, high, hlead, hlow, hhigh⟩ := lead?_four hl hu
  have hb : 128 ≤ (UInt8.ofNat (v / 262144 % 8 + 240)).toNat := by
    rw [UInt8.toNat_ofNat']
    omega
  rw [readSequence_lead hlead hb (by omega) hlow hhigh, readMore_cons (by omega), readMore_cons (by omega)]
  refine Prod.ext (congrArg some ?_) rfl
  show ((v / 262144 * 64 + v / 4096 % 64) * 64 + v / 64 % 64) * 64 + v % 64 = v
  omega

end Sequences

/-- The sequence of a character is read to its end. -/
theorem readSequence_encode (c : Char) : ∃ b bs, String.utf8EncodeChar c = b :: bs ∧
    ∀ rest, readSequence b (bs ++ rest) = (some c.toNat, bs.length) := by
  have hvalid : c.toNat < 0xD800 ∨ 0xDFFF < c.toNat ∧ c.toNat < 0x110000 := c.valid
  have hv : c.val.toNat = c.toNat := rfl
  unfold String.utf8EncodeChar
  rw [hv]
  simp only
  split
  · exact ⟨_, _, rfl, fun rest => readSequence_one rest ‹_›⟩
  split
  · exact ⟨_, _, rfl, fun rest => readSequence_two rest (by omega) ‹_›⟩
  split
  · exact ⟨_, _, rfl, fun rest => readSequence_three rest (by omega) ‹_› (by omega)⟩
  · exact ⟨_, _, rfl, fun rest => readSequence_four rest (by omega) (by omega)⟩

/-! ## Texts -/

/-- The bytes of characters are decoded to them, whatever follows. -/
theorem decode_encode (cs : List Char) (rest : List UInt8) :
    decode (cs.flatMap String.utf8EncodeChar ++ rest) = cs.map some ++ decode rest := by
  induction cs with
  | nil => rfl
  | cons c cs ih =>
    obtain ⟨b, bs, hc, hread⟩ := readSequence_encode c
    rw [List.flatMap_cons, hc, List.append_assoc, List.cons_append, decode, hread]
    simp [ih, Char.ofNat_toNat]

/-- **The bytes of a text are decoded to the text.** -/
theorem decodeLossy_encode (text : String) : decodeLossy (encode text) = text := by
  have h := decode_encode text.toList []
  rw [List.append_nil, ← encode_eq] at h
  rw [decodeLossy, h, decode, List.append_nil, List.map_map]
  simp [Function.comp_def]

/-! ## Newlines -/

/-- Only the newline has its byte in its sequence. -/
theorem eq_newline_of_mem_encode {c : Char} (h : (10 : UInt8) ∈ String.utf8EncodeChar c) : c = '\n' := by
  have hbyte {n : Nat} (hn : n < 256) (he : 10 = UInt8.ofNat n) : n = 10 := by
    rw [← UInt8.toNat_ofNat_of_lt' hn, ← he]
    rfl
  have hvalid : c.toNat < 0xD800 ∨ 0xDFFF < c.toNat ∧ c.toNat < 0x110000 := c.valid
  have hv : c.val.toNat = c.toNat := rfl
  -- the bytes of longer sequences are all greater than that of a newline
  have hshort : c.toNat ≤ 127 ∧ c.toNat = 10 := by
    unfold String.utf8EncodeChar at h
    rw [hv] at h
    simp only at h
    split at h
    · rw [List.mem_singleton] at h
      exact ⟨‹_›, hbyte (by omega) h⟩
    split at h
    · simp only [List.mem_cons, List.not_mem_nil, or_false] at h
      rcases h with h | h <;> have := hbyte (by omega) h <;> omega
    split at h
    · simp only [List.mem_cons, List.not_mem_nil, or_false] at h
      rcases h with h | h | h <;> have := hbyte (by omega) h <;> omega
    · simp only [List.mem_cons, List.not_mem_nil, or_false] at h
      rcases h with h | h | h | h <;> have := hbyte (by omega) h <;> omega
  rw [← Char.ofNat_toNat c, hshort.2]

theorem newline_not_mem_encode {text : String} (h : '\n' ∉ text.toList) : (10 : UInt8) ∉ encode text := by
  rw [encode_eq, List.mem_flatMap]
  rintro ⟨c, hc, hm⟩
  exact h (eq_newline_of_mem_encode hm ▸ hc)

/-- Every byte that goes on with a sequence makes the number greater. -/
theorem le_of_readMore {bits more v : Nat} {bs : List UInt8} (h : (readMore bits more bs).1 = some v) :
    bits * 64 ^ more ≤ v := by
  induction more generalizing bits bs with
  | zero =>
    cases h
    omega
  | succ more ih =>
    cases bs with
    | nil => nomatch h
    | cons b bs =>
      rw [readMore] at h
      split at h
      · have hle := ih h
        have hbits : bits * 64 ≤ addBits bits b := Nat.le_add_right _ _
        calc bits * 64 ^ (more + 1) = bits * 64 * 64 ^ more := by rw [Nat.pow_succ', Nat.mul_assoc]
          _ ≤ addBits bits b * 64 ^ more := Nat.mul_le_mul_right _ hbits
          _ ≤ v := hle
      · nomatch h

/-- No number of a sequence of two or more bytes is that of a character with one. -/
theorem le_of_lead? {b second : UInt8} {lead : Lead} (h : lead? b = some lead) (hs : lead.low ≤ second) :
    128 ≤ addBits lead.bits second * 64 ^ lead.more := by
  have h80 : (0x80 : UInt8).toNat = 128 := rfl
  have h90 : (0x90 : UInt8).toNat = 144 := rfl
  have hA0 : (0xA0 : UInt8).toNat = 160 := rfl
  have hadd (bits : Nat) : addBits bits second = bits * 64 + (second.toNat - 128) := rfl
  rw [UInt8.le_iff_toNat_le] at hs
  rw [hadd]
  rw [lead?_eq] at h
  repeat' split at h
  all_goals first
    | (rw [Option.some.injEq] at h
       subst h
       simp only at hs ⊢
       omega)
    | nomatch h

theorem le_of_readSequence {b : UInt8} {bs : List UInt8} {v : Nat} (hb : ¬ b < 0x80)
    (h : (readSequence b bs).1 = some v) : 128 ≤ v := by
  unfold readSequence at h
  rw [if_neg hb] at h
  split at h
  · rename_i lead second bs hl
    split at h
    · rename_i hs
      rw [Bool.and_eq_true, decide_eq_true_iff, decide_eq_true_iff] at hs
      exact Nat.le_trans (le_of_lead? hl hs.1) (le_of_readMore h)
    · nomatch h
  · nomatch h

theorem eq_of_ofNat_newline {v : Nat} (h : Char.ofNat v = '\n') : v = 10 := by
  by_cases hv : v.isValidChar
  · rw [Char.ofNat, dif_pos hv] at h
    exact congrArg Char.toNat h
  · rw [Char.ofNat, dif_neg hv] at h
    nomatch h

/-- Only the byte of a newline is decoded to one. -/
theorem newline_of_decode {bytes : List UInt8} (h : some '\n' ∈ decode bytes) : (10 : UInt8) ∈ bytes := by
  fun_induction decode bytes with
  | case1 => nomatch h
  | case2 b bs value taken hread ih =>
    rcases List.mem_cons.mp h with h | h
    · obtain ⟨v, rfl, hc⟩ := Option.map_eq_some_iff.mp h.symm
      have hv := eq_of_ofNat_newline hc
      by_cases hsmall : b < 0x80
      · unfold readSequence at hread
        rw [if_pos hsmall] at hread
        have hten : b = 10 := by
          rw [← UInt8.toNat_inj]
          exact (Option.some.inj (congrArg Prod.fst hread)).trans hv
        exact hten ▸ List.mem_cons_self
      · have hle := le_of_readSequence hsmall (congrArg Prod.fst hread)
        omega
    · exact List.mem_cons_of_mem _ (List.mem_of_mem_drop (ih h))

/-- Strict decoding succeeds when nothing is missing. -/
theorem eq_map_some_of_mapM {values : List (Option Char)} {cs : List Char} (h : values.mapM id = some cs) :
    values = cs.map some := by
  induction values generalizing cs with
  | nil => cases h; rfl
  | cons value values ih =>
    rw [List.mapM_cons] at h
    obtain ⟨c, hc, h⟩ := Option.bind_eq_some_iff.mp h
    obtain ⟨rest, hrest, h⟩ := Option.bind_eq_some_iff.mp h
    cases h
    rw [ih hrest, List.map_cons, ← hc]
    rfl

/-- A text that is read from bytes without newlines has none. -/
theorem newline_not_mem_of_decodeStrict? {bytes : List UInt8} {text : String} (hb : (10 : UInt8) ∉ bytes)
    (h : decodeStrict? bytes = some text) : '\n' ∉ text.toList := by
  obtain ⟨cs, hcs, rfl⟩ := Option.map_eq_some_iff.mp h
  have hdecode := eq_map_some_of_mapM hcs
  rw [String.toList_ofList]
  intro hm
  exact hb (newline_of_decode (hdecode ▸ List.mem_map_of_mem hm))

end Tabular.Text
