/-!
# Text from bytes

Decoding of UTF-8. A byte sequence is cut from the left into scalar values and *faults*: a fault is the longest front
part of a well-formed sequence that does not go on as one, or a single byte that starts none. `decode` gives both in
order, `decodeLossy` writes `U+FFFD` for every fault and `decodeStrict?` refuses text with a fault.
-/

namespace Tabular.Text

/-- What the first byte of a sequence of two to four bytes announces: its own bits, the range in which the second
byte has to lie, and the number of bytes after the second. -/
structure Lead where
  bits : Nat
  low : UInt8
  high : UInt8
  more : Nat
deriving DecidableEq, Repr

/-- The announcement of a first byte. The ranges leave out overlong forms, surrogates and what lies above
`U+10FFFF`. -/
def lead? (b : UInt8) : Option Lead :=
  if b < 0xC2 then none
  else if b < 0xE0 then some ⟨b.toNat - 0xC0, 0x80, 0xBF, 0⟩
  else if b == 0xE0 then some ⟨0, 0xA0, 0xBF, 1⟩
  else if b == 0xED then some ⟨0xD, 0x80, 0x9F, 1⟩
  else if b < 0xF0 then some ⟨b.toNat - 0xE0, 0x80, 0xBF, 1⟩
  else if b == 0xF0 then some ⟨0, 0x90, 0xBF, 2⟩
  else if b < 0xF4 then some ⟨b.toNat - 0xF0, 0x80, 0xBF, 2⟩
  else if b == 0xF4 then some ⟨4, 0x80, 0x8F, 2⟩
  else none

/-- Adds the six low bits of a continuation byte to the bits read so far. -/
def addBits (bits : Nat) (b : UInt8) : Nat :=
  bits * 0x40 + (b.toNat - 0x80)

/-- Reads continuation bytes, `more` of them: all bits, or `none` if one is missing, and how many bytes were good. -/
def readMore (bits : Nat) : (more : Nat) → List UInt8 → Option Nat × Nat
  | 0, _ => (some bits, 0)
  | _ + 1, [] => (none, 0)
  | more + 1, b :: bs =>
    if 0x80 ≤ b && b ≤ 0xBF then
      let (value, taken) := readMore (addBits bits b) more bs
      (value, taken + 1)
    else (none, 0)

/-- The code point or fault that starts with the byte `b`, and how many of the bytes after `b` belong to it. -/
def readSequence (b : UInt8) (bs : List UInt8) : Option Nat × Nat :=
  if b < 0x80 then (some b.toNat, 0)
  else
    match lead? b, bs with
    | some lead, second :: bs =>
      if lead.low ≤ second && second ≤ lead.high then
        let (value, taken) := readMore (addBits lead.bits second) lead.more bs
        (value, taken + 1)
      else (none, 0)
    | _, _ => (none, 0)

/-- The scalar values of the bytes in order, with `none` for every fault. -/
def decode : List UInt8 → List (Option Char)
  | [] => []
  | b :: bs =>
    let (value, taken) := readSequence b bs
    value.map Char.ofNat :: decode (bs.drop taken)
termination_by bytes => bytes.length
decreasing_by simp only [List.length_drop, List.length_cons]; omega

/-- The text of the bytes, with a replacement character for every fault. -/
def decodeLossy (bytes : List UInt8) : String :=
  String.ofList ((decode bytes).map (·.getD '\uFFFD'))

/-- The text of the bytes if they hold no fault. -/
def decodeStrict? (bytes : List UInt8) : Option String :=
  ((decode bytes).mapM id).map String.ofList

end Tabular.Text
