import Tabular.Text.Utf8

/-!
# Requests from a byte stream

A client sends its requests one per line, and a line may have `requestLimit` bytes before its newline. The stream is cut
into pieces (`pieces`), each of which ends after the first newline, or where it has become too long, or where the
stream ends. A piece that became too long is no request (`Request.ofPiece`).
-/

namespace Tabular

/-- The byte that ends a line. -/
def newline : UInt8 := 10

/-- The number of bytes that a request may have before its newline. -/
def requestLimit : Nat := 1024

/-- The bytes up to the first newline, newline included, and at most `limit` of them. -/
def takeLine : (limit : Nat) → List UInt8 → List UInt8
  | 0, _ => []
  | _ + 1, [] => []
  | limit + 1, b :: bs => if b == newline then [b] else b :: takeLine limit bs

/-- The first piece of a stream. -/
def firstPiece (bytes : List UInt8) : List UInt8 :=
  takeLine (requestLimit + 1) bytes

/-- The pieces of a stream in order. -/
def pieces : List UInt8 → List (List UInt8)
  | [] => []
  | b :: bs => firstPiece (b :: bs) :: pieces (bs.drop ((firstPiece (b :: bs)).length - 1))
termination_by bytes => bytes.length
decreasing_by simp only [List.length_drop, List.length_cons]; omega

theorem takeLine_isPrefix (limit : Nat) (bytes : List UInt8) : takeLine limit bytes <+: bytes := by
  induction bytes generalizing limit with
  | nil => cases limit <;> exact List.nil_prefix
  | cons b bs ih =>
    cases limit with
    | zero => exact List.nil_prefix
    | succ limit =>
      simp only [takeLine]
      split
      · exact ⟨bs, rfl⟩
      · exact List.cons_prefix_cons.mpr ⟨rfl, ih limit⟩

/-- The first piece of a stream that has not ended has its first byte. -/
theorem firstPiece_cons (b : UInt8) (bs : List UInt8) : ∃ tail, firstPiece (b :: bs) = b :: tail ∧ tail <+: bs := by
  have h : firstPiece (b :: bs) = if b == newline then [b] else b :: takeLine requestLimit bs := rfl
  rw [h]
  split
  · exact ⟨[], rfl, List.nil_prefix⟩
  · exact ⟨_, rfl, takeLine_isPrefix _ _⟩

/-- No byte of a stream is lost between the pieces. -/
theorem flatten_pieces (bytes : List UInt8) : (pieces bytes).flatten = bytes := by
  fun_induction pieces bytes with
  | case1 => rfl
  | case2 b bs ih =>
    obtain ⟨tail, h, rest, rfl⟩ := firstPiece_cons b bs
    rw [List.flatten_cons, ih, h]
    simp

/-- What a client asks for. -/
inductive Request where
  /-- A line of text, with its newline if it has one. -/
  | line (text : String)
  /-- A line that has too many bytes. -/
  | oversized
deriving DecidableEq, Repr

/-- The request that a piece of the stream is. -/
def Request.ofPiece (piece : List UInt8) : Request :=
  if piece.length > requestLimit && piece.getLast? != some newline then .oversized else .line (Text.decodeLossy piece)

/-- The requests of a stream in order. -/
def requests (bytes : List UInt8) : List Request :=
  (pieces bytes).map .ofPiece

end Tabular
