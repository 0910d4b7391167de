import Mathlib.Data.List.Basic
import Tabular.Server.Request

/-!
# Requests and lines

A stream is cut after each newline (`cutLines`). Its requests are its lines as long as none is too long: a line with at
most `requestLimit` bytes in front of its newline is one piece (`requests_line`), and so is what follows the last
newline (`requests_last`). A line that is longer makes the request that ends the connection, whatever follows its first
`requestLimit + 1` bytes (`requests_oversized`).
-/

namespace Tabular

/-- The lines of a stream, each with the newline that ends it. What follows the last newline is a line if it is not
empty. -/
def cutLines : List UInt8 → List (List UInt8)
  | [] => []
  | b :: bs =>
    if b = newline then [b] :: cutLines bs
    else
      match cutLines bs with
      | [] => [[b]]
      | line :: lines => (b :: line) :: lines

/-- A stream without newlines, or a line and a stream. -/
theorem lines_induction {P : List UInt8 → Prop} (last : ∀ bytes, newline ∉ bytes → P bytes)
    (line : ∀ body rest, newline ∉ body → P rest → P (body ++ newline :: rest)) (bytes : List UInt8) : P bytes := by
  induction hn : bytes.length using Nat.strongRecOn generalizing bytes with
  | ind n ih =>
    by_cases hm : newline ∈ bytes
    · obtain ⟨body, rest, rfl, hb⟩ := List.eq_append_cons_of_mem hm
      refine line body rest hb (ih rest.length ?_ rest rfl)
      rw [← hn, List.length_append, List.length_cons]
      omega
    · exact last bytes hm

variable {body front rest : List UInt8}

theorem cutLines_line (h : newline ∉ body) (rest : List UInt8) :
    cutLines (body ++ newline :: rest) = (body ++ [newline]) :: cutLines rest := by
  induction body with
  | nil => simp [cutLines]
  | cons b body ih =>
    rw [List.mem_cons, not_or] at h
    obtain ⟨hb, hbody⟩ := h
    simp [cutLines, ih hbody, Ne.symm hb]

theorem cutLines_last (h : newline ∉ body) (hne : body ≠ []) : cutLines body = [body] := by
  induction body with
  | nil => exact absurd rfl hne
  | cons b body ih =>
    rw [List.mem_cons, not_or] at h
    obtain ⟨hb, hbody⟩ := h
    cases body with
    | nil => simp [cutLines, Ne.symm hb]
    | cons c body => rw [cutLines, ih hbody (List.cons_ne_nil _ _), if_neg (Ne.symm hb)]

/-! ## Pieces -/

/-- Bytes without newlines are taken as far as the limit allows. -/
theorem takeLine_append (h : newline ∉ front) (limit : Nat) (rest : List UInt8) :
    takeLine limit (front ++ rest) = front.take limit ++ takeLine (limit - front.length) rest := by
  induction front generalizing limit with
  | nil => simp
  | cons b front ih =>
    rw [List.mem_cons, not_or] at h
    obtain ⟨hb, hfront⟩ := h
    cases limit with
    | zero => simp [takeLine]
    | succ limit =>
      simp [takeLine, Ne.symm hb, ih hfront]

theorem pieces_nil : pieces [] = [] := by
  rw [pieces]

theorem pieces_cons {bytes : List UInt8} (hne : bytes ≠ []) :
    pieces bytes = firstPiece bytes :: pieces (bytes.drop (firstPiece bytes).length) := by
  obtain ⟨b, bs, rfl⟩ := List.exists_cons_of_ne_nil hne
  obtain ⟨tail, hp, -⟩ := firstPiece_cons b bs
  rw [pieces, hp]
  rfl

theorem requests_nil : requests [] = [] := by
  rw [requests, pieces_nil, List.map_nil]

theorem requests_cons {bytes : List UInt8} (hne : bytes ≠ []) :
    requests bytes = .ofPiece (firstPiece bytes) :: requests (bytes.drop (firstPiece bytes).length) := by
  rw [requests, pieces_cons hne, List.map_cons]
  rfl

/-- A line that is not too long is a request. -/
theorem requests_line (h : newline ∉ body) (hl : body.length ≤ requestLimit) (rest : List UInt8) :
    requests (body ++ newline :: rest) = .line (Text.decodeLossy (body ++ [newline])) :: requests rest := by
  have hpiece : firstPiece (body ++ newline :: rest) = body ++ [newline] := by
    obtain ⟨k, hk⟩ : ∃ k, requestLimit + 1 - body.length = k + 1 := ⟨requestLimit - body.length, by omega⟩
    rw [firstPiece, takeLine_append h, List.take_of_length_le (by omega), hk]
    simp [takeLine]
  have hrequest : Request.ofPiece (body ++ [newline]) = .line (Text.decodeLossy (body ++ [newline])) := by
    simp [Request.ofPiece]
  rw [requests_cons (by simp), hpiece, hrequest, List.append_cons body newline rest, List.drop_left]

/-- What follows the last newline is a request if it is not too long. -/
theorem requests_last (h : newline ∉ body) (hne : body ≠ []) (hl : body.length ≤ requestLimit) :
    requests body = [.line (Text.decodeLossy body)] := by
  have hpiece : firstPiece body = body := by
    have htake := takeLine_append h (requestLimit + 1) []
    have hnil : takeLine (requestLimit + 1 - body.length) [] = [] := by
      cases requestLimit + 1 - body.length <;> rfl
    rw [List.append_nil, hnil, List.append_nil, List.take_of_length_le (by omega)] at htake
    exact htake
  have hrequest : Request.ofPiece body = .line (Text.decodeLossy body) := by
    simp [Request.ofPiece, Nat.not_lt.mpr hl]
  rw [requests_cons hne, hpiece, hrequest, List.drop_length, requests_nil]

/-- Too many bytes without a newline make the request that ends the connection. -/
theorem requests_oversized (h : newline ∉ front) (hl : requestLimit < front.length) (rest : List UInt8) :
    ∃ more, requests (front ++ rest) = .oversized :: more := by
  have hpiece : firstPiece (front ++ rest) = front.take (requestLimit + 1) := by
    have hzero : requestLimit + 1 - front.length = 0 := by omega
    rw [firstPiece, takeLine_append h, hzero]
    simp [takeLine]
  have hlength : (front.take (requestLimit + 1)).length = requestLimit + 1 := by
    rw [List.length_take]
    omega
  have hlast : (front.take (requestLimit + 1)).getLast? ≠ some newline := by
    intro hm
    exact h (List.mem_of_mem_take (List.mem_of_getLast? hm))
  have hne : front ++ rest ≠ [] := by
    intro he
    rw [(List.append_eq_nil_iff.mp he).1] at hl
    exact absurd hl (Nat.not_lt_zero _)
  rw [requests_cons hne, hpiece]
  refine ⟨_, congrArg (· :: _) ?_⟩
  simp [Request.ofPiece, hlength, hlast]

end Tabular
