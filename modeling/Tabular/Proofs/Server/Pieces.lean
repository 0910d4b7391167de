import Tabular.Proofs.Server.Framing
import Tabular.Proofs.Text.Decoding

/-!
# How a stream is cut into requests

A stream is read by calls, each of which takes a piece off its front and answers it, until one finds that the stream has
ended (`Reads`). Each piece ends at its first newline, where it has become too long, or where the stream ends
(`EndsFirst`), and this alone determines the pieces (`reads_iff`). A line is refused exactly if it is too long, as long
as no piece before it was (`refused_iff`), and the texts of a stream that is not refused make up the text of the whole
stream (`exists_texts`): no sequence of bytes is decoded in another way because a newline stands behind it. All of this
together is `consumes`.
-/

namespace Tabular

open Text

/-! ## One call -/

/-- The request at the front of a stream and what follows it. There is none where the stream has ended. -/
def nextRequest? (bytes : List UInt8) : Option (Request × List UInt8) :=
  let piece := firstPiece bytes
  if piece.isEmpty then none else some (.ofPiece piece, bytes.drop piece.length)

/-- The calls that read a stream to its end: the pieces that they take, and their answers. -/
inductive Reads : List UInt8 → List (List UInt8) → List Request → Prop where
  | closed {bytes : List UInt8} (h : nextRequest? bytes = none) : Reads bytes [] []
  | next {piece rest : List UInt8} {r : Request} {more : List (List UInt8)} {later : List Request}
      (h : nextRequest? (piece ++ rest) = some (r, rest)) (hrest : Reads rest more later) :
      Reads (piece ++ rest) (piece :: more) (r :: later)

/-- The piece ends at its first newline, where it is as long as a piece can be, or, if nothing is left, at the end of
the stream; and none of this comes before its end. -/
structure EndsFirst (piece rest : List UInt8) : Prop where
  nonempty : piece ≠ []
  before : newline ∉ piece.dropLast
  length : piece.length ≤ requestLimit + 1
  stop : piece.getLast? = some newline ∨ piece.length = requestLimit + 1 ∨ rest = []

/-- The stream consists of pieces, each of which ends where it has to. -/
inductive Consists : List UInt8 → List (List UInt8) → Prop where
  | ended : Consists [] []
  | piece {piece rest : List UInt8} {more : List (List UInt8)} (h : EndsFirst piece rest) (hrest : Consists rest more) :
      Consists (piece ++ rest) (piece :: more)

/-- What is known of the pieces of a stream and of the requests that they are. -/
structure Consumes (bytes : List UInt8) (ps : List (List UInt8)) (rs : List Request) : Prop where
  /-- The calls come to an end, and they take these pieces and give these answers. -/
  reads : ∀ ps' rs', Reads bytes ps' rs' ↔ ps' = ps ∧ rs' = rs
  consists : Consists bytes ps
  /-- A piece is refused exactly if it has no newline where a request has to end. All others are decoded. -/
  answers : List.Forall₂ (fun piece r =>
    (r = .oversized ↔ piece.length = requestLimit + 1 ∧ piece.getLast? ≠ some newline) ∧
      (r ≠ .oversized → r = .line (decodeLossy piece))) ps rs
  /-- If no piece before it was refused, a line is refused exactly if it has too many bytes without its newline. -/
  refuses : ∀ i, .oversized ∉ rs.take i →
    (rs[i]? = some .oversized ↔ ∃ line, (cutLines bytes)[i]? = some line ∧ requestLimit < lineLength line)
  /-- If nothing is refused, the texts make up the text of the stream. -/
  decodes : .oversized ∉ rs → ∃ texts, rs = texts.map .line ∧ String.join texts = decodeLossy bytes

/-! ## Where a piece ends -/

theorem takeLine_spec (limit : Nat) (bytes : List UInt8) :
    newline ∉ (takeLine limit bytes).dropLast ∧ (takeLine limit bytes).length ≤ limit ∧
      ((takeLine limit bytes).getLast? = some newline ∨ (takeLine limit bytes).length = limit ∨
        takeLine limit bytes = bytes) := by
  induction bytes generalizing limit with
  | nil => cases limit <;> simp [takeLine]
  | cons b bytes ih =>
    cases limit with
    | zero => simp [takeLine]
    | succ limit =>
      obtain ⟨hbefore, hlength, hstop⟩ := ih limit
      by_cases hb : b = newline
      · simp [takeLine, hb]
      · have htake : takeLine (limit + 1) (b :: bytes) = b :: takeLine limit bytes := by simp [takeLine, hb]
        rw [htake]
        refine ⟨?_, by simp only [List.length_cons]; omega, ?_⟩
        · cases h : takeLine limit bytes with
          | nil => simp
          | cons c piece =>
            rw [h] at hbefore
            rw [List.dropLast_cons_of_ne_nil (List.cons_ne_nil _ _), List.mem_cons, not_or]
            exact ⟨Ne.symm hb, hbefore⟩
        · rcases hstop with hlast | hlength | hall
          · left
            rw [List.getLast?_cons, hlast]
            rfl
          · right; left
            simp only [List.length_cons]
            omega
          · right; right
            rw [hall]

/-- The first piece of a stream that has not ended ends where it has to. -/
theorem exists_endsFirst {bytes : List UInt8} (hne : bytes ≠ []) :
    ∃ rest, bytes = firstPiece bytes ++ rest ∧ EndsFirst (firstPiece bytes) rest := by
  obtain ⟨rest, hrest⟩ := takeLine_isPrefix (requestLimit + 1) bytes
  obtain ⟨hbefore, hlength, hstop⟩ := takeLine_spec (requestLimit + 1) bytes
  refine ⟨rest, hrest.symm, ?_, hbefore, hlength, ?_⟩
  · obtain ⟨b, bs, rfl⟩ := List.exists_cons_of_ne_nil hne
    obtain ⟨tail, h, -⟩ := firstPiece_cons b bs
    rw [h]
    exact List.cons_ne_nil _ _
  · rcases hstop with hlast | hlong | hall
    · exact .inl hlast
    · exact .inr (.inl hlong)
    · rw [hall] at hrest
      exact .inr (.inr (List.self_eq_append_right.mp hrest.symm))

/-- Only one piece at the front of a stream ends where it has to. -/
theorem EndsFirst.firstPiece_eq {piece rest : List UInt8} (h : EndsFirst piece rest) :
    firstPiece (piece ++ rest) = piece := by
  obtain ⟨hne, hbefore, hlength, hstop⟩ := h
  obtain ⟨front, b, rfl⟩ := (List.eq_nil_or_concat piece).resolve_left hne
  simp only [List.concat_eq_append, List.dropLast_concat, List.length_append, List.length_singleton,
    List.getLast?_concat, Option.some.injEq] at hbefore hlength hstop ⊢
  -- the limit is not reached before the last byte
  obtain ⟨k, hk⟩ : ∃ k, requestLimit + 1 - front.length = k + 1 := ⟨requestLimit - front.length, by omega⟩
  rw [firstPiece, List.append_assoc, takeLine_append hbefore, List.take_of_length_le (by omega), hk,
    List.singleton_append, takeLine]
  by_cases hb : b = newline
  · simp [hb]
  rcases hstop with hlast | hlong | rfl
  · exact absurd hlast hb
  · have hzero : k = 0 := by omega
    simp [hb, hzero, takeLine]
  · cases k <;> simp [hb, takeLine]

/-! ## Calls and pieces -/

theorem nextRequest?_nil : nextRequest? [] = none :=
  rfl

theorem EndsFirst.nextRequest? {piece rest : List UInt8} (h : EndsFirst piece rest) :
    nextRequest? (piece ++ rest) = some (.ofPiece piece, rest) := by
  unfold Tabular.nextRequest?
  simp [h.firstPiece_eq, h.nonempty]

/-- A stream can be read piece by piece, and it has ended where there is no piece. -/
theorem stream_induction {P : List UInt8 → Prop} (ended : P [])
    (piece : ∀ piece rest, EndsFirst piece rest → P rest → P (piece ++ rest)) (bytes : List UInt8) : P bytes := by
  induction hn : bytes.length using Nat.strongRecOn generalizing bytes with
  | ind n ih =>
    by_cases hne : bytes = []
    · rw [hne]
      exact ended
    · obtain ⟨rest, hrest, h⟩ := exists_endsFirst hne
      have hpos := List.length_pos_iff.mpr h.nonempty
      have hlength := congrArg List.length hrest
      rw [List.length_append] at hlength
      rw [hrest]
      exact piece _ rest h (ih rest.length (by omega) rest rfl)

theorem EndsFirst.pieces {piece rest : List UInt8} (h : EndsFirst piece rest) :
    pieces (piece ++ rest) = piece :: pieces rest := by
  have hne : piece ++ rest ≠ [] := by simp [h.nonempty]
  rw [pieces_cons hne, h.firstPiece_eq, List.drop_left]

theorem EndsFirst.requests {piece rest : List UInt8} (h : EndsFirst piece rest) :
    requests (piece ++ rest) = .ofPiece piece :: requests rest := by
  rw [Tabular.requests, h.pieces, List.map_cons]
  rfl

/-- **The calls come to an end, and they take the pieces of the stream.** -/
theorem reads_iff {bytes : List UInt8} {ps : List (List UInt8)} {rs : List Request} :
    Reads bytes ps rs ↔ ps = pieces bytes ∧ rs = requests bytes := by
  induction bytes using stream_induction generalizing ps rs with
  | ended =>
    rw [pieces_nil, requests_nil]
    constructor
    · intro h
      generalize hbytes : ([] : List UInt8) = bytes at h
      cases h with
      | closed => exact ⟨rfl, rfl⟩
      | next h =>
        rw [← hbytes, nextRequest?_nil] at h
        nomatch h
    · rintro ⟨rfl, rfl⟩
      exact .closed nextRequest?_nil
  | piece piece rest hp ih =>
    rw [hp.pieces, hp.requests]
    constructor
    · intro h
      generalize hbytes : piece ++ rest = bytes at h
      cases h with
      | closed h =>
        rw [← hbytes, hp.nextRequest?] at h
        nomatch h
      | next h hrest =>
        rw [← hbytes, hp.nextRequest?, Option.some.injEq, Prod.mk.injEq] at h
        obtain ⟨rfl, rfl⟩ := h
        obtain ⟨rfl, rfl⟩ := ih.mp hrest
        exact ⟨congrArg (· :: _) (List.append_cancel_right hbytes).symm, rfl⟩
    · rintro ⟨rfl, rfl⟩
      exact .next hp.nextRequest? (ih.mpr ⟨rfl, rfl⟩)

theorem consists_pieces (bytes : List UInt8) : Consists bytes (pieces bytes) := by
  induction bytes using stream_induction with
  | ended =>
    rw [pieces_nil]
    exact .ended
  | piece piece rest hp ih =>
    rw [hp.pieces]
    exact .piece hp ih

/-! ## Answers -/

/-- A piece is refused exactly if it has the greatest length and no newline at its end. -/
theorem EndsFirst.ofPiece {piece rest : List UInt8} (h : EndsFirst piece rest) :
    (Request.ofPiece piece = .oversized ↔ piece.length = requestLimit + 1 ∧ piece.getLast? ≠ some newline) ∧
      (Request.ofPiece piece ≠ .oversized → Request.ofPiece piece = .line (decodeLossy piece)) := by
  have hlength := h.length
  have hlong : requestLimit < piece.length ↔ piece.length = requestLimit + 1 := by omega
  have hrefused : (decide (requestLimit < piece.length) && piece.getLast? != some newline) = true ↔
      piece.length = requestLimit + 1 ∧ piece.getLast? ≠ some newline := by
    rw [Bool.and_eq_true, decide_eq_true_iff, bne_iff_ne, hlong]
  unfold Request.ofPiece
  by_cases hc : piece.length = requestLimit + 1 ∧ piece.getLast? ≠ some newline
  · rw [if_pos (hrefused.mpr hc)]
    exact ⟨iff_of_true rfl hc, fun hr => absurd rfl hr⟩
  · rw [if_neg (mt hrefused.mp hc)]
    exact ⟨iff_of_false Request.noConfusion hc, fun _ => rfl⟩

theorem answers_pieces (bytes : List UInt8) : List.Forall₂ (fun piece r =>
    (r = .oversized ↔ piece.length = requestLimit + 1 ∧ piece.getLast? ≠ some newline) ∧
      (r ≠ .oversized → r = .line (decodeLossy piece))) (pieces bytes) (requests bytes) := by
  induction bytes using stream_induction with
  | ended =>
    rw [pieces_nil, requests_nil]
    exact .nil
  | piece piece rest hp ih =>
    rw [hp.pieces, hp.requests]
    exact .cons hp.ofPiece ih

/-! ## Lines that are too long -/

/-- A place behind a piece that is refused does not count. -/
theorem refused_iff_of_oversized {bytes line : List UInt8} {lines : List (List UInt8)}
    (hr : ∃ more, requests bytes = .oversized :: more) (hc : cutLines bytes = line :: lines)
    (hl : requestLimit < lineLength line) {i : Nat} (h : .oversized ∉ (requests bytes).take i) :
    (requests bytes)[i]? = some .oversized ↔
      ∃ line, (cutLines bytes)[i]? = some line ∧ requestLimit < lineLength line := by
  obtain ⟨more, hr⟩ := hr
  cases i with
  | zero =>
    rw [hr, hc]
    exact iff_of_true rfl ⟨line, rfl, hl⟩
  | succ i =>
    rw [hr] at h
    exact absurd List.mem_cons_self h

/-- **As long as no piece was refused, a line is refused exactly if it is too long.** -/
theorem refused_iff (bytes : List UInt8) (i : Nat) (h : .oversized ∉ (requests bytes).take i) :
    (requests bytes)[i]? = some .oversized ↔
      ∃ line, (cutLines bytes)[i]? = some line ∧ requestLimit < lineLength line := by
  induction bytes using lines_induction generalizing i with
  | last bytes hb =>
    by_cases hne : bytes = []
    · rw [hne, requests_nil]
      simp [cutLines]
    have hc := cutLines_last hb hne
    have hlength := lineLength_last hb
    by_cases hl : bytes.length ≤ requestLimit
    · rw [requests_last hb hne hl, hc]
      cases i with
      | zero => simp [hlength, hl]
      | succ i => simp
    · refine refused_iff_of_oversized ?_ hc (by omega) h
      have := requests_oversized hb (by omega) []
      rwa [List.append_nil] at this
  | line body rest hb ih =>
    have hc := cutLines_line hb rest
    have hlength := lineLength_line body
    by_cases hl : body.length ≤ requestLimit
    · have hr := requests_line hb hl rest
      rw [hr] at h ⊢
      rw [hc]
      cases i with
      | zero => simp [hlength, hl]
      | succ i =>
        rw [List.take_succ_cons, List.mem_cons, not_or] at h
        simpa using ih i h.2
    · exact refused_iff_of_oversized (requests_oversized hb (by omega) _) hc (by omega) h

/-! ## The text of a stream -/

/-- **Where nothing is refused, the texts of the requests make up the text of the stream.** -/
theorem exists_texts (bytes : List UInt8) (h : .oversized ∉ requests bytes) :
    ∃ texts, requests bytes = texts.map .line ∧ String.join texts = decodeLossy bytes := by
  induction bytes using lines_induction with
  | last bytes hb =>
    by_cases hne : bytes = []
    · refine ⟨[], ?_, ?_⟩
      · rw [hne, requests_nil, List.map_nil]
      · rw [hne, decodeLossy, decode_nil]
        rfl
    by_cases hl : bytes.length ≤ requestLimit
    · exact ⟨[decodeLossy bytes], requests_last hb hne hl, by simp⟩
    · obtain ⟨more, hr⟩ := requests_oversized hb (by omega) []
      rw [List.append_nil] at hr
      rw [hr] at h
      exact absurd List.mem_cons_self h
  | line body rest hb ih =>
    by_cases hl : body.length ≤ requestLimit
    · rw [requests_line hb hl rest, List.mem_cons, not_or] at h
      obtain ⟨texts, hr, hjoin⟩ := ih h.2
      refine ⟨decodeLossy (body ++ [newline]) :: texts, ?_, ?_⟩
      · rw [requests_line hb hl rest, hr, List.map_cons]
      · rw [String.join_cons, hjoin, ← decodeLossy_append_cons (by decide)]
    · obtain ⟨more, hr⟩ := requests_oversized hb (by omega) (newline :: rest)
      rw [hr] at h
      exact absurd List.mem_cons_self h

/-- **Every stream is read to its end and cut in the right way.** -/
theorem consumes (bytes : List UInt8) : Consumes bytes (pieces bytes) (requests bytes) where
  reads _ _ := reads_iff
  consists := consists_pieces bytes
  answers := answers_pieces bytes
  refuses := refused_iff bytes
  decodes := exists_texts bytes

end Tabular
