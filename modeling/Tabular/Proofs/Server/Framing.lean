import Tabular.Proofs.Server.Requests
import Tabular.Proofs.Session.Replies
import Tabular.Proofs.Token.Joining

/-!
# A client can tell where each reply ends

What the server sends is one reply for each line of the client that calls for one, with an empty line behind each, up to
the first line that is too long; for that line it sends one message, and nothing behind its first bytes matters
(`Frames`). As every reply is a block, the list of replies is found again in what was sent (`framing`).
-/

namespace Tabular

open Text

/-! ## Lines of a client -/

/-- The number of bytes of a line without its newline. -/
def lineLength (line : List UInt8) : Nat :=
  if line.getLast? = some newline then line.length - 1 else line.length

/-- The lines in front of the first one that is too long. -/
def acceptedLines (bytes : List UInt8) : List (List UInt8) :=
  (cutLines bytes).takeWhile fun line => lineLength line ≤ requestLimit

/-- The first line that is too long. -/
def oversizedLine? (bytes : List UInt8) : Option (List UInt8) :=
  (cutLines bytes).find? fun line => requestLimit < lineLength line

/-- Whether a text calls for a reply: it does not consist of blanks. -/
def callsForReply (text : String) : Bool :=
  !text.toList.all isBlank

/-- The texts for which the server replies. -/
def requestTexts (bytes : List UInt8) : List String :=
  ((acceptedLines bytes).map decodeLossy).filter callsForReply

/-- The replies to a stream, and how they are sent. -/
structure Frames (bytes : List UInt8) (replies : List String) : Prop where
  /-- They are the replies of one new session to the texts that call for them, in order. -/
  answered : Session.new.runLines (requestTexts bytes) = replies.map some
  framed : ∀ r ∈ replies, Framed r
  /-- They are sent with a newline behind each, and then the message about a line that is too long. -/
  output : serverOutput bytes = String.join (replies.map (· ++ "\n")) ++
    ((oversizedLine? bytes).map fun _ => frame oversizedMessage).getD ""
  /-- They are found again between empty lines. -/
  blocks : blocks (serverOutput bytes) =
    replies ++ ((oversizedLine? bytes).map fun _ => oversizedMessage ++ "\n").toList
  /-- Of a line that is too long only the first bytes are read, and nothing behind them. -/
  cut : ∀ line, oversizedLine? bytes = some line → ∀ more,
    serverOutput ((acceptedLines bytes).flatten ++ line.take (requestLimit + 1) ++ more) = serverOutput bytes

/-! ## Lines and requests -/

section Lines

variable {body : List UInt8}

theorem lineLength_line (body : List UInt8) : lineLength (body ++ [newline]) = body.length := by
  simp [lineLength]

theorem lineLength_last (h : newline ∉ body) : lineLength body = body.length :=
  if_neg fun hm => h (List.mem_of_getLast? hm)

theorem acceptedLines_cons {bytes line : List UInt8} {lines : List (List UInt8)} (h : cutLines bytes = line :: lines)
    (hl : requestLimit < lineLength line) : acceptedLines bytes = [] ∧ oversizedLine? bytes = some line := by
  simp [acceptedLines, oversizedLine?, h, hl]

/-- A line that is too long, and what stands before it. -/
structure Stops (bytes line rest : List UInt8) : Prop where
  oversized : oversizedLine? bytes = some line
  split : bytes = (acceptedLines bytes).flatten ++ line ++ rest
  long : requestLimit < (line.take (requestLimit + 1)).length
  newline_not_mem : newline ∉ line.take (requestLimit + 1)
  before : ∀ tail, requests ((acceptedLines bytes).flatten ++ tail) =
    (acceptedLines bytes).map (fun line => .line (decodeLossy line)) ++ requests tail

/-- The accepted lines are the requests of a stream, unless a line is too long. -/
theorem requests_acceptedLines (bytes : List UInt8) :
    oversizedLine? bytes = none ∧ requests bytes = (acceptedLines bytes).map (fun line => .line (decodeLossy line)) ∨
      ∃ line rest, Stops bytes line rest := by
  induction bytes using lines_induction with
  | last bytes h =>
    by_cases hne : bytes = []
    · subst hne
      exact .inl ⟨rfl, requests_nil⟩
    have hlength := lineLength_last h
    by_cases hl : bytes.length ≤ requestLimit
    · left
      have hcut := cutLines_last h hne
      simp [acceptedLines, oversizedLine?, hcut, hlength, hl, requests_last h hne hl]
    · right
      obtain ⟨ha, ho⟩ := acceptedLines_cons (cutLines_last h hne) (by omega)
      refine ⟨bytes, [], ho, by simp [ha], ?_, fun hm => h (List.mem_of_mem_take hm), by simp [ha]⟩
      rw [List.length_take]
      omega
  | line body rest h ih =>
    have hcut := cutLines_line h rest
    have hlength := lineLength_line body
    by_cases hl : body.length ≤ requestLimit
    · have ha : acceptedLines (body ++ newline :: rest) = (body ++ [newline]) :: acceptedLines rest := by
        simp [acceptedLines, hcut, hlength, hl]
      have ho : oversizedLine? (body ++ newline :: rest) = oversizedLine? rest := by
        simp [oversizedLine?, hcut, hlength, Nat.not_lt.mpr hl]
      rcases ih with ⟨hnone, hr⟩ | ⟨line, more, hs⟩
      · left
        refine ⟨ho.trans hnone, ?_⟩
        rw [requests_line h hl, hr, ha, List.map_cons]
      · right
        refine ⟨line, more, ho.trans hs.oversized, ?_, hs.long, hs.newline_not_mem, fun tail => ?_⟩
        · rw [ha]
          conv_lhs => rw [hs.split]
          simp
        · have hline : (acceptedLines (body ++ newline :: rest)).flatten ++ tail =
              body ++ newline :: ((acceptedLines rest).flatten ++ tail) := by
            simp [ha]
          rw [hline, requests_line h hl, hs.before, ha, List.map_cons, List.cons_append]
    · right
      obtain ⟨ha, ho⟩ := acceptedLines_cons hcut (by omega)
      have htake : (body ++ [newline]).take (requestLimit + 1) = body.take (requestLimit + 1) :=
        List.take_append_of_le_length (by omega)
      refine ⟨body ++ [newline], rest, ho, by simp [ha], ?_, ?_, by simp [ha]⟩
      · rw [htake, List.length_take]
        omega
      · rw [htake]
        exact fun hm => h (List.mem_of_mem_take hm)

/-- The requests up to the one that ends the connection do not depend on what follows. -/
theorem Stops.requests {bytes line rest : List UInt8} (h : Stops bytes line rest) (tail : List UInt8) :
    ∃ more, requests ((acceptedLines bytes).flatten ++ line.take (requestLimit + 1) ++ tail) =
      (acceptedLines bytes).map (fun line => .line (decodeLossy line)) ++ .oversized :: more := by
  obtain ⟨more, hmore⟩ := requests_oversized h.newline_not_mem h.long tail
  exact ⟨more, by rw [List.append_assoc, h.before, hmore]⟩

theorem Stops.requests_self {bytes line rest : List UInt8} (h : Stops bytes line rest) :
    ∃ more, Tabular.requests bytes =
      (acceptedLines bytes).map (fun line => .line (decodeLossy line)) ++ .oversized :: more := by
  obtain ⟨more, hmore⟩ := h.requests (line.drop (requestLimit + 1) ++ rest)
  refine ⟨more, ?_⟩
  rw [← hmore, ← List.append_assoc, List.append_assoc _ (line.take _), List.take_append_drop, ← h.split]

end Lines

/-! ## Replies -/

theorem trim_isEmpty (text : String) : (trim text).isEmpty = !callsForReply text := by
  rw [isEmpty_trim, callsForReply, Bool.not_not]

namespace Session

theorem runLine_blank {text : String} (h : callsForReply text = false) (s : Session) : s.runLine text = (none, s) := by
  rw [runLine, trim_isEmpty, h]
  rfl

theorem runLine_request {text : String} (h : callsForReply text = true) (s : Session) : s.runLine text =
    (some (reply (s.run (lowercase (trim text))).1), (s.run (lowercase (trim text))).2) := by
  rw [runLine, trim_isEmpty, h]
  rfl

/-- Every reply to a line is a block, whatever requests were made before. -/
theorem isBlock_runLine (requests : List String) {line r : String}
    (h : ((new.after requests).runLine line).1 = some r) : IsBlock r := by
  cases hc : callsForReply line with
  | false =>
    rw [runLine_blank hc] at h
    nomatch h
  | true =>
    rw [runLine_request hc] at h
    cases h
    exact isBlock_reply (proper_after requests) (showsWords_after requests) _

end Session

/-- Lines are answered in one session, and what follows them is answered after it. -/
theorem converse_lines (texts requests : List String) : ∃ replies,
    (Session.new.after requests).runLines (texts.filter callsForReply) = replies.map some ∧
      (∀ r ∈ replies, IsBlock r) ∧ ∀ tail last, (∀ s, converse s tail = last) →
        converse (Session.new.after requests) (texts.map .line ++ tail) = replies ++ last := by
  induction texts generalizing requests with
  | nil => exact ⟨[], rfl, fun _ h => absurd h List.not_mem_nil, fun _ _ ht => ht _⟩
  | cons text texts ih =>
    cases hc : callsForReply text with
    | false =>
      have hblank := Session.runLine_blank hc (Session.new.after requests)
      obtain ⟨replies, hrun, hblocks, hconverse⟩ := ih requests
      refine ⟨replies, ?_, hblocks, fun tail last ht => ?_⟩
      · rw [List.filter_cons_of_neg (by simp [hc]), hrun]
      · simp [converse, hblank, hconverse tail last ht]
    | true =>
      have hrequest := Session.runLine_request hc (Session.new.after requests)
      have hafter : ((Session.new.after requests).run (lowercase (trim text))).2 =
          Session.new.after (requests ++ [lowercase (trim text)]) := by
        rw [Session.after_append]
        rfl
      rw [hafter] at hrequest
      obtain ⟨replies, hrun, hblocks, hconverse⟩ := ih (requests ++ [lowercase (trim text)])
      refine ⟨reply ((Session.new.after requests).run (lowercase (trim text))).1 :: replies, ?_, ?_, ?_⟩
      · simp [List.filter_cons_of_pos hc, Session.runLines, hrequest, hrun]
      · exact List.forall_mem_cons.mpr
          ⟨Session.isBlock_runLine requests (congrArg Prod.fst hrequest), hblocks⟩
      · intro tail last ht
        simp [converse, hrequest, hconverse tail last ht]

/-! ## Frames -/

theorem frame_of_isBlock {r : String} (h : IsBlock r) : frame r = r ++ "\n" := by
  obtain ⟨front, rfl, -⟩ := h.framed.ending
  simp [frame]

theorem isBlock_oversized : IsBlock (oversizedMessage ++ "\n") := by
  have hline : OneLine oversizedMessage := by decide +kernel
  exact hline.isBlock (by decide +kernel)

theorem frame_oversizedMessage : frame oversizedMessage = oversizedMessage ++ "\n" ++ "\n" := by
  decide +kernel

/-- Blocks are sent with a newline behind each. -/
theorem join_frames {replies : List String} (h : ∀ r ∈ replies, IsBlock r) (last : List String) :
    String.join ((replies ++ last).map frame) =
      String.join (replies.map (· ++ "\n")) ++ String.join (last.map frame) := by
  rw [List.map_append, String.join_append, List.map_congr_left fun r hr => frame_of_isBlock (h r hr)]

/-- Every stream is answered in frames. -/
theorem exists_frames (bytes : List UInt8) : ∃ replies, Frames bytes replies := by
  obtain ⟨replies, hrun, hblocks, hconverse⟩ := converse_lines ((acceptedLines bytes).map decodeLossy) []
  have houtput : ∀ stream tail last, requests stream =
      (acceptedLines bytes).map (fun line => .line (decodeLossy line)) ++ tail → (∀ s, converse s tail = last) →
        serverOutput stream = String.join (replies.map (· ++ "\n")) ++ String.join (last.map frame) := by
    intro stream tail last hstream ht
    have hall := hconverse tail last ht
    rw [List.map_map] at hall
    rw [serverOutput, hstream, ← join_frames hblocks]
    exact congrArg (fun replies => String.join (replies.map frame)) hall
  refine ⟨replies, ?_⟩
  rcases requests_acceptedLines bytes with ⟨hnone, hr⟩ | ⟨line, rest, hs⟩
  · have hsent : serverOutput bytes = String.join (replies.map (· ++ "\n")) := by
      rw [houtput bytes [] [] (by rw [hr, List.append_nil]) fun _ => by rw [converse]]
      simp
    refine ⟨hrun, fun r hm => (hblocks r hm).framed, ?_, ?_, ?_⟩
    · simp [hnone, hsent]
    · simp [hnone, hsent, blocks_join hblocks]
    · intro line hline
      rw [hnone] at hline
      nomatch hline
  · -- the requests behind the one that is too long have no part in the output
    have hsent : ∀ stream more, requests stream =
        (acceptedLines bytes).map (fun line => .line (decodeLossy line)) ++ .oversized :: more →
          serverOutput stream = String.join (replies.map (· ++ "\n")) ++ frame oversizedMessage := by
      intro stream more hstream
      rw [houtput stream _ [oversizedMessage] hstream fun _ => by rw [converse]]
      simp
    obtain ⟨more, hmore⟩ := hs.requests_self
    have hself := hsent bytes more hmore
    refine ⟨hrun, fun r hm => (hblocks r hm).framed, ?_, ?_, ?_⟩
    · simp [hs.oversized, hself]
    · have hall : ∀ r ∈ replies ++ [oversizedMessage ++ "\n"], IsBlock r := by
        rw [List.forall_mem_append, List.forall_mem_singleton]
        exact ⟨hblocks, isBlock_oversized⟩
      have hjoin := blocks_join hall
      rw [List.map_append, String.join_append, List.map_singleton, ← frame_oversizedMessage] at hjoin
      simpa [hs.oversized, hself] using hjoin
    · intro line' hline tail
      rw [hs.oversized, Option.some.injEq] at hline
      subst hline
      obtain ⟨more', hmore'⟩ := hs.requests tail
      rw [hself, hsent _ more' hmore']

/-- **A client can always tell where each reply ends.** -/
theorem framing :
    (∀ requests line, ∀ r ∈ ((Session.new.after requests).runLine line).1, Framed r) ∧
      ∀ bytes, ∃ replies, Frames bytes replies :=
  ⟨fun requests _ _ h => (Session.isBlock_runLine requests h).framed, exists_frames⟩

end Tabular
