import Tabular.Proofs.Server.Requests
import Tabular.Proofs.Text.Encoding
import Tabular.Proofs.Text.Lines
import Tabular.Proofs.Token.Joining
import Tabular.Server.Connection

/-!
# Texts that are sent one per line

A client that sends texts with a newline behind each (`streamOf`) makes one request of each, if none has a newline in it
and none is too long (`requests_streamOf`). What it is sent are the replies that one new session gives to the texts
(`serverOutput_streamOf`).
-/

namespace Tabular

open Text

/-- The bytes of texts that are sent one per line. -/
def streamOf (texts : List String) : List UInt8 :=
  encode (String.join (texts.map (· ++ "\n")))

theorem encode_append_newline (text : String) : encode (text ++ "\n") = encode text ++ [newline] := by
  have hnewline : encode "\n" = [newline] := by decide +kernel
  rw [encode_append, hnewline]

theorem streamOf_cons (text : String) (texts : List String) :
    streamOf (text :: texts) = encode text ++ newline :: streamOf texts := by
  simp [streamOf, String.join_cons, encode_append (text ++ "\n"), encode_append_newline]

/-- Each text is one request, with its newline. -/
theorem requests_streamOf {texts : List String} (h : ∀ t ∈ texts, OneLine t)
    (hl : ∀ t ∈ texts, t.utf8ByteSize ≤ requestLimit) :
    requests (streamOf texts) = texts.map fun t => .line (t ++ "\n") := by
  induction texts with
  | nil => exact requests_nil
  | cons text texts ih =>
    obtain ⟨htext, htexts⟩ := List.forall_mem_cons.mp h
    obtain ⟨hsize, hsizes⟩ := List.forall_mem_cons.mp hl
    have hbody : newline ∉ encode text := newline_not_mem_encode htext
    have hlength : (encode text).length ≤ requestLimit := by rwa [length_encode]
    rw [streamOf_cons, requests_line hbody hlength, ← encode_append_newline, decodeLossy_encode, ih htexts hsizes,
      List.map_cons]

namespace Session

/-- The newline behind a text has no part in the reply. -/
theorem runLine_append_newline (s : Session) (text : String) : s.runLine (text ++ "\n") = s.runLine text := by
  have htrim : trim (text ++ "\n") = trim text := by
    rw [trim, trim, String.toList_append]
    exact congrArg String.ofList (trimBlanks_append_blank rfl text.toList)
  rw [runLine, runLine, htrim]

end Session

/-- Lines are answered by one session in order, as far as they call for a reply. -/
theorem converse_map_line (s : Session) (texts : List String) :
    converse s (texts.map fun t => .line (t ++ "\n")) = (s.runLines texts).filterMap id := by
  induction texts generalizing s with
  | nil => rfl
  | cons text texts ih =>
    rw [List.map_cons, converse, Session.runLine_append_newline, Session.runLines]
    cases s.runLine text with
    | mk reply? s' =>
      cases reply? with
      | none => simpa using ih s'
      | some reply => simpa using ih s'

/-- **Texts that are sent one per line are answered by one new session.** -/
theorem serverOutput_streamOf {texts : List String} (h : ∀ t ∈ texts, OneLine t)
    (hl : ∀ t ∈ texts, t.utf8ByteSize ≤ requestLimit) :
    serverOutput (streamOf texts) = String.join (((Session.new.runLines texts).filterMap id).map frame) := by
  rw [serverOutput, requests_streamOf h hl, converse_map_line]

end Tabular
