import Tabular.Server.Request
import Tabular.Session.Run
import Tabular.Text.Blank

/-!
# Connections

One client and its session. A line is trimmed and put into lower case before it is carried out, and a line of blanks
is passed over (`Session.runLine`). Every reply ends with an empty line, so the client can tell where it ends
(`frame`). A line that is too long is answered with an error and ends the connection, as the rest of it can no longer
be told from requests (`converse`).
-/

namespace Tabular

namespace Session

/-- The reply to a line, if it calls for one, and the session after it. -/
def runLine (s : Session) (line : String) : Option String × Session :=
  let request := Text.trim line
  if request.isEmpty then (none, s)
  else
    let (outcome, s) := s.run (Text.lowercase request)
    (some (reply outcome), s)

/-- The replies to lines in order. -/
def runLines (s : Session) : List String → List (Option String)
  | [] => []
  | line :: lines =>
    let (reply?, s) := s.runLine line
    reply? :: s.runLines lines

end Session

/-- A reply as it is sent: it ends with a newline, and an empty line follows. -/
def frame (reply : String) : String :=
  (if reply.toList.getLast? == some '\n' then reply else reply ++ "\n") ++ "\n"

/-- The error for a line that is too long. -/
def oversizedMessage : String :=
  "request exceeds " ++ requestLimit.repr ++ " bytes"

/-- The replies to the requests of a client in order. -/
def converse (s : Session) : List Request → List String
  | [] => []
  | .oversized :: _ => [oversizedMessage]
  | .line text :: rest =>
    match s.runLine text with
    | (none, s) => converse s rest
    | (some reply, s) => reply :: converse s rest

/-- Everything that the server sends to a client that sends these bytes and closes. -/
def serverOutput (bytes : List UInt8) : String :=
  String.join ((converse .new (requests bytes)).map frame)

end Tabular
