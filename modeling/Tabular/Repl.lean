import Tabular.Server.Connection

/-!
# Reading requests from a terminal

The loop that prompts for lines, joins them until one ends with a semicolon, and carries out what has been joined. The
prompt shows whether a request is under way. `.exit` and `.quit` end the loop, also within a request.

What the user sees is a list of exchanges (`Repl.run`), one for each prompt: the prompt, and the reply that the line
typed after it called for.
-/

namespace Tabular

/-- A session and the part of a request that has been typed so far. -/
structure Repl where
  session : Session
  buffer : String

namespace Repl

/-- A new session in which nothing has been typed. -/
def new : Repl :=
  ⟨.new, ""⟩

/-- The text with which the loop starts. -/
def banner : String :=
  "sqlinear REPL (type '.exit' or '.quit' to stop)\n"

/-- The prompt for the next line. -/
def prompt (r : Repl) : String :=
  if r.buffer.isEmpty then "sql> " else "...  "

/-- Whether a line without the blanks around it ends the loop. -/
def isExit (line : String) : Bool :=
  line == ".exit" || line == ".quit"

/-- What has been typed so far with one more line. -/
def join (buffer line : String) : String :=
  if buffer.isEmpty then line else buffer ++ " " ++ line

/-- Whether a line without the blanks around it completes a request. -/
def completes (line : String) : Bool :=
  line.toList.getLast? == some ';'

/-- Takes one line: the reply that it calls for and what comes after it, nothing if the line ends the loop. -/
def feed (r : Repl) (line : String) : Option (Option String × Repl) :=
  let line := Text.trim line
  if isExit line then none
  else
    let buffer := join r.buffer line
    if completes line then
      let (reply?, session) := r.session.runLine buffer
      some (reply?, ⟨session, ""⟩)
    else some (none, { r with buffer })

/-- A prompt and the reply to the line after it. -/
structure Exchange where
  prompt : String
  reply? : Option String
deriving DecidableEq, Repr

/-- An exchange as it is printed. -/
def Exchange.text (e : Exchange) : String :=
  e.prompt ++ (e.reply?.map frame).getD ""

/-- How the loop comes to its end. -/
inductive Ending where
  /-- The input ended or asked for the end. -/
  | finished
  /-- A line of the input is not text. -/
  | malformed
deriving DecidableEq, Repr

/-- The exit code of a program that has run the loop. -/
def Ending.exitCode : Ending → UInt32
  | finished => 0
  | malformed => 1

/-- Runs the loop on lines, of which a missing one cannot be read as text. -/
def run (r : Repl) : List (Option String) → List Exchange × Ending
  | [] => ([⟨r.prompt, none⟩], .finished)
  | none :: _ => ([⟨r.prompt, none⟩], .malformed)
  | some line :: lines =>
    match r.feed line with
    | none => ([⟨r.prompt, none⟩], .finished)
    | some (reply?, r') =>
      let (exchanges, ending) := r'.run lines
      (⟨r.prompt, reply?⟩ :: exchanges, ending)

/-- The lines of the input as bytes, without the newlines that end them. What follows the last newline is a line if
it is not empty. -/
def splitLines : List UInt8 → List (List UInt8)
  | [] => []
  | b :: bs =>
    if b == newline then [] :: splitLines bs
    else
      match splitLines bs with
      | [] => [[b]]
      | line :: lines => (b :: line) :: lines

/-- Runs the loop in a new session on all of the input: what is printed, and how it ends. -/
def transcript (input : List UInt8) : String × Ending :=
  let (exchanges, ending) := Repl.new.run ((splitLines input).map Text.decodeStrict?)
  (banner ++ String.join (exchanges.map (·.text)), ending)

end Repl
end Tabular
