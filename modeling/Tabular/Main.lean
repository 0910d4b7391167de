import Std.Async.DNS
import Std.Async.TCP
import Tabular.Program

/-!
# Command line

Reads arguments, standard input and sockets, and leaves everything else to the library.
-/

open Std.Async Std.Net Tabular

namespace Tabular.CommandLine

/-- Reads a line as bytes, without its newline; none if the input has ended. -/
partial def readLine? (input : IO.FS.Stream) (line : List UInt8 := []) : IO (Option (List UInt8)) := do
  match (← input.read 1).toList with
  | [] => return if line.isEmpty then none else some line.reverse
  | b :: _ => if b == newline then return some line.reverse else readLine? input (b :: line)

/-- Prompts for lines and answers them until the input ends or asks for the end. -/
partial def interact (input output : IO.FS.Stream) (r : Repl) : IO Repl.Ending := do
  output.putStr r.prompt
  output.flush
  match ← readLine? input with
  | none => return .finished
  | some bytes =>
    match Text.decodeStrict? bytes with
    | none => return .malformed
    | some line =>
      match r.feed line with
      | none => return .finished
      | some (reply?, r) =>
        output.putStr ((reply?.map frame).getD "")
        interact input output r

/-- Answers the requests of one client until it closes or sends a line that is too long; `pending` are the bytes that
have come and have not been looked at. -/
partial def talk (client : TCP.Socket.Client) (s : Session) (pending : List UInt8) (closed : Bool) : IO Unit := do
  if pending.contains newline || pending.length > requestLimit || (closed && !pending.isEmpty) then
    let piece := firstPiece pending
    match Request.ofPiece piece with
    | .oversized =>
      (client.send (frame oversizedMessage).toUTF8).block
      client.shutdown.block
    | .line text =>
      let (reply?, s) := s.runLine text
      match reply? with
      | some reply => (client.send (frame reply).toUTF8).block
      | none => pure ()
      talk client s (pending.drop piece.length) closed
  else if closed then client.shutdown.block
  else
    match ← (client.recv? 4096).block with
    | some bytes => talk client s (pending ++ bytes.toList) false
    | none => talk client s pending true

/-- Accepts clients forever, each with a session of its own. -/
partial def acceptClients (server : TCP.Socket.Server) : IO UInt32 := do
  try
    let client ← server.accept.block
    let _ ← IO.asTask (talk client Session.new [] false)
  catch e =>
    IO.eprintln e
  acceptClients server

/-- A server that listens on the first of the addresses on which this is possible. -/
def listenOn (port : UInt16) : List IPAddr → IO TCP.Socket.Server
  | [] => throw (.userError "no address to listen on")
  | address :: addresses =>
    try
      let server ← TCP.Socket.Server.mk
      server.bind (match address with
        | .v4 a => .v4 ⟨a, port⟩
        | .v6 a => .v6 ⟨a, port⟩)
      server.listen 128
      pure server
    catch e => if addresses.isEmpty then throw e else listenOn port addresses

/-- Listens as the options say. -/
def listen (options : Options) : IO UInt32 := do
  try
    let addresses ← (DNS.getAddrInfo options.host "").block
    let server ← listenOn options.port.toUInt16 addresses.toList
    acceptClients server
  catch e =>
    IO.eprintln e
    return 102

end Tabular.CommandLine

open Tabular.CommandLine

/-- Runs the program. -/
def main (arguments : List String) : IO UInt32 := do
  let output ← IO.getStdout
  match Invocation.ofArguments arguments with
  | .run options =>
    if options.repl then
      output.putStr Repl.banner
      return (← interact (← IO.getStdin) output .new).exitCode
    else listen options
  | .version => do
    output.putStr versionLine
    return 0
  | .help => do
    output.putStr usage
    return 0
  | .refused => do
    IO.eprintln "error: the arguments cannot be accepted (see --help)"
    return 2
