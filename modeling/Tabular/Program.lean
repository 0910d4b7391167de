import Tabular.Options
import Tabular.Repl

/-!
# The program

What a run of the program prints and with which code it ends, for the runs that need no network: those that read
requests from standard input, tell the version or the options, or refuse their arguments.
-/

namespace Tabular

/-- The code with which the program ends and what it has printed. -/
structure ProgramRun where
  exitCode : UInt32
  output : String
deriving DecidableEq, Repr

/-- The options as the program lists them. -/
def usage : String :=
  "In-memory SQL server speaking newline-delimited requests over TCP\n\n" ++
  "Options:\n" ++
  "      --host <HOST>  Address to listen on [default: localhost]\n" ++
  "  -p, --port <PORT>  Port to listen on, privileged ports are refused [default: 9094]\n" ++
  "      --repl         Read queries from stdin instead of listening\n" ++
  "  -v, --verbose...   More logging, repeat for more\n" ++
  "  -h, --help         Print help\n" ++
  "  -V, --version      Print version\n"

/-- How a run ends, given all of its input; nothing if it would listen on a port. -/
def Invocation.programRun? (invocation : Invocation) (input : List UInt8) : Option ProgramRun :=
  match invocation with
  | .run options =>
    if options.repl then
      let (output, ending) := Repl.transcript input
      some ⟨ending.exitCode, output⟩
    else none
  | .version => some ⟨0, versionLine⟩
  | .help => some ⟨0, usage⟩
  | .refused => some ⟨2, ""⟩

end Tabular
