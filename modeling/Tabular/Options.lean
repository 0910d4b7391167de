import Tabular.Text.Integer

/-!
# Program options

The arguments with which the program is started. They are read from left to right (`Invocation.ofArguments`): the
first that cannot be accepted refuses the whole, unless the version or the help was asked for before it. Options with
a value may be given once, as `--port 5000`, `--port=5000`, `-p 5000`, `-p5000` or `-p=5000`; flags of one letter may
share a dash.
-/

namespace Tabular

/-- How much the program logs. -/
inductive LogLevel where
  | info
  | debug
  | trace
deriving DecidableEq, Repr, Inhabited

namespace LogLevel

/-- The level after so many requests for more. -/
def ofVerbosity : Nat → LogLevel
  | 0 => info
  | 1 => debug
  | _ => trace

/-- The name of a level. -/
def name : LogLevel → String
  | info => "info"
  | debug => "debug"
  | trace => "trace"

end LogLevel

/-- What the arguments say. -/
structure Options where
  /-- The address to listen on. -/
  host? : Option String := none
  /-- The port to listen on. -/
  port? : Option Nat := none
  /-- Whether requests are read from standard input instead. -/
  repl : Bool := false
  /-- How often more logging was asked for. -/
  verbosity : Nat := 0
deriving DecidableEq, Repr

/-- The options that take a value. -/
inductive ValueOption where
  | host
  | port
deriving DecidableEq, Repr

namespace Options

/-- The address to listen on, `localhost` if none is given. -/
def host (o : Options) : String :=
  o.host?.getD "localhost"

/-- The port to listen on, 9094 if none is given. -/
def port (o : Options) : Nat :=
  o.port?.getD 9094

/-- A port in text: an integer from 1024 to 65535. -/
def readPort? (text : String) : Option Nat :=
  match Text.readInteger? text with
  | some n => if 1024 ≤ n.toInt ∧ n.toInt ≤ 65535 then some n.toInt.toNat else none
  | none => none

/-- Takes the value of an option that has not been given yet. -/
def assign (o : Options) (option : ValueOption) (value : String) : Option Options :=
  match option with
  | .host => if o.host?.isSome then none else some { o with host? := some value }
  | .port => if o.port?.isSome then none else (readPort? value).map fun port => { o with port? := some port }

end Options

/-- What the program is started for. -/
inductive Invocation where
  /-- To take requests. -/
  | run (options : Options)
  /-- To tell its version. -/
  | version
  /-- To tell its options. -/
  | help
  /-- The arguments cannot be accepted. -/
  | refused
deriving DecidableEq, Repr

/-- What reading one argument leads to. -/
inductive ArgumentStep where
  /-- The argument is complete. -/
  | next (options : Options)
  /-- The next argument is the value of an option. -/
  | await (options : Options) (option : ValueOption)
  /-- The arguments after this one do not matter. -/
  | stop (invocation : Invocation)
deriving DecidableEq, Repr

namespace ArgumentStep

/-- Goes on with the options if there are any, and refuses the arguments otherwise. -/
def ofOptions? : Option Options → ArgumentStep
  | some o => next o
  | none => stop .refused

/-- Reads the letters after a single dash. -/
def ofLetters (o : Options) : List Char → ArgumentStep
  | [] => next o
  | 'v' :: cs => ofLetters { o with verbosity := o.verbosity + 1 } cs
  | 'p' :: [] => await o .port
  | 'p' :: '=' :: cs => ofOptions? (o.assign .port (String.ofList cs))
  | 'p' :: cs => ofOptions? (o.assign .port (String.ofList cs))
  | 'V' :: _ => stop .version
  | 'h' :: _ => stop .help
  | _ :: _ => stop .refused

/-- Reads the name after two dashes that has no value attached. -/
def ofName (o : Options) (name : String) : ArgumentStep :=
  if name == "repl" then if o.repl then stop .refused else next { o with repl := true }
  else if name == "verbose" then next { o with verbosity := o.verbosity + 1 }
  else if name == "host" then await o .host
  else if name == "port" then await o .port
  else if name == "version" then stop .version
  else if name == "help" then stop .help
  else stop .refused

/-- Reads the name after two dashes with the value attached to it. -/
def ofAssignment (o : Options) (name value : String) : ArgumentStep :=
  if name == "host" then ofOptions? (o.assign .host value)
  else if name == "port" then ofOptions? (o.assign .port value)
  else stop .refused

/-- Reads an argument that is not the value of the option before it. -/
def ofArgument (o : Options) (argument : String) : ArgumentStep :=
  match argument.toList with
  | '-' :: '-' :: cs =>
    match cs.dropWhile (· != '=') with
    | [] => ofName o (String.ofList cs)
    | _ :: value => ofAssignment o (String.ofList (cs.takeWhile (· != '='))) (String.ofList value)
  | '-' :: c :: cs => ofLetters o (c :: cs)
  | _ => stop .refused

end ArgumentStep

namespace Invocation

/-- Whether an argument can be the value of the option before it: it starts with no dash, or is a dash alone. -/
def isValue (argument : String) : Bool :=
  argument.toList.head? != some '-' || argument == "-"

/-- Reads the arguments after those that gave the options; `awaiting` is the option whose value comes first. -/
def read (o : Options) (awaiting : Option ValueOption) : List String → Invocation
  | [] => if awaiting.isSome then refused else run o
  | argument :: arguments =>
    match awaiting with
    | some option =>
      match if isValue argument then o.assign option argument else none with
      | some o => read o none arguments
      | none => refused
    | none =>
      if argument == "--" then if arguments.isEmpty then run o else refused
      else
        match ArgumentStep.ofArgument o argument with
        | .next o => read o none arguments
        | .await o option => read o (some option) arguments
        | .stop invocation => invocation

/-- What the arguments ask for. -/
def ofArguments (arguments : List String) : Invocation :=
  read {} none arguments

end Invocation

/-- The version that the program tells. -/
def versionLine : String :=
  "sqlinear 0.1.0\n"

end Tabular
