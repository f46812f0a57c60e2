/-
Module: QasmDiagram.Command.Arguments
Purpose: The arguments of the command line: flags, options with a value, and one input. They are
  taken from left to right, and the first that decides the outcome does so.
Trusted boundary: none
Main exports: Invocation, Directive, UsageError, Directive.ofArguments
-/
import QasmDiagram.Settings.Names

namespace QasmDiagram

/-- What a run was asked to do. -/
structure Invocation where
  input : String
  output : Option String
  mode : Option DisplayMode
  rejectMeasurement : Bool
  style : Option Style
  config : Option String
  pretty : Bool
deriving Repr, Inhabited, DecidableEq

/-- What the arguments ask for: a run, the version, or an explanation of the arguments. -/
inductive Directive where
  | run (invocation : Invocation)
  | version
  | help
deriving Repr, Inhabited, DecidableEq

/-- The options that take a value. -/
inductive ValueOption where
  | output
  | mode
  | style
  | config
deriving Repr, Inhabited, DecidableEq

/-- The flags. -/
inductive Flag where
  | verbose
  | rejectMeasurement
  | pretty
  | help
  | version
deriving Repr, Inhabited, DecidableEq

/-- Why arguments are refused. -/
inductive UsageError where
  | unknown (argument : String)
  | repeated (argument : String)
  | unexpectedValue (argument : String)
  | valueMissing (option : ValueOption)
  | invalidName (e : NameError)
  | emptyConfig
  | inputMissing
deriving Repr, Inhabited, DecidableEq

/-- The long name of an option. -/
def ValueOption.name : ValueOption → String
  | .output => "output"
  | .mode => "mode"
  | .style => "style"
  | .config => "config"

/-- The text shown to the user. -/
def UsageError.message : UsageError → String
  | .unknown argument => "unexpected argument '" ++ argument ++ "' found"
  | .repeated argument => "the argument '" ++ argument ++ "' cannot be used multiple times"
  | .unexpectedValue argument => "unexpected value in '" ++ argument ++ "'"
  | .valueMissing option =>
      "a value is required for '--" ++ option.name ++ "' but none was supplied"
  | .invalidName e => e.message
  | .emptyConfig => "a value is required for '--config' but none was supplied"
  | .inputMissing => "the following required arguments were not provided: <INPUT>"

/-- The ways in which reading arguments ends before the last of them. -/
inductive Interruption where
  | version
  | help
  | refused (e : UsageError)
deriving Repr, Inhabited, DecidableEq

/-- What the arguments so far have given. -/
structure Given where
  input : Option String := none
  output : Option String := none
  mode : Option DisplayMode := none
  rejectMeasurement : Bool := false
  style : Option Style := none
  config : Option String := none
  pretty : Bool := false
deriving Repr, Inhabited, DecidableEq

namespace Given

/-- A value that may be given once. -/
def once {α : Type} (argument : String) (old : Option α) (value : α) :
    Except Interruption (Option α) :=
  match old with
  | none => .ok (some value)
  | some _ => .error (.refused (.repeated argument))

/-- A value that must be a name. -/
def named {α : Type} (value : Except NameError α) : Except Interruption α :=
  match value with
  | .ok value => .ok value
  | .error e => .error (.refused (.invalidName e))

/-- Takes the value of an option. -/
def setOption (g : Given) (option : ValueOption) (value : String) : Except Interruption Given :=
  match option with
  | .output => do
      return { g with output := ← once option.name g.output value }
  | .mode => do
      return { g with mode := ← once option.name g.mode (← named (DisplayMode.ofName value)) }
  | .style => do
      return { g with style := ← once option.name g.style (← named (Style.ofName value)) }
  | .config => do
      if value.isEmpty then throw (.refused .emptyConfig)
      return { g with config := ← once option.name g.config value }

/-- Takes a flag. Only verbosity may be asked for repeatedly. -/
def setFlag (g : Given) : Flag → Except Interruption Given
  | .verbose => .ok g
  | .rejectMeasurement =>
      if g.rejectMeasurement then .error (.refused (.repeated "--no-measure"))
      else .ok { g with rejectMeasurement := true }
  | .pretty =>
      if g.pretty then .error (.refused (.repeated "--pretty")) else .ok { g with pretty := true }
  | .help => .error .help
  | .version => .error .version

/-- Takes the input, of which there is one. -/
def setInput (g : Given) (value : String) : Except Interruption Given :=
  match g.input with
  | none => .ok { g with input := some value }
  | some _ => .error (.refused (.unknown value))

end Given

/-- A flag, or an option that takes a value. -/
inductive Switch where
  | flag (f : Flag)
  | valued (option : ValueOption)
deriving Repr, Inhabited, DecidableEq

/-- The switch of a long name. -/
def Switch.ofLong? (name : String) : Option Switch :=
  match name with
  | "verbose" => some (.flag .verbose)
  | "no-measure" => some (.flag .rejectMeasurement)
  | "pretty" => some (.flag .pretty)
  | "help" => some (.flag .help)
  | "version" => some (.flag .version)
  | "output" => some (.valued .output)
  | "mode" => some (.valued .mode)
  | "style" => some (.valued .style)
  | "config" => some (.valued .config)
  | _ => none

/-- The switch of a letter. -/
def Switch.ofShort? (letter : Char) : Option Switch :=
  match letter with
  | 'v' => some (.flag .verbose)
  | 'h' => some (.flag .help)
  | 'V' => some (.flag .version)
  | 'o' => some (.valued .output)
  | 'm' => some (.valued .mode)
  | 's' => some (.valued .style)
  | 'c' => some (.valued .config)
  | _ => none

/-- How far reading has come: what is given, an option that still waits for its value, and whether
everything that follows is input. -/
structure Progress where
  given : Given := {}
  waiting : Option ValueOption := none
  inputOnly : Bool := false
deriving Repr, Inhabited, DecidableEq

namespace Progress

/-- Takes an argument that opens with two hyphens, given without them. A value may follow behind an
equals sign. -/
def takeLong (p : Progress) (argument : List Char) : Except Interruption Progress :=
  let name := String.ofList (argument.takeWhile (· != '='))
  match Switch.ofLong? name, argument.dropWhile (· != '=') with
  | none, _ => .error (.refused (.unknown ("--" ++ name)))
  | some (.flag f), [] => do
      return { p with given := ← p.given.setFlag f }
  | some (.flag _), _ => .error (.refused (.unexpectedValue ("--" ++ name)))
  | some (.valued option), [] => .ok { p with waiting := some option }
  | some (.valued option), _ :: value => do
      return { p with given := ← p.given.setOption option (String.ofList value) }

/-- Takes letters behind one hyphen. What follows the letter of an option is its value, and an
equals sign before it does not count. -/
def takeShort (p : Progress) : List Char → Except Interruption Progress
  | [] => .ok p
  | letter :: rest =>
      match Switch.ofShort? letter, rest with
      | none, _ => .error (.refused (.unknown ("-" ++ String.singleton letter)))
      | some (.flag f), rest =>
          match p.given.setFlag f with
          | .error e => .error e
          | .ok given => takeShort { p with given := given } rest
      | some (.valued option), [] => .ok { p with waiting := some option }
      | some (.valued option), '=' :: value => do
          return { p with given := ← p.given.setOption option (String.ofList value) }
      | some (.valued option), value => do
          return { p with given := ← p.given.setOption option (String.ofList value) }

/-- Takes one argument. A value that stands alone may not look like a switch, but a single hyphen
is a value. -/
def take (p : Progress) (argument : String) : Except Interruption Progress :=
  match p.waiting, p.inputOnly, argument.toList with
  | some option, _, '-' :: _ :: _ => .error (.refused (.valueMissing option))
  | some option, _, _ => do
      return { p with given := ← p.given.setOption option argument, waiting := none }
  | none, false, ['-', '-'] => .ok { p with inputOnly := true }
  | none, false, '-' :: '-' :: rest => p.takeLong rest
  | none, false, '-' :: letter :: rest => p.takeShort (letter :: rest)
  | none, _, _ => do
      return { p with given := ← p.given.setInput argument }

end Progress

/-- The config file to use: the one given, else the one of the environment. -/
def chosenConfig (given environment : Option String) : Except Interruption (Option String) :=
  match given, environment with
  | some path, _ => .ok (some path)
  | none, some "" => .error (.refused .emptyConfig)
  | none, path => .ok path

/-- The run that arguments ask for, unless they ask for something else first. -/
def Invocation.ofArguments (environment : Option String) (arguments : List String) :
    Except Interruption Invocation := do
  let p ← arguments.foldlM Progress.take {}
  match p.waiting with
  | some option => throw (.refused (.valueMissing option))
  | none =>
      let g := p.given
      let config ← chosenConfig g.config environment
      match g.input with
      | none => throw (.refused .inputMissing)
      | some input =>
          return {
            input := input
            output := g.output
            mode := g.mode
            rejectMeasurement := g.rejectMeasurement
            style := g.style
            config := config
            pretty := g.pretty }

/-- What arguments ask for. `environment` is the config file that the environment names. -/
def Directive.ofArguments (environment : Option String) (arguments : List String) :
    Except UsageError Directive :=
  match Invocation.ofArguments environment arguments with
  | .ok invocation => .ok (.run invocation)
  | .error .version => .ok .version
  | .error .help => .ok .help
  | .error (.refused e) => .error e

end QasmDiagram
