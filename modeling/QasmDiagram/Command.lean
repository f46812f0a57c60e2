/-
Module: QasmDiagram.Command
Purpose: The command line program: settings, source, render request, output. It is written over an
  abstract host, so the same program runs on real files and on a directory held as a value.
Trusted boundary: none
Main exports: FileFault, Host, CommandError, Report, Command.run
-/
import QasmDiagram.Command.Arguments
import QasmDiagram.RenderRequest.Source
import QasmDiagram.Settings.File

namespace QasmDiagram

/-- Why a file cannot be read or written. -/
inductive FileFault where
  | missing
  | notFolder
  | isFolder
  | nameTooLong
  | other (description : String)
deriving Repr, Inhabited, DecidableEq

/-- The wording of a fault. -/
def FileFault.describe : FileFault → String
  | .missing => "No such file or directory (os error 2)"
  | .notFolder => "Not a directory (os error 20)"
  | .isFolder => "Is a directory (os error 21)"
  | .nameTooLong => "File name too long (os error 36)"
  | .other description => description

/-- Whether the fault says that there is nothing at the path. -/
def FileFault.isAbsence : FileFault → Bool
  | .missing | .notFolder | .nameTooLong => true
  | .isFolder | .other _ => false

/-- What the program needs of its surroundings: its standard input and files by path. -/
structure Host (m : Type → Type) where
  input : m ByteArray
  readFile : String → m (Except FileFault ByteArray)
  writeFile : String → String → m (Except FileFault Unit)

/-- Why something that was to be read gives no text. -/
inductive ReadFault where
  | file (fault : FileFault)
  | notText
deriving Repr, Inhabited, DecidableEq

/-- The wording of a fault. -/
def ReadFault.describe : ReadFault → String
  | .file fault => fault.describe
  | .notText => "stream did not contain valid UTF-8"

/-- Why a run fails. -/
inductive CommandError where
  | settingsUnreadable (path : String) (fault : ReadFault)
  | settingsInvalid (path : String)
  | inputMissing (path : String)
  | inputUnreadable (path : String) (fault : ReadFault)
  | standardInputUnreadable
  | source (e : SourceError)
  | outputUnwritable (path : String) (fault : FileFault)
deriving Repr, Inhabited, DecidableEq

/-- The text shown to the user. -/
def CommandError.message : CommandError → String
  | .settingsUnreadable path fault =>
      "Failed to read settings file: " ++ path ++ ": " ++ fault.describe
  | .settingsInvalid path => "Invalid settings file: " ++ path
  | .inputMissing path => "File not found: " ++ path
  | .inputUnreadable path fault => "Failed to read file: " ++ path ++ ": " ++ fault.describe
  | .standardInputUnreadable => "Failed to read from stdin: " ++ ReadFault.notText.describe
  | .source e => e.message
  | .outputUnwritable path fault => "Failed to write file: " ++ path ++ ": " ++ fault.describe

/-- What a finished program leaves besides files: its exit code and its two outputs. -/
structure Report where
  exitCode : Nat
  output : String
  errors : String
deriving Repr, Inhabited, DecidableEq

namespace Command

/-- The program's name and version. -/
def versionText : String := "qasmviz 0.3.0\n"

/-- The explanation of the arguments. -/
def helpText : String :=
  String.join [
    "qasmviz - lower OpenQASM programs into renderable circuit models\n\n",
    "Usage: qasmviz [OPTIONS] <INPUT>\n\n",
    "Arguments:\n",
    "  <INPUT>  Input file (`-` for stdin)\n\n",
    "Options:\n",
    "  -v, --verbose...       Increase verbosity (-v, -vv, -vvv)\n",
    "  -o, --output <OUTPUT>  Output file (stdout if omitted)\n",
    "  -m, --mode <MODE>      Angle formatting (numeric, symbolic)\n",
    "      --no-measure       Reject measurement statements\n",
    "  -s, --style <STYLE>    Renderer style (default, black-and-white, black-and-white-dark)\n",
    "  -c, --config <CONFIG>  YAML settings file; flags override its values ",
    "[env: QASMVIZ_CONFIG=]\n",
    "      --pretty           Indent the JSON output\n",
    "  -h, --help             Print help\n",
    "  -V, --version          Print version\n"]

/-- The input that stands for standard input. -/
def standardInput : String := "-"

/-- The text of bytes that were read. -/
def textOf : Except FileFault ByteArray → Except ReadFault String
  | .error fault => .error (.file fault)
  | .ok bytes =>
      match String.fromUTF8? bytes with
      | some text => .ok text
      | none => .error .notText

/-- The settings of a run, from what reading its settings file gave. -/
def settingsOf (invocation : Invocation) (file : Option (String × Except FileFault ByteArray)) :
    Except CommandError Settings := do
  let base ←
    match file with
    | none => pure {}
    | some (path, content) =>
        match textOf content with
        | .error fault => throw (.settingsUnreadable path fault)
        | .ok text =>
            match Settings.ofText? text with
            | some settings => pure settings
            | none => throw (.settingsInvalid path)
  return base.withOverrides invocation.mode invocation.rejectMeasurement invocation.style

/-- The source of a run, from what reading its input gave. -/
def sourceOf (input : String) (content : Except FileFault ByteArray) :
    Except CommandError String :=
  match textOf content with
  | .ok text => .ok text
  | .error fault =>
      if input = standardInput then .error .standardInputUnreadable
      else
        match fault with
        | .file fault =>
            if fault.isAbsence then .error (.inputMissing input)
            else .error (.inputUnreadable input (.file fault))
        | .notText => .error (.inputUnreadable input .notText)

/-- The note about a finished run. -/
def summary (invocation : Invocation) (request : RenderRequest) : String :=
  "✓ " ++ invocation.input ++ ": " ++ toString request.circuit.qubits.size ++ " qubits, "
    ++ toString request.circuit.operations.size ++ " operations ("
    ++ toString (request.circuit.countGate .measure) ++ " measured), style " ++ request.style.name
    ++ "\n"
    ++ (match invocation.output with
      | none => ""
      | some path => "  Output: " ++ path ++ "\n")

/-- The report of a failed run. -/
def failed (e : CommandError) : Report :=
  ⟨1, "", "Error: " ++ e.message ++ "\n"⟩

/-- The layout that a run was asked for. -/
def layoutOf (invocation : Invocation) : Json.Layout :=
  if invocation.pretty then .indented else .compact

section

variable {m : Type → Type} [Monad m]

/-- Reads the settings file, if there is one. -/
def readSettings (host : Host m) (invocation : Invocation) :
    m (Option (String × Except FileFault ByteArray)) :=
  match invocation.config with
  | none => return none
  | some path => return some (path, ← host.readFile path)

/-- Reads the input. -/
def readInput (host : Host m) (invocation : Invocation) : m (Except FileFault ByteArray) := do
  if invocation.input = standardInput then return .ok (← host.input)
  else host.readFile invocation.input

/-- Writes the request to the output of a run. -/
def deliver (host : Host m) (invocation : Invocation) (request : RenderRequest) : m Report := do
  let text := request.text (layoutOf invocation)
  match invocation.output with
  | none => return ⟨0, text, summary invocation request⟩
  | some path =>
      match ← host.writeFile path text with
      | .ok () => return ⟨0, "", summary invocation request⟩
      | .error fault => return failed (.outputUnwritable path fault)

/-- Carries out a run. The settings are read before the input, and nothing is written before all
else has succeeded. -/
def carryOut (host : Host m) (invocation : Invocation) : m Report := do
  match settingsOf invocation (← readSettings host invocation) with
  | .error e => return failed e
  | .ok settings =>
      match sourceOf invocation.input (← readInput host invocation) with
      | .error e => return failed e
      | .ok source =>
          match RenderRequest.ofSource settings source with
          | .error e => return failed (.source e)
          | .ok request => deliver host invocation request

/-- The whole program. `environment` is the settings file that the environment names. -/
def run (host : Host m) (environment : Option String) (arguments : List String) : m Report :=
  match Directive.ofArguments environment arguments with
  | .error e => return ⟨2, "", "error: " ++ e.message ++ "\n"⟩
  | .ok .version => return ⟨0, versionText, ""⟩
  | .ok .help => return ⟨0, helpText, ""⟩
  | .ok (.run invocation) => carryOut host invocation

end

end Command

end QasmDiagram
