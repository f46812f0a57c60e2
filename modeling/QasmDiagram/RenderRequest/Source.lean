/-
Module: QasmDiagram.RenderRequest.Source
Purpose: From source text to a render request, and the text of a request.
Trusted boundary: none
Main exports: SourceError, RenderRequest.ofSource, RenderRequest.text
-/
import QasmDiagram.Program.Reader
import QasmDiagram.Settings

namespace QasmDiagram

/-- Why a source text gives no render request: the stage that refused it, and its cause. -/
inductive SourceError where
  | parse (e : ParseError)
  | lower (e : LowerError)
deriving Repr, Inhabited, DecidableEq

/-- The text shown to the user. -/
def SourceError.message : SourceError → String
  | .parse e => "Parse error: " ++ e.message
  | .lower e => "Lowering error: " ++ e.message

namespace RenderRequest

/-- The render request of a source text. -/
def ofSource (settings : Settings) (source : String) : Except SourceError RenderRequest :=
  match Program.ofText source with
  | .error e => .error (.parse e)
  | .ok program =>
      match program.circuit settings.lower with
      | .error e => .error (.lower e)
      | .ok circuit => .ok ⟨circuit, settings.style⟩

/-- The text of a request, which ends its last line. -/
def text (layout : Json.Layout) (request : RenderRequest) : String :=
  request.encode.render layout ++ "\n"

end RenderRequest

end QasmDiagram
