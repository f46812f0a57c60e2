/-
Module: QasmDiagram.RenderRequest
Purpose: What a drawing program is handed: a circuit and the name of a visual style.
Trusted boundary: none
Main exports: Style, RenderRequest
-/
import QasmDiagram.Circuit

namespace QasmDiagram

/-- The visual styles. -/
inductive Style where
  | default
  | blackAndWhite
  | blackAndWhiteDark
deriving Repr, Inhabited, DecidableEq

/-- The name of a style. -/
def Style.name : Style → String
  | .default => "Default"
  | .blackAndWhite => "BlackAndWhite"
  | .blackAndWhiteDark => "BlackAndWhiteDark"

/-- Every style once. -/
def Style.all : List Style :=
  [.default, .blackAndWhite, .blackAndWhiteDark]

/-- A circuit and the style to draw it in. -/
structure RenderRequest where
  circuit : Circuit
  style : Style
deriving DecidableEq

end QasmDiagram
