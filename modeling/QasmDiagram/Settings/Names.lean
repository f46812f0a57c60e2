/-
Module: QasmDiagram.Settings.Names
Purpose: The names by which a user may choose a style or a display mode: letter case does not
  matter, and in the names of styles neither do hyphens and underscores.
Trusted boundary: none
Main exports: NameError, Style.ofName, DisplayMode.ofName
-/
import QasmDiagram.Angle
import QasmDiagram.RenderRequest
import QasmDiagram.Text.Lowercase

namespace QasmDiagram

/-- A name that stands for nothing, as it was looked up. -/
inductive NameError where
  | style (name : String)
  | mode (name : String)
deriving Repr, Inhabited, DecidableEq

/-- The text shown to the user. -/
def NameError.message : NameError → String
  | .style name => "unknown style: '" ++ name ++ "'"
  | .mode name => "unknown format mode: '" ++ name ++ "'"

/-- The style of a name. -/
def Style.ofName (text : String) : Except NameError Style :=
  let name := String.ofList ((lowercase text).toList.filter fun c => c != '-' && c != '_')
  match name with
  | "default" => .ok .default
  | "blackandwhite" => .ok .blackAndWhite
  | "blackandwhitedark" => .ok .blackAndWhiteDark
  | _ => .error (.style name)

/-- The display mode of a name. -/
def DisplayMode.ofName (text : String) : Except NameError DisplayMode :=
  let name := lowercase text
  match DisplayMode.all.find? fun mode => mode.name == name with
  | some mode => .ok mode
  | none => .error (.mode name)

end QasmDiagram
