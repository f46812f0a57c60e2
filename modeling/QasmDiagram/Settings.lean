/-
Module: QasmDiagram.Settings
Purpose: Everything a run can be set up with, and how it is read from a record.
Trusted boundary: none
Main exports: LowerConfig.decode, Settings, Settings.decode
-/
import QasmDiagram.Circuit.Encoding
import QasmDiagram.Draft

namespace QasmDiagram

/-- The choices for building circuits from a record; what is missing keeps its default. -/
def LowerConfig.decode (j : Json) : Except DecodeError LowerConfig := do
  let field ← j.record ["format", "measurement"] 0
  let absent : LowerConfig := {}
  let format ← Json.withDefault absent.format (Json.choice DisplayMode.all DisplayMode.name)
    (field "format")
  let measurement ← Json.withDefault absent.measurement Json.asBool (field "measurement")
  return ⟨format, measurement⟩

/-- How circuits are built and in which style they are drawn. -/
structure Settings where
  lower : LowerConfig := {}
  style : Style := .default
deriving Repr, Inhabited, DecidableEq

/-- Settings from a record; what is missing keeps its default. -/
def Settings.decode (j : Json) : Except DecodeError Settings := do
  let field ← j.record ["lower", "style"] 0
  let absent : Settings := {}
  let lower ← Json.withDefault absent.lower LowerConfig.decode (field "lower")
  let style ← Json.withDefault absent.style (Json.choice Style.all Style.name) (field "style")
  return ⟨lower, style⟩

end QasmDiagram
