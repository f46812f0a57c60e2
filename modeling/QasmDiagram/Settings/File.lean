/-
Module: QasmDiagram.Settings.File
Purpose: Settings as they are written in a settings file. Names are exact here, what is missing
  keeps its default, and entries of other names do not matter.
Trusted boundary: none
Main exports: Settings.ofYaml?, Settings.ofText?, Settings.withOverrides
-/
import QasmDiagram.Settings
import QasmDiagram.Yaml.Reader

namespace QasmDiagram

namespace Yaml

/-- The text of a scalar, whatever its tag and style. -/
def scalarText? (anchors : List (Nat × Yaml)) (y : Yaml) : Option String :=
  match y.content anchors with
  | .scalar _ _ text => some text
  | _ => none

/-- The entries of a record, by name. A mapping gives them by name, none of those in `names` twice,
and all its keys are scalars; a sequence gives them by position in the order of `names`, and a
missing value has none. -/
def record? (names : List String) (anchors : List (Nat × Yaml)) (y : Yaml) :
    Option (String → Option Yaml) :=
  match y.content anchors with
  | .mapping entries => do
      let keys ← entries.mapM fun entry => entry.1.scalarText? anchors
      if names.all fun name => keys.count name ≤ 1 then
        some fun name => (keys.zip (entries.map Prod.snd)).lookup name
      else none
  | .sequence items =>
      if items.length ≤ names.length then some fun name => items[names.idxOf name]?
      else none
  | node => if node.isMissing then some fun _ => none else none

/-- The name in a tag that begins with an exclamation mark; that mark alone is its own name. -/
def tagName? (tag : List UInt8) : Option String :=
  match tag with
  | 0x21 :: rest => String.fromUTF8? ⟨(if rest.isEmpty then tag else rest).toArray⟩
  | _ => none

/-- Whether a scalar of this style and text stands for no value. -/
def isNull (style : ScalarStyle) (text : String) : Bool :=
  style == .plain && ["", "~", "null", "Null", "NULL"].contains text

/-- One of the given values, named by the text of a scalar or by the tag of a null. -/
def choice? {α : Type} (all : List α) (name : α → String) (anchors : List (Nat × Yaml)) (y : Yaml) :
    Option α :=
  match y.content anchors with
  | .scalar tag style text =>
      match tag.bind tagName? with
      | some chosen =>
          if isNull style text then all.find? fun value => name value == chosen else none
      | none => all.find? fun value => name value == text
  | _ => none

/-- The tag of truth values. -/
def boolTag : List UInt8 :=
  "tag:yaml.org,2002:bool".toUTF8.toList

/-- The truth value of a word. -/
def boolOfText? (text : String) : Option Bool :=
  if ["true", "True", "TRUE"].contains text then some true
  else if ["false", "False", "FALSE"].contains text then some false
  else none

/-- A truth value: a plain scalar, or a literal one with the tag of truth values. -/
def bool? (anchors : List (Nat × Yaml)) (y : Yaml) : Option Bool :=
  match y.content anchors with
  | .scalar tag style text =>
      if style = .plain ∨ (style = .literal ∧ tag = some boolTag) then boolOfText? text else none
  | _ => none

/-- A value with a default for the case that it is missing. -/
def withDefault? {α : Type} (absent : α) (content : Yaml → Option α) : Option Yaml → Option α
  | none => some absent
  | some value => content value

end Yaml

/-- The choices for building circuits, from a part of a settings file. -/
def LowerConfig.ofYaml? (anchors : List (Nat × Yaml)) (y : Yaml) : Option LowerConfig := do
  let entry ← y.record? ["format", "measurement"] anchors
  let absent : LowerConfig := {}
  let format ← Yaml.withDefault? absent.format
    (Yaml.choice? DisplayMode.all DisplayMode.name anchors) (entry "format")
  let measurement ← Yaml.withDefault? absent.measurement (Yaml.bool? anchors) (entry "measurement")
  return ⟨format, measurement⟩

namespace Settings

/-- Settings from the document of a settings file. -/
def ofYaml? (y : Yaml) : Option Settings := do
  let anchors := y.anchors
  let entry ← y.record? ["lower", "style"] anchors
  let absent : Settings := {}
  let lower ← Yaml.withDefault? absent.lower (LowerConfig.ofYaml? anchors) (entry "lower")
  let style ← Yaml.withDefault? absent.style (Yaml.choice? Style.all Style.name anchors)
    (entry "style")
  return ⟨lower, style⟩

/-- Settings from the text of a settings file. -/
def ofText? (text : String) : Option Settings :=
  (Yaml.ofText? text).bind ofYaml?

/-- Settings with the choices of a user put over them. -/
def withOverrides (s : Settings) (format : Option DisplayMode) (rejectMeasurement : Bool)
    (style : Option Style) : Settings where
  lower := {
    format := format.getD s.lower.format
    measurement := s.lower.measurement && !rejectMeasurement }
  style := style.getD s.style

end Settings

end QasmDiagram
