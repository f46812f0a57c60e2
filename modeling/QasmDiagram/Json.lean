/-
Module: QasmDiagram.Json
Purpose: JSON values and their text in two layouts: compact, and indented by two blanks a level.
Trusted boundary: none
Main exports: Json, Json.escape, Json.Layout, Json.render
-/

namespace QasmDiagram

/-- A JSON value. Whole numbers are values; a number with a fraction or exponent, and a negative
zero, keep their text. -/
inductive Json where
  | null
  | bool (value : Bool)
  | integer (value : Int)
  | real (text : String)
  | string (text : String)
  | array (items : List Json)
  | object (fields : List (String × Json))
deriving Repr, Inhabited

namespace Json

/-- The lower-case digit of a number below sixteen. -/
def hexDigit (n : Nat) : Char :=
  if n < 10 then Char.ofNat ('0'.toNat + n) else Char.ofNat ('a'.toNat + (n - 10))

/-- What a character is written as inside a string: quotation marks, backslashes and control
characters are escaped, with the short form where there is one. -/
def escape (c : Char) : List Char :=
  if c = '"' then ['\\', '"']
  else if c = '\\' then ['\\', '\\']
  else if c = '\x08' then ['\\', 'b']
  else if c = '\x0c' then ['\\', 'f']
  else if c = '\n' then ['\\', 'n']
  else if c = '\r' then ['\\', 'r']
  else if c = '\t' then ['\\', 't']
  else if c.toNat < 32 then
    ['\\', 'u', '0', '0', hexDigit (c.toNat / 16), hexDigit (c.toNat % 16)]
  else [c]

/-- Writes the characters of a string after `out`. -/
def writeChars (out : String) : List Char → String
  | [] => out
  | c :: rest => writeChars ((escape c).foldl String.push out) rest

/-- Writes a string with its quotation marks after `out`. -/
def writeString (out : String) (text : String) : String :=
  (writeChars (out.push '"') text.toList).push '"'

/-- The two layouts of a JSON text. -/
inductive Layout where
  | compact
  | indented
deriving Repr, Inhabited, DecidableEq

/-- What separates the members of an array or object from each other and from its brackets, `level`
levels deep. -/
def Layout.lineBreak (layout : Layout) (level : Nat) : String :=
  match layout with
  | .compact => ""
  | .indented => "\n".pushn ' ' (2 * level)

/-- What stands between the name of a field and its value. -/
def Layout.colon : Layout → String
  | .compact => ":"
  | .indented => ": "

mutual

/-- Writes a value that stands `level` levels deep after `out`. -/
def writeValue (layout : Layout) (level : Nat) (out : String) : Json → String
  | .null => out ++ "null"
  | .bool true => out ++ "true"
  | .bool false => out ++ "false"
  | .integer value => out ++ toString value
  | .real text => out ++ text
  | .string text => writeString out text
  | .array [] => out ++ "[]"
  | .array (first :: others) =>
      writeItems layout level
        (writeValue layout (level + 1) (out ++ "[" ++ layout.lineBreak (level + 1)) first) others
  | .object [] => out ++ "\x7b\x7d"
  | .object ((name, first) :: others) =>
      writeFields layout level
        (writeValue layout (level + 1)
          (writeString (out ++ "\x7b" ++ layout.lineBreak (level + 1)) name ++ layout.colon) first)
        others

/-- Writes the remaining items of an array and its closing bracket. -/
def writeItems (layout : Layout) (level : Nat) (out : String) : List Json → String
  | [] => out ++ layout.lineBreak level ++ "]"
  | first :: others =>
      writeItems layout level
        (writeValue layout (level + 1) (out ++ "," ++ layout.lineBreak (level + 1)) first) others

/-- Writes the remaining fields of an object and its closing brace. -/
def writeFields (layout : Layout) (level : Nat) (out : String) : List (String × Json) → String
  | [] => out ++ layout.lineBreak level ++ "\x7d"
  | (name, first) :: others =>
      writeFields layout level
        (writeValue layout (level + 1)
          (writeString (out ++ "," ++ layout.lineBreak (level + 1)) name ++ layout.colon) first)
        others

end

/-- The text of a value. -/
def render (layout : Layout) (value : Json) : String :=
  writeValue layout 0 "" value

/-- The text of a value without blanks. -/
def compact (value : Json) : String :=
  value.render .compact

/-- The value of a field; of two fields of one name the later counts. -/
def field? (name : String) (fields : List (String × Json)) : Option Json :=
  (fields.reverse.find? fun entry => entry.1 == name).map Prod.snd

end Json

end QasmDiagram
