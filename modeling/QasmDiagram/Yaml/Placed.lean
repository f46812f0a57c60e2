/-
Module: QasmDiagram.Yaml.Placed
Purpose: The text of a document as characters in their places, and the classes of characters on
  which its form rests.
Trusted boundary: none
Main exports: Placed, Placed.ofText?, Placed.atDocumentMark
-/

namespace QasmDiagram

/-- A character of a document with its line and column, both counted from zero. -/
structure Placed where
  char : Char
  line : Nat
  column : Nat
deriving Repr, Inhabited

namespace Placed

/-- Blanks inside a line. -/
def isBlank (p : Placed) : Bool :=
  p.char == ' ' || p.char == '\t'

/-- The ends of lines: line feeds, and the separators of lines and paragraphs. -/
def endsLine (c : Char) : Bool :=
  c == '\n' || c == '\u2028' || c == '\u2029'

/-- Whether a line ends here. -/
def isBreak (p : Placed) : Bool :=
  endsLine p.char

/-- White space between words. -/
def isGap (p : Placed) : Bool :=
  p.isBlank || p.isBreak

/-- The characters that a document may hold. -/
def isAllowed (c : Char) : Bool :=
  let n := c.toNat
  n == 9 || n == 10 || n == 13 || (32 ≤ n && n ≤ 126) || n == 0x85 || (0xA0 ≤ n && n ≤ 0xD7FF)
    || (0xE000 ≤ n && n ≤ 0xFFFD) || 0x10000 ≤ n

/-- The characters of a text in their places. A carriage return, with or without a line feed behind
it, and a next-line character are line feeds. -/
def place (line column : Nat) : List Char → List Placed
  | [] => []
  | '\r' :: '\n' :: rest => ⟨'\n', line, column⟩ :: place (line + 1) 0 rest
  | c :: rest =>
      if c == '\n' || c == '\r' || c == '\u0085' then
        ⟨'\n', line, column⟩ :: place (line + 1) 0 rest
      else if endsLine c then ⟨c, line, column⟩ :: place (line + 1) 0 rest
      else ⟨c, line, column⟩ :: place line (column + 1) rest

/-- The characters of a document, none if it holds one that is not allowed. A byte order mark at
its start is left out and keeps its column. -/
def ofText? (text : String) : Option (List Placed) :=
  if text.toList.all isAllowed then
    some ((place 0 0 text.toList).dropWhile fun p =>
      p.char == '\uFEFF' && p.line == 0 && p.column == 0)
  else none

/-- The characters without their places. -/
def chars (text : List Placed) : List Char :=
  text.map Placed.char

/-- Whether the first character is the given one. -/
def startsWith (c : Char) : List Placed → Bool
  | [] => false
  | p :: _ => p.char == c

/-- Whether a blank, the end of a line or the end of the document follows. -/
def atGapOrEnd : List Placed → Bool
  | [] => true
  | p :: _ => p.isGap

/-- Whether a line begins here with three of the character `c` that stand apart. -/
def atMark (c : Char) : List Placed → Bool
  | p :: q :: r :: rest =>
      p.column == 0 && p.char == c && q.char == c && r.char == c && atGapOrEnd rest
  | _ => false

/-- Whether a line begins here that opens or closes a document. -/
def atDocumentMark (text : List Placed) : Bool :=
  atMark '-' text || atMark '.' text

/-- The text without blanks at its start. -/
def trimStart (text : List Placed) : List Placed :=
  text.dropWhile isBlank

/-- What follows the current line, if only blanks and a comment are left of it. -/
def nextLine? (text : List Placed) : Option (List Placed) :=
  match trimStart text with
  | [] => some []
  | p :: rest =>
      if p.char == '#' then some ((rest.dropWhile fun q => !q.isBreak).drop 1)
      else if p.isBreak then some rest
      else none

/-- The letters, digits, hyphens and underscores of names. -/
def isNamePart (p : Placed) : Bool :=
  p.char.isAlphanum || p.char == '-' || p.char == '_'

/-- The name at the start of a text, which may be empty, and the rest. -/
def name (text : List Placed) : String × List Placed :=
  (String.ofList (chars (text.takeWhile isNamePart)), text.dropWhile isNamePart)

end Placed

end QasmDiagram
