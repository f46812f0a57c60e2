/-
Module: QasmDiagram.Cursor
Purpose: A place in a sequence of lexemes, and readers that move it forward: a reader takes a
  cursor and answers a value with the cursor behind what it has read, or a cause of refusal.
Trusted boundary: none
Main exports: Cursor, Reader, Reader.repeatFrom, Reader.commaSeparated
-/
import QasmDiagram.Lexeme

namespace QasmDiagram

/-- The lexemes still ahead, how many they are, and the line on which the source ends. -/
structure Cursor where
  ahead : List Lexeme
  endLine : Nat
  count : Nat := ahead.length
  count_eq : count = ahead.length := by rfl
deriving Repr

namespace Cursor

/-- The lexeme at the cursor. -/
def head? (c : Cursor) : Option Lexeme :=
  c.ahead.head?

/-- The class of the lexeme at the cursor. -/
def kind? (c : Cursor) : Option TokenKind :=
  c.head?.map Lexeme.kind

/-- The text of the lexeme at the cursor, empty at the end. -/
def text (c : Cursor) : String :=
  (c.head?.map Lexeme.text).getD ""

/-- The line of the lexeme at the cursor, or of the end of the source. -/
def line (c : Cursor) : Nat :=
  (c.head?.map Lexeme.line).getD c.endLine

/-- The cursor behind the next `n` lexemes. -/
def skip (n : Nat) (c : Cursor) : Cursor where
  ahead := c.ahead.drop n
  endLine := c.endLine
  count := c.count - n
  count_eq := by simp [c.count_eq]

/-- The cursor behind the next lexeme. -/
def next (c : Cursor) : Cursor :=
  c.skip 1

/-- Whether the lexeme at the cursor is of the class `kind`. -/
def isAt (kind : TokenKind) (c : Cursor) : Bool :=
  c.kind? == some kind

/-- The source text from `start` to the end of the last lexeme before `stop`. -/
def textBetween (start stop : Cursor) : String :=
  Lexeme.excerpt (start.ahead.take (start.count - stop.count))

/-- The refusal of what stands at the cursor, where something else was expected. -/
def refuse (expected : Expectation) (c : Cursor) : ParseError :=
  match c.head? with
  | none => .unexpectedEnd expected
  | some found => .unexpectedToken found.line expected found.text

end Cursor

/-- Reads a value and moves the cursor behind it. -/
abbrev Reader (α : Type) := Cursor → Except ParseError (α × Cursor)

namespace Reader

/-- The text of a lexeme of the given class. -/
def expect (kind : TokenKind) : Reader String := fun c =>
  if c.isAt kind then .ok (c.text, c.next) else .error (c.refuse (.token kind))

/-- Refuses to go one nesting level deeper. -/
def tooDeep {α : Type} : Reader α := fun c =>
  .error (.nestingTooDeep c.line)

/-- Takes steps from `state` until one declines with `none`. A step that does not move the cursor
forward is the last. -/
def repeatFrom {σ : Type} (step : σ → Cursor → Except ParseError (Option (σ × Cursor)))
    (state : σ) : Reader σ := fun c =>
  match step state c with
  | .error e => .error e
  | .ok none => .ok (state, c)
  | .ok (some (state', c')) =>
      if c'.count < c.count then repeatFrom step state' c' else .ok (state', c')
termination_by c => c.count

/-- Reads a comma and one more item after `items`, which stand in reverse; declines where there is
no comma. -/
def nextItem {α : Type} (item : Reader α) (items : List α) (c : Cursor) :
    Except ParseError (Option (List α × Cursor)) :=
  if c.isAt (.mark .comma) then do
    let (value, c) ← item c.next
    return some (value :: items, c)
  else return none

/-- One or more items with commas between them. -/
def commaSeparated {α : Type} (item : Reader α) : Reader (List α) := fun c => do
  let (first, c) ← item c
  let (items, c) ← repeatFrom (nextItem item) [first] c
  return (items.reverse, c)

end Reader

end QasmDiagram
