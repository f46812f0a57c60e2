/-
Module: QasmDiagram.Expression.Reader
Purpose: Reading expressions by precedence. Nesting is bounded: each operand to the right of an
  operator, each operand of a sign, each parenthesis and each argument costs one level, and a chain
  of operators to the left costs none.
Trusted boundary: none
Main exports: TerminalKind.precedence, Expression.binaryAt, Expression.reader
-/
import QasmDiagram.Cursor
import QasmDiagram.Expression

namespace QasmDiagram

/-- How tightly an operator binds; zero for what is no binary operator. -/
def TerminalKind.precedence : TerminalKind → Nat
  | .plus | .minus => 1
  | .asterisk | .slash | .percent => 2
  | .doubleAsterisk => 3
  | _ => 0

/-- The least precedence of an operator inside the right operand of `kind`: powers associate to the
right, all others to the left. -/
def TerminalKind.rightPrecedence (kind : TerminalKind) : Nat :=
  if kind = .doubleAsterisk then kind.precedence else kind.precedence + 1

namespace TokenKind

/-- The binary operator that a token is. -/
def binaryOperator? : TokenKind → Option TerminalKind
  | .mark .plus => some .plus
  | .mark .minus => some .minus
  | .mark .star => some .asterisk
  | .mark .slash => some .slash
  | .mark .percent => some .percent
  | .mark .power => some .doubleAsterisk
  | _ => none

/-- The sign that a token is. -/
def unaryOperator? : TokenKind → Option TerminalKind
  | .mark .minus => some .minus
  | .mark .tilde => some .tilde
  | .mark .bang => some .exclamationPoint
  | _ => none

/-- The leaf that a token is. -/
def leaf? : TokenKind → Option TerminalKind
  | .integer .decimal => some .decimalInteger
  | .integer .binary => some .binaryInteger
  | .integer .octal => some .octalInteger
  | .integer .hexadecimal => some .hexInteger
  | .float => some .float
  | .imaginary => some .imaginary
  | .boolean => some .boolean
  | .identifier => some .identifier
  | _ => none

end TokenKind

/-- The terminal at the cursor, if `role?` gives its class a role. -/
def Cursor.terminal? (role? : TokenKind → Option TerminalKind) (c : Cursor) : Option Terminal :=
  (c.kind?.bind role?).map (⟨·, c.text⟩)

namespace Expression

/-- An expression list, empty where a closing parenthesis or bracket follows at once. -/
def listReader (item : Reader Expression) : Reader (List Expression) := fun c =>
  if c.isAt (.mark .rightParen) || c.isAt (.mark .rightBracket) then .ok ([], c)
  else Reader.commaSeparated item c

/-- A literal, name, call or parenthesised expression; `inner` reads what stands inside. -/
def primaryReader (inner : Reader Expression) : Reader Expression := fun c =>
  if c.isAt (.mark .leftParen) then do
    let (e, c) ← inner c.next
    let (_, c) ← Reader.expect (.mark .rightParen) c
    return (.paren e, c)
  else if c.isAt .identifier && c.next.isAt (.mark .leftParen) then do
    let name := c.text
    let (arguments, c) ← listReader inner c.next.next
    let (_, c) ← Reader.expect (.mark .rightParen) c
    return (.call name arguments, c)
  else
    match c.terminal? TokenKind.leaf? with
    | some leaf => .ok (.literal leaf, c.next)
    | none => .error (c.refuse .expression)

/-- An operand with its signs; `signed` reads the operand of a sign, `inner` what stands inside
parentheses. -/
def operandReader (signed inner : Reader Expression) : Reader Expression := fun c =>
  match c.terminal? TokenKind.unaryOperator? with
  | some op => do
      let (operand, c) ← signed c.next
      return (.unary op operand, c)
  | none => primaryReader inner c

/-- Extends `lhs` by one operator of at least the given precedence and its right operand. -/
def operatorStep (right : Nat → Reader Expression) (least : Nat) (lhs : Expression) (c : Cursor) :
    Except ParseError (Option (Expression × Cursor)) :=
  match c.terminal? TokenKind.binaryOperator? with
  | none => .ok none
  | some op =>
      if op.kind.precedence < least then .ok none
      else do
        let (rhs, c) ← right op.kind.rightPrecedence c.next
        return some (.binary lhs op rhs, c)

/-- An operand and the operators that follow it. -/
def chainReader (operand : Reader Expression) (right : Nat → Reader Expression) (least : Nat) :
    Reader Expression := fun c => do
  let (first, c) ← operand c
  Reader.repeatFrom (operatorStep right least) first c

mutual

/-- An expression whose operators have at least the precedence `least`, with `levels` levels of
nesting left. -/
def binaryAt : Nat → Nat → Reader Expression
  | 0, _ => Reader.tooDeep
  | levels + 1, least => fun c =>
      chainReader (operandReader (signedAt levels) (binaryAt levels 0)) (binaryAt levels) least c

/-- The operand of a sign, with `levels` levels of nesting left. -/
def signedAt : Nat → Reader Expression
  | 0 => Reader.tooDeep
  | levels + 1 => fun c => operandReader (signedAt levels) (binaryAt levels 0) c

end

/-- An expression, with `levels` levels of nesting left. -/
def reader (levels : Nat) : Reader Expression :=
  binaryAt levels 0

end Expression

end QasmDiagram
