/-
Module: QasmDiagram.Program.Reader
Purpose: Reading a program from source text: statements, scopes and elements.
Trusted boundary: none
Main exports: KeptRule.ofWord?, Statement.reader, Item.reader, Element.reader, Program.ofText
-/
import QasmDiagram.Expression.Reader
import QasmDiagram.Program

namespace QasmDiagram

/-- The rule of the statements that open with `word` and are kept as text. Such words are
identifiers to the lexical grammar. -/
def KeptRule.ofWord? (word : String) : Option KeptRule :=
  match word with
  | "qubit" => some .quantumDeclaration
  | "bit" | "int" | "uint" | "float" | "angle" | "bool" | "complex" | "duration" | "stretch"
  | "array" => some .classicalDeclaration
  | "const" => some .constDeclaration
  | "reset" => some .reset
  | "barrier" => some .barrier
  | "delay" => some .delay
  | "gate" => some .gate
  | "def" | "defcal" | "extern" | "cal" => some .definition
  | "if" => some .conditional
  | "for" => some .forLoop
  | "while" => some .whileLoop
  | "box" => some .box
  | "let" | "input" | "output" | "return" | "break" | "continue" | "end" | "opaque" | "pragma"
  | "defcalgrammar" => some .other
  | _ => none

namespace Index

/-- Whether an index holds expressions only, judged by the lexemes after its opening bracket: a
colon or brace outside inner brackets makes it a range or set. `none` if it is never closed. -/
def isPlain? (depth : Nat) : List Lexeme → Option Bool
  | [] => none
  | lexeme :: rest =>
      match lexeme.kind with
      | .mark .rightBracket => if depth = 0 then some true else isPlain? (depth - 1) rest
      | .mark .colon | .mark .leftBrace => if depth = 0 then some false else isPlain? depth rest
      | .mark .leftBracket | .mark .leftParen => isPlain? (depth + 1) rest
      | .mark .rightParen => isPlain? (depth - 1) rest
      | _ => isPlain? depth rest

/-- The number of lexemes before the bracket that closes a range or set. `none` if there is no such
bracket. Brackets, parentheses and braces nest, and a closer without opener changes nothing. -/
def verbatimLength? (depth taken : Nat) : List Lexeme → Option Nat
  | [] => none
  | lexeme :: rest =>
      match lexeme.kind with
      | .mark .rightBracket =>
          if depth = 0 then some taken else verbatimLength? (depth - 1) (taken + 1) rest
      | .mark .leftBracket | .mark .leftParen | .mark .leftBrace =>
          verbatimLength? (depth + 1) (taken + 1) rest
      | .mark .rightParen | .mark .rightBrace => verbatimLength? (depth - 1) (taken + 1) rest
      | _ => verbatimLength? depth (taken + 1) rest

/-- One bracketed index. -/
def reader (levels : Nat) : Reader Index := fun start => do
  let (_, c) ← Reader.expect (.mark .leftBracket) start
  match isPlain? 0 c.ahead with
  | none => throw (.unclosed .leftBracket start.line)
  | some true =>
      let (items, c) ← Expression.listReader (Expression.reader levels) c
      if items.isEmpty then throw (c.refuse .indexExpression)
      let (_, c) ← Reader.expect (.mark .rightBracket) c
      return (.expressions items, c)
  | some false =>
      match verbatimLength? 0 0 c.ahead with
      | none => throw (.unclosed .leftBracket start.line)
      | some length =>
          let stop := c.skip length
          let (_, behind) ← Reader.expect (.mark .rightBracket) stop
          return (.verbatim (c.textBetween stop), behind)

end Index

namespace Indexed

/-- One more index after `indices`, which stand in reverse; declines where no bracket opens. -/
def indexStep (levels : Nat) (indices : List Index) (c : Cursor) :
    Except ParseError (Option (List Index × Cursor)) :=
  if c.isAt (.mark .leftBracket) then do
    let (index, c) ← Index.reader levels c
    return some (index :: indices, c)
  else return none

/-- A name and its indices. -/
def reader (levels : Nat) : Reader Indexed := fun c => do
  let (name, c) ← Reader.expect .identifier c
  let (indices, c) ← Reader.repeatFrom (indexStep levels) [] c
  return (⟨name, indices.reverse⟩, c)

/-- Whether an assignment operator follows the indices of a name, judged by the lexemes after the
name. `depth` counts open brackets. -/
def assigns (depth : Nat) : List Lexeme → Bool
  | [] => false
  | lexeme :: rest =>
      match lexeme.kind with
      | .mark .leftBracket => assigns (depth + 1) rest
      | .mark .rightBracket => if depth = 0 then false else assigns (depth - 1) rest
      | .mark .equals | .compoundAssignment => if depth = 0 then true else assigns depth rest
      | _ => if depth = 0 then false else assigns depth rest

end Indexed

/-- A physical qubit or an indexed name. -/
def Operand.reader (levels : Nat) : Reader Operand := fun c =>
  if c.isAt .hardwareQubit then .ok (.hardware c.text, c.next)
  else if c.isAt .identifier then do
    let (target, c) ← Indexed.reader levels c
    return (.indexed target, c)
  else .error (c.refuse .gateOperand)

/-- A bracketed size, if a bracket opens here. -/
def designatorReader (levels : Nat) : Reader (Option Expression) := fun c =>
  if c.isAt (.mark .leftBracket) then do
    let (size, c) ← Expression.reader levels c.next
    let (_, c) ← Reader.expect (.mark .rightBracket) c
    return (some size, c)
  else return (none, c)

/-- The declaration of a register; the cursor stands at its keyword. -/
def Declaration.reader (levels : Nat) (kind : TerminalKind) : Reader Declaration := fun c => do
  let keyword : Terminal := ⟨kind, c.text⟩
  let (name, c) ← Reader.expect .identifier c.next
  let (size, c) ← designatorReader levels c
  let (_, c) ← Reader.expect (.mark .semicolon) c
  return (⟨keyword, name, size⟩, c)

namespace GateCall

/-- Whether a token opens a gate modifier. -/
def opensModifier : TokenKind → Bool
  | .keyword .ctrl | .keyword .negctrl | .keyword .inv | .keyword .pow => true
  | _ => false

/-- One more modifier after `modifiers`, which stand in reverse; declines where none opens. -/
def modifierStep (levels : Nat) (modifiers : List String) (start : Cursor) :
    Except ParseError (Option (List String × Cursor)) :=
  if start.kind?.any opensModifier then do
    let c := start.next
    let c ←
      if c.isAt (.mark .leftParen) then do
        let (_, c) ← Expression.reader levels c.next
        let (_, c) ← Reader.expect (.mark .rightParen) c
        pure c
      else pure c
    let (_, behind) ← Reader.expect (.mark .at) c
    return some (start.textBetween c :: modifiers, behind)
  else return none

/-- A parenthesised argument list, if a parenthesis opens here. -/
def argumentsReader (levels : Nat) : Reader (Option (List Expression)) := fun c =>
  if c.isAt (.mark .leftParen) then do
    let (items, c) ← Expression.listReader (Expression.reader levels) c.next
    let (_, c) ← Reader.expect (.mark .rightParen) c
    return (some items, c)
  else return (none, c)

/-- A gate with its modifiers, arguments and operands, up to the semicolon. -/
def reader (levels : Nat) : Reader GateCall := fun c => do
  let (modifiers, c) ← Reader.repeatFrom (modifierStep levels) [] c
  let (gate, c) ← Reader.expect .identifier c
  let (arguments, c) ← argumentsReader levels c
  let (designator, c) ← designatorReader levels c
  let (operands, c) ←
    if c.isAt (.mark .semicolon) then pure ([], c)
    else Reader.commaSeparated (Operand.reader levels) c
  let (_, c) ← Reader.expect (.mark .semicolon) c
  return (⟨modifiers.reverse, gate, arguments, designator, operands⟩, c)

end GateCall

/-- The terminal that an assignment operator becomes. -/
def TokenKind.assignmentOperator? : TokenKind → Option TerminalKind
  | .mark .equals => some .equals
  | .compoundAssignment => some .compoundAssignment
  | _ => none

/-- The right side of an assignment: a measurement or an expression. -/
def AssignedValue.reader (levels : Nat) : Reader AssignedValue := fun c =>
  if c.isAt (.keyword .measure) then do
    let (operand, c) ← Operand.reader levels c.next
    return (.measure operand, c)
  else do
    let (e, c) ← Expression.reader levels c
    return (.expression e, c)

/-- A target, an assignment operator and a value, up to the semicolon. -/
def Assignment.reader (levels : Nat) : Reader Assignment := fun c => do
  let (target, c) ← Indexed.reader levels c
  match c.terminal? TokenKind.assignmentOperator? with
  | none => throw (c.refuse .assignmentOperator)
  | some op =>
      let (value, c) ← AssignedValue.reader levels c.next
      let (_, c) ← Reader.expect (.mark .semicolon) c
      return (⟨target, op, value⟩, c)

namespace Statement

/-- How the search for the end of a statement kept as text comes out: after a number of lexemes, at
a stray closing brace after a number of lexemes, or at the end of the source, be it inside braces or
not. -/
inductive KeptEnd where
  | ends (length : Nat)
  | stray (position : Nat)
  | runsOut (insideBraces : Bool)
deriving Repr, Inhabited, DecidableEq

/-- Whether the word `else` comes next. -/
def elseFollows (ahead : List Lexeme) : Bool :=
  ahead.head?.any fun lexeme => lexeme.kind == .identifier && lexeme.text == "else"

/-- Where a statement kept as text ends: at a semicolon outside braces, or at the brace that closes
its outermost block, unless `else` follows. `depth` braces are open and `taken` lexemes are read. -/
def keptEnd (depth taken : Nat) : List Lexeme → KeptEnd
  | [] => .runsOut (depth != 0)
  | lexeme :: rest =>
      match lexeme.kind with
      | .mark .leftBrace => keptEnd (depth + 1) (taken + 1) rest
      | .mark .rightBrace =>
          if depth = 0 then .stray taken
          else if depth = 1 && !elseFollows rest then .ends (taken + 1)
          else keptEnd (depth - 1) (taken + 1) rest
      | .mark .semicolon =>
          if depth = 0 then .ends (taken + 1) else keptEnd depth (taken + 1) rest
      | _ => keptEnd depth (taken + 1) rest

/-- A statement kept as text. -/
def keptReader (rule : KeptRule) : Reader Statement := fun c =>
  match keptEnd 0 0 c.ahead with
  | .ends length => .ok (.kept rule (c.textBetween (c.skip length)), c.skip length)
  | .stray position => .error ((c.skip position).refuse .terminator)
  | .runsOut true => .error (.unclosed .leftBrace c.line)
  | .runsOut false => .error (.unexpectedEnd .terminator)

/-- An inclusion; the cursor stands at its keyword. The path is kept without its quotes. -/
def inclusionReader : Reader Statement := fun c => do
  let (quoted, c) ← Reader.expect .string c.next
  let (_, c) ← Reader.expect (.mark .semicolon) c
  return (.inclusion (String.ofList ((quoted.toList.drop 1).dropLast)), c)

/-- A gate call as a statement. -/
def gateCallReader (levels : Nat) : Reader Statement := fun c => do
  let (call, c) ← GateCall.reader levels c
  return (.gateCall call, c)

/-- A register declaration as a statement. -/
def declarationReader (levels : Nat) (kind : TerminalKind) : Reader Statement := fun c => do
  let (d, c) ← Declaration.reader levels kind c
  return (.declaration d, c)

/-- A statement that opens with an identifier: one kept as text, an assignment or a gate call. -/
def namedReader (levels : Nat) : Reader Statement := fun c =>
  match KeptRule.ofWord? c.text with
  | some rule => keptReader rule c
  | none =>
      if Indexed.assigns 0 c.next.ahead then do
        let (a, c) ← Assignment.reader levels c
        return (.assignment a, c)
      else gateCallReader levels c

/-- A statement, by the class of its first lexeme. -/
def reader (levels : Nat) : Reader Statement := fun c =>
  match c.kind? with
  | some (.keyword .inclusion) => inclusionReader c
  | some (.keyword .qreg) => declarationReader levels .qreg c
  | some (.keyword .creg) => declarationReader levels .creg c
  | some (.keyword .measure) => keptReader .measureArrowAssignment c
  | some (.keyword .ctrl) | some (.keyword .negctrl) | some (.keyword .inv)
  | some (.keyword .pow) => gateCallReader levels c
  | some .identifier => namedReader levels c
  | _ => .error (c.refuse .statement)

end Statement

namespace Item

/-- One more item of a scope after `items`, which stand in reverse; declines at the closing brace
and at the end of the source. -/
def scopeStep (inner : Reader Item) (items : List Item) (c : Cursor) :
    Except ParseError (Option (List Item × Cursor)) :=
  if c.head?.isNone || c.isAt (.mark .rightBrace) then .ok none
  else do
    let (item, c) ← inner c
    return some (item :: items, c)

/-- A statement or scope; `statement` reads a statement and `inner` the items of a scope. -/
def readerWith (statement : Reader Statement) (inner : Reader Item) : Reader Item := fun start =>
  if start.isAt (.mark .leftBrace) then do
    let (items, c) ← Reader.repeatFrom (scopeStep inner) [] start.next
    if c.isAt (.mark .rightBrace) then return (.scope items.reverse, c.next)
    else throw (.unclosed .leftBrace start.line)
  else do
    let (s, c) ← statement start
    return (.statement s, c)

/-- A statement or scope, with `levels` levels of nesting left. -/
def reader : Nat → Reader Item
  | 0 => readerWith (Statement.reader 0) Reader.tooDeep
  | levels + 1 => readerWith (Statement.reader (levels + 1)) (reader levels)

end Item

/-- A version declaration; the cursor stands at its keyword. -/
def Element.versionReader : Reader Element := fun c => do
  let c := c.next
  if c.isAt .float || c.isAt (.integer .decimal) then
    let (_, behind) ← Reader.expect (.mark .semicolon) c.next
    return (.version c.text, behind)
  else throw (c.refuse .versionNumber)

/-- A version declaration, statement or scope. -/
def Element.reader (levels : Nat) : Reader Element := fun c =>
  if c.isAt (.keyword .version) then Element.versionReader c
  else do
    let (i, c) ← Item.reader levels c
    return (.item i, c)

namespace Program

/-- One more element after `elements`, which stand in reverse; declines at the end of the source. -/
def elementStep (levels : Nat) (elements : List Element) (c : Cursor) :
    Except ParseError (Option (List Element × Cursor)) :=
  if c.head?.isNone then .ok none
  else do
    let (element, c) ← Element.reader levels c
    return some (element :: elements, c)

/-- The program that a sequence of lexemes forms. -/
def ofCursor (c : Cursor) : Except ParseError Program := do
  let (elements, _) ← Reader.repeatFrom (elementStep nestingLimit) [] c
  return ⟨(Element.endOfInput :: elements).reverse⟩

/-- The program written in a source text. -/
def ofText (source : String) : Except ParseError Program := do
  let (lexemes, endLine) ← Lexeme.ofText source
  ofCursor { ahead := lexemes, endLine := endLine }

end Program

end QasmDiagram
