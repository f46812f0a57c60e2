/-
Module: QasmDiagram.ParseError
Purpose: Why a source text is not a program, and the wording of each cause.
Trusted boundary: none
Main exports: Expectation, ParseError, ParseError.kind, ParseError.message
-/
import QasmDiagram.Token

namespace QasmDiagram

/-- Deepest nesting of expressions and scopes that a program may have. -/
def nestingLimit : Nat := 256

/-- What a reader was looking for where it stopped. -/
inductive Expectation where
  | token (kind : TokenKind)
  | versionNumber
  | statement
  | expression
  | gateOperand
  | indexExpression
  | assignmentOperator
  | terminator
deriving Repr, Inhabited, DecidableEq

/-- The wording of an expectation. -/
def Expectation.describe : Expectation → String
  | .token kind => kind.describe
  | .versionNumber => "version number"
  | .statement => "statement"
  | .expression => "expression"
  | .gateOperand => "gate operand"
  | .indexExpression => "index expression"
  | .assignmentOperator => "assignment operator"
  | .terminator => "';'"

/-- The causes for which a source text is refused. Lines count from one. -/
inductive ParseError where
  | invalidToken (line : Nat) (text : String)
  | unexpectedToken (line : Nat) (expected : Expectation) (found : String)
  | unexpectedEnd (expected : Expectation)
  | unclosed (delimiter : Mark) (line : Nat)
  | nestingTooDeep (line : Nat)
deriving Repr, Inhabited, DecidableEq

/-- The name of the kind of a cause. -/
def ParseError.kind : ParseError → String
  | .invalidToken _ _ => "LexerError"
  | .unexpectedToken _ _ _ => "UnexpectedToken"
  | .unexpectedEnd _ => "UnexpectedEof"
  | .unclosed _ _ => "Unclosed"
  | .nestingTooDeep _ => "NestingTooDeep"

/-- The text shown to the user. -/
def ParseError.message : ParseError → String
  | .invalidToken line text =>
      "Lexer error at line " ++ toString line ++ ": Invalid token: '" ++ text ++ "'"
  | .unexpectedToken line expected found =>
      "Unexpected token at line " ++ toString line ++ ": expected " ++ expected.describe
        ++ ", found '" ++ found ++ "'"
  | .unexpectedEnd expected => "Unexpected end of input: expected " ++ expected.describe
  | .unclosed delimiter line =>
      "Unclosed '" ++ delimiter.text ++ "' opened at line " ++ toString line
  | .nestingTooDeep line =>
      "Nesting deeper than " ++ toString nestingLimit ++ " levels at line " ++ toString line

end QasmDiagram
