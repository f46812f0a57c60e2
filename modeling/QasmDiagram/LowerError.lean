/-
Module: QasmDiagram.LowerError
Purpose: Why a program has no circuit, and the wording of each cause.
Trusted boundary: none
Main exports: IndexFault, SizeFault, LowerError, LowerError.kind, LowerError.message
-/
import QasmDiagram.Circuit

namespace QasmDiagram

/-- The most qubits that a program may declare. -/
def qubitLimit : Nat := 1048576

/-- The deepest expression that is evaluated or displayed. -/
def expressionDepthLimit : Nat := 256

/-- The only version of the language that is accepted. -/
def supportedVersion : String := "2.0"

/-- What is wrong with an index into a register. -/
inductive IndexFault where
  | indexedScalar (index : Nat)
  | outOfBounds (index size : Nat)
  | missing (size : Nat)
  | notNatural (text : String)
deriving Repr, Inhabited, DecidableEq

/-- The wording of an index fault. -/
def IndexFault.describe : IndexFault → String
  | .indexedScalar index =>
      "index " ++ toString index ++ " given for a single-qubit register"
  | .outOfBounds index size =>
      "index " ++ toString index ++ " out of bounds for size " ++ toString size
  | .missing size => "missing index for register of size " ++ toString size
  | .notNatural text => "index " ++ text ++ " is not a non-negative integer"

/-- What is wrong with the size of a register. -/
inductive SizeFault where
  | notNatural (declaration : String)
  | overLimit (register : String) (size : Nat)
deriving Repr, Inhabited, DecidableEq

/-- The wording of a size fault. -/
def SizeFault.describe : SizeFault → String
  | .notNatural declaration => declaration
  | .overLimit register size =>
      "register '" ++ register ++ "' of size " ++ toString size ++ " exceeds the limit of "
        ++ toString qubitLimit ++ " qubits"

/-- The causes for which a program has no circuit. -/
inductive LowerError where
  | unsupportedVersion (specifier : String)
  | unexpectedElement (text : String)
  | unexpectedStatement (text : String)
  | unsupportedGate (gate statement : String)
  | unknownIdentifier (name : String)
  | unknownOperator (text : String)
  | malformedOperand (text : String)
  | undeclaredRegister (name : String)
  | invalidIndex (register : String) (fault : IndexFault)
  | duplicateDeclaration (name : String)
  | wrongOperandCount (gate : String) (expected got : Nat)
  | wrongArgumentCount (gate : String) (expected got : Nat)
  | invalidSize (fault : SizeFault)
  | circuit (e : CircuitError)
deriving Repr, Inhabited, DecidableEq

namespace LowerError

/-- The name of the kind of a cause. -/
def kind : LowerError → String
  | .unsupportedVersion _ => "UnsupportedVersion"
  | .unexpectedElement _ => "UnexpectedElement"
  | .unexpectedStatement _ => "UnexpectedStatement"
  | .unsupportedGate _ _ => "UnsupportedGate"
  | .unknownIdentifier _ => "UnknownIdentifier"
  | .unknownOperator _ => "UnknownOperator"
  | .malformedOperand _ => "MalformedOperand"
  | .undeclaredRegister _ => "UndeclaredRegister"
  | .invalidIndex _ _ => "IndexOutOfRange"
  | .duplicateDeclaration _ => "DuplicateDeclaration"
  | .wrongOperandCount _ _ _ => "WrongOperandCount"
  | .wrongArgumentCount _ _ _ => "WrongArgumentCount"
  | .invalidSize _ => "InvalidDesignator"
  | .circuit _ => "Circuit"

/-- The text shown to the user. -/
def message : LowerError → String
  | .unsupportedVersion specifier =>
      "Unsupported OPENQASM version: " ++ specifier ++ " (expected " ++ supportedVersion ++ ")"
  | .unexpectedElement text => "Unexpected element: " ++ text
  | .unexpectedStatement text => "Unexpected statement: " ++ text
  | .unsupportedGate gate statement => "Unsupported gate '" ++ gate ++ "' in `" ++ statement ++ "`"
  | .unknownIdentifier name => "Unknown identifier: " ++ name
  | .unknownOperator text => "Unknown operator: " ++ text
  | .malformedOperand text => "Malformed operand: " ++ text
  | .undeclaredRegister name => "Undeclared register: " ++ name
  | .invalidIndex register fault =>
      "Invalid index into register '" ++ register ++ "': " ++ fault.describe
  | .duplicateDeclaration name => "Duplicate declaration: " ++ name
  | .wrongOperandCount gate expected got =>
      "Gate '" ++ gate ++ "' expects " ++ toString expected ++ " operands, got " ++ toString got
  | .wrongArgumentCount gate expected got =>
      "Gate '" ++ gate ++ "' expects " ++ toString expected ++ " arguments, got " ++ toString got
  | .invalidSize fault => "Invalid register size: " ++ fault.describe
  | .circuit e => "Circuit error: " ++ e.message

end LowerError

end QasmDiagram
