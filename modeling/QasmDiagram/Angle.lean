/-
Module: QasmDiagram.Angle
Purpose: The values of expressions and the texts of angles. An expression has a value if it is made
  of decimal literals and pi by multiplication and division. A value is shown as a fraction of pi
  where it is a sixteenth of it, else with two places; or the expression itself is shown in symbols.
Trusted boundary: none
Main exports: Expression.evaluate, Binary64.asIndex?, commonDivisor, piFraction,
  Binary64.angleText, DisplayMode, Expression.angleText
-/
import QasmDiagram.Binary64.Text
import QasmDiagram.Expression
import QasmDiagram.LowerError

namespace QasmDiagram

/-- The value of a decimal literal, whose underscores do not count. -/
def literalValue (text : String) : Except LowerError Binary64 :=
  match Binary64.ofText? (text.toList.filter (· != '_')) with
  | some value => .ok value
  | none => .error (.malformedOperand text)

namespace Expression

/-- Refuses expressions that are too deep. -/
def checkDepth (e : Expression) : Except LowerError Unit :=
  if e.depth ≤ expressionDepthLimit then .ok ()
  else .error (.malformedOperand
    ("expression nested deeper than " ++ toString expressionDepthLimit ++ " levels"))

/-- The value of an expression of any depth. -/
def value : Expression → Except LowerError Binary64
  | .binary lhs op rhs => do
      let left ← lhs.value
      let right ← rhs.value
      match op.kind with
      | .asterisk => return left.mul right
      | .slash => return left.div right
      | _ => throw (.unknownOperator op.text)
  | .literal leaf =>
      match leaf.kind with
      | .decimalInteger | .float => literalValue leaf.text
      | .identifier => if leaf.text = "pi" then .ok .pi else .error (.unknownIdentifier leaf.text)
      | _ => .error (.malformedOperand leaf.text)
  | e => .error (.malformedOperand e.render)

/-- The value of an expression. -/
def evaluate (e : Expression) : Except LowerError Binary64 := do
  e.checkDepth
  e.value

end Expression

/-- Two to the power 53: up to here every natural number is a floating-point number. -/
def exactLimit : Nat := 9007199254740992

/-- The value as a count or index: a natural number up to the point where not every one is
representable. -/
def Binary64.asIndex? (value : Binary64) : Option Nat :=
  value.natural?.filter (· ≤ exactLimit)

/-- The greatest common divisor, by Euclid's loop. -/
def commonDivisor (a b : UInt64) : UInt64 :=
  if b = 0 then a else commonDivisor b (a % b)
termination_by b.toNat
decreasing_by
  have : 0 < b.toNat := Nat.pos_of_ne_zero fun zero => ‹b ≠ 0› (UInt64.toNat_inj.mp zero)
  rw [UInt64.toNat_mod]
  exact Nat.mod_lt _ this

/-- The absolute value, which is a word without a sign for the least number too. -/
def unsignedMagnitude (n : Int64) : UInt64 :=
  n.abs.toUInt64

/-- The text of `numerator / denominator` times pi in lowest terms. -/
def piFraction (numerator denominator : Int64) : String :=
  if numerator = 0 then "0"
  else
    let divisor := commonDivisor (unsignedMagnitude numerator) (unsignedMagnitude denominator)
    let num := unsignedMagnitude numerator / divisor
    let den := unsignedMagnitude denominator / divisor
    (if numerator < 0 then "-" else "") ++ (if num = 1 then "" else Nat.repr num.toNat) ++ "π"
      ++ (if den = 1 then "" else "/" ++ Nat.repr den.toNat)

/-- The finest fraction of pi that is recognised. -/
def piDenominator : Int64 := 16

/-- How far from a whole number of sixteenths of pi a value may lie and still be shown as one. -/
def sixteenthTolerance : Binary64 :=
  Binary64.ofDecimal false 1 (-5)

/-- Whether a number is below the tolerance. -/
def withinTolerance (difference : Binary64) : Bool :=
  match sixteenthTolerance with
  | .finite _ bound => difference.magnitudeBelow bound
  | _ => false

/-- The whole number of sixteenths of pi that a value is taken for, if it is close enough to one and
neither too large to tell it from its neighbours. -/
def Binary64.sixteenths? (value : Binary64) : Option Int :=
  let sixteenths := (value.div pi).mul (ofInt piDenominator.toInt)
  sixteenths.nearestInt?.filter fun nearest =>
    nearest.natAbs ≤ exactLimit && withinTolerance (sixteenths.distance (ofInt nearest))

/-- The text of an angle in radians. -/
def Binary64.angleText (value : Binary64) : String :=
  match value.sixteenths? with
  | some numerator => piFraction (Int64.ofInt numerator) piDenominator
  | none => value.twoPlaces

/-- The two ways to show the angle of a rotation: by value or in symbols. -/
inductive DisplayMode where
  | numeric
  | symbolic
deriving Repr, Inhabited, DecidableEq

/-- The name of a display mode. -/
def DisplayMode.name : DisplayMode → String
  | .numeric => "numeric"
  | .symbolic => "symbolic"

/-- Both display modes. -/
def DisplayMode.all : List DisplayMode :=
  [.numeric, .symbolic]

namespace Expression

/-- The sign that shows an operator. -/
def operatorSign (op : Terminal) : Except LowerError String :=
  match op.kind with
  | .asterisk => .ok "×"
  | .slash => .ok "/"
  | _ => .error (.unknownOperator op.text)

/-- An expression in symbols, of any depth. An operator is judged before its operands. -/
def symbols : Expression → Except LowerError String
  | .binary lhs op rhs => do
      let sign ← operatorSign op
      let left ← lhs.symbols
      let right ← rhs.symbols
      return left ++ sign ++ right
  | .literal leaf =>
      match leaf.kind with
      | .decimalInteger | .float => .ok leaf.text
      | .identifier => if leaf.text = "pi" then .ok "π" else .error (.unknownIdentifier leaf.text)
      | _ => .error (.malformedOperand leaf.text)
  | e => .error (.malformedOperand e.render)

/-- The text that shows an angle. -/
def angleText (mode : DisplayMode) (e : Expression) : Except LowerError String :=
  match mode with
  | .numeric => return (← e.evaluate).angleText
  | .symbolic => do
      e.checkDepth
      e.symbols

end Expression

end QasmDiagram
