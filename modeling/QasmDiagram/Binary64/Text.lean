/-
Module: QasmDiagram.Binary64.Text
Purpose: Floating-point numbers as decimal text: reading a numeral to the nearest number, and
  writing a number with two places.
Trusted boundary: none
Main exports: Binary64.ofDecimal, Binary64.ofText?, Binary64.twoPlaces
-/
import QasmDiagram.Binary64

namespace QasmDiagram

/-- The value of a list of decimal digits. -/
def decimalValue (digits : List Char) : Nat :=
  digits.foldl (fun value digit => 10 * value + (digit.toNat - '0'.toNat)) 0

namespace Binary64

/-- Decimal exponents beyond which every number is infinite or zero. -/
def decimalReach : Int := 400

/-- The number nearest to `± significand * 10 ^ exponent`. -/
def ofDecimal (negative : Bool) (significand : Nat) (exponent : Int) : Binary64 :=
  if significand = 0 then zero negative
  else
    let top : Int := ((Nat.repr significand).length : Int) + exponent
    if decimalReach < top then .infinite negative
    else if top < -decimalReach then zero negative
    else if 0 ≤ exponent then ofRatio negative (significand * Nat.pow 10 exponent.toNat) 1
    else ofRatio negative significand (Nat.pow 10 (-exponent).toNat)

/-- The sign that a text may open with, and the rest. -/
def splitSign : List Char → Bool × List Char
  | '-' :: rest => (true, rest)
  | '+' :: rest => (false, rest)
  | text => (false, text)

/-- The value of a decimal exponent with its letter; no text stands for zero. -/
def exponentOf? : List Char → Option Int
  | [] => some 0
  | letter :: rest =>
      if letter = 'e' ∨ letter = 'E' then
        let (negative, digits) := splitSign rest
        if digits ≠ [] ∧ digits.all Char.isDigit then
          some (signed negative (decimalValue digits))
        else none
      else none

/-- The digits behind a decimal point, and the rest; none if there is no point. -/
def splitFraction : List Char → List Char × List Char
  | '.' :: rest => (rest.takeWhile Char.isDigit, rest.dropWhile Char.isDigit)
  | text => ([], text)

/-- Reads an unsigned numeral: digits with an optional point among or around them, at least one
digit in all, and an optional exponent. -/
def ofNumeral? (negative : Bool) (text : List Char) : Option Binary64 :=
  let whole := text.takeWhile Char.isDigit
  let (places, rest) := splitFraction (text.dropWhile Char.isDigit)
  if whole = [] ∧ places = [] then none
  else
    (exponentOf? rest).map fun exponent =>
      ofDecimal negative (decimalValue (whole ++ places)) (exponent - places.length)

/-- Reads a number: an optional sign, then a numeral or one of the words for infinity and
not-a-number in any case. -/
def ofText? (text : List Char) : Option Binary64 :=
  let (negative, rest) := splitSign text
  let word := String.ofList (rest.map Char.toLower)
  if word = "inf" ∨ word = "infinity" then some (.infinite negative)
  else if word = "nan" then some .nan
  else ofNumeral? negative rest

/-- A number with two places, rounded to the nearest with ties to even. -/
def twoPlaces : Binary64 → String
  | .nan => "NaN"
  | .infinite negative => if negative then "-inf" else "inf"
  | .finite negative rank =>
      let value := ratio rank
      let hundredths := roundHalfEven (100 * value.1) value.2
      let places := Nat.repr (hundredths % 100)
      (if negative then "-" else "") ++ Nat.repr (hundredths / 100) ++ "."
        ++ (if hundredths % 100 < 10 then "0" ++ places else places)

end Binary64

end QasmDiagram
