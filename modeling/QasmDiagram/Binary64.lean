/-
Module: QasmDiagram.Binary64
Purpose: The binary floating-point numbers of 64 bits. Every operation is the exact result, rounded
  to the nearest number with ties to the even one.
Trusted boundary: none
Main exports: roundHalfEven, Binary64, Binary64.ofBits, Binary64.toBits, Binary64.ofRatio,
  Binary64.mul, Binary64.div, Binary64.distance, Binary64.nearestInt?, Binary64.natural?
-/

namespace QasmDiagram

/-- The whole number nearest to `num / den`; a tie goes to the even one. -/
def roundHalfEven (num den : Nat) : Nat :=
  let whole := num / den
  let twice := 2 * (num % den)
  if twice < den then whole
  else if den < twice then whole + 1
  else whole + whole % 2

namespace Binary64

/-- The number of ranks that share an exponent: two to the power 52. -/
def ranksPerExponent : Nat := 4503599627370496

/-- The number of finite magnitudes: 2047 exponents, each with as many ranks. -/
def rankLimit : Nat := 9218868437227405312

/-- The weight of the sign in a bit pattern: two to the power 63. -/
def signWeight : Nat := 9223372036854775808

end Binary64

/-- A 64-bit floating-point number. The magnitudes of the finite ones are numbered in increasing
order from zero, which is their bit pattern without the sign. -/
inductive Binary64 where
  | nan
  | infinite (negative : Bool)
  | finite (negative : Bool) (rank : Fin Binary64.rankLimit)
deriving Repr, DecidableEq

namespace Binary64

/-- The least exponent of two, that of the subnormal numbers. -/
def leastExponent : Int := -1074

/-- The integer by which a rank's power of two is multiplied. -/
def significand (rank : Nat) : Nat :=
  if rank / ranksPerExponent = 0 then rank
  else ranksPerExponent + rank % ranksPerExponent

/-- The exponent of a rank's power of two. -/
def exponent (rank : Nat) : Int :=
  leastExponent + ((rank / ranksPerExponent - 1 : Nat) : Int)

/-- The magnitude `significand * 2 ^ exponent` as a quotient of two whole numbers. -/
def ratioOf (significand : Nat) (exponent : Int) : Nat × Nat :=
  if 0 ≤ exponent then (significand * Nat.pow 2 exponent.toNat, 1)
  else (significand, Nat.pow 2 (-exponent).toNat)

/-- The magnitude of a rank as a quotient. -/
def ratio (rank : Nat) : Nat × Nat :=
  ratioOf (significand rank) (exponent rank)

/-- Zero with a sign. -/
def zero (negative : Bool) : Binary64 :=
  .finite negative ⟨0, by decide⟩

/-- The number of a rank; past the last rank lies infinity. -/
def ofRank (negative : Bool) (rank : Nat) : Binary64 :=
  if h : rank < rankLimit then .finite negative ⟨rank, h⟩ else .infinite negative

/-- The greatest power of two that is not above the positive quotient `num / den`. -/
def floorLog2 (num den : Nat) : Int :=
  let guess : Int := (Nat.log2 num : Int) - (Nat.log2 den : Int)
  let scaled := ratioOf den guess
  if num * scaled.2 < scaled.1 then guess - 1 else guess

/-- The number nearest to `num / den`, with ties to the even one; `den` is positive. -/
def ofRatio (negative : Bool) (num den : Nat) : Binary64 :=
  if num = 0 then zero negative
  else
    let exp := max (floorLog2 num den - 52) leastExponent
    let unit := ratioOf den exp
    ofRank negative
      ((exp - leastExponent).toNat * ranksPerExponent + roundHalfEven (num * unit.2) unit.1)

/-- The number nearest to `± significand * 2 ^ exponent`. -/
def ofScaled (negative : Bool) (significand : Nat) (exponent : Int) : Binary64 :=
  let value := ratioOf significand exponent
  ofRatio negative value.1 value.2

/-- The number nearest to an integer. -/
def ofInt (value : Int) : Binary64 :=
  ofRatio (value < 0) value.natAbs 1

/-- The number of a bit pattern. -/
def ofBits (bits : UInt64) : Binary64 :=
  let negative := bits.toNat / signWeight == 1
  let magnitude := bits.toNat % signWeight
  if magnitude ≤ rankLimit then ofRank negative magnitude else .nan

/-- The bit pattern of a number. All not-a-numbers share one pattern. -/
def toBits : Binary64 → UInt64
  | .nan => 0x7ff8000000000000
  | .infinite negative => UInt64.ofNat (negative.toNat * signWeight + rankLimit)
  | .finite negative rank => UInt64.ofNat (negative.toNat * signWeight + rank)

/-- The double nearest to the ratio of a circle's circumference to its diameter. -/
def pi : Binary64 :=
  ofBits 0x400921fb54442d18

/-- The product. -/
def mul : Binary64 → Binary64 → Binary64
  | .finite s a, .finite s' b =>
      ofScaled (s != s') (significand a * significand b) (exponent a + exponent b)
  | .nan, _ | _, .nan => .nan
  | .infinite s, .infinite s' => .infinite (s != s')
  | .infinite s, .finite s' a | .finite s a, .infinite s' =>
      if a.val = 0 then .nan else .infinite (s != s')

/-- The quotient. -/
def div : Binary64 → Binary64 → Binary64
  | .finite s a, .finite s' b =>
      if b.val = 0 then if a.val = 0 then .nan else .infinite (s != s')
      else
        let value := ratioOf (significand a) (exponent a - exponent b)
        ofRatio (s != s') value.1 (value.2 * significand b)
  | .nan, _ | _, .nan => .nan
  | .infinite _, .infinite _ => .nan
  | .infinite s, .finite s' _ => .infinite (s != s')
  | .finite s _, .infinite s' => zero (s != s')

/-- The integer that a sign and a magnitude make. -/
def signed (negative : Bool) (magnitude : Nat) : Int :=
  if negative then -magnitude else magnitude

/-- The absolute value of the difference. -/
def distance : Binary64 → Binary64 → Binary64
  | .finite s a, .finite s' b =>
      let least := min (exponent a) (exponent b)
      let left := signed s (significand a * Nat.pow 2 (exponent a - least).toNat)
      let right := signed s' (significand b * Nat.pow 2 (exponent b - least).toNat)
      ofScaled false (left - right).natAbs least
  | .nan, _ | _, .nan => .nan
  | .infinite s, .infinite s' => if s = s' then .nan else .infinite false
  | .infinite _, .finite _ _ | .finite _ _, .infinite _ => .infinite false

/-- Whether the magnitude of a number is below that of a finite number of the given rank. -/
def magnitudeBelow (bound : Nat) : Binary64 → Bool
  | .finite _ rank => rank.val < bound
  | _ => false

/-- The nearest integer, with ties away from zero; `none` if the number is not finite. -/
def nearestInt? : Binary64 → Option Int
  | .finite negative rank =>
      let value := ratio rank
      some (signed negative ((2 * value.1 + value.2) / (2 * value.2)))
  | _ => none

/-- The natural number that a number is, if it is one. Negative zero is zero. -/
def natural? : Binary64 → Option Nat
  | .finite negative rank =>
      let value := ratio rank
      if (negative && value.1 != 0) || value.1 % value.2 != 0 then none
      else some (value.1 / value.2)
  | _ => none

end Binary64

end QasmDiagram
