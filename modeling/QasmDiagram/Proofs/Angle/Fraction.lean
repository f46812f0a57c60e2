/-
Module: QasmDiagram.Proofs.Angle.Fraction
Purpose: Fractions of pi as texts. Euclid's loop finds the greatest common divisor of any two words,
  so a fraction is shown in lowest terms and its text is read back as the number it stands for.
Trusted boundary: none
Main exports: DivisorLoop, commonDivisor_toNat, LowestTerms, fractionText, piFraction_eq,
  fractionOfPi?, fractionOfPi?_fractionText, piFraction_sixteenths
-/
import Mathlib.Algebra.Order.Field.Rat
import Mathlib.Data.Rat.Cast.Order
import Mathlib.Tactic.NormNum
import QasmDiagram.Angle
import QasmDiagram.Proofs.Binary64.Numeral

namespace QasmDiagram

/-! ### Euclid's loop -/

/-- The passes of the loop from two words to a result. Every pass divides by a word that is not
zero. -/
inductive DivisorLoop : UInt64 → UInt64 → UInt64 → Prop where
  | done {a : UInt64} : DivisorLoop a 0 a
  | pass {a b d : UInt64} : b ≠ 0 → DivisorLoop b (a % b) d → DivisorLoop a b d

/-- The loop ends with the word that is told. -/
theorem commonDivisor_loop (a b : UInt64) : DivisorLoop a b (commonDivisor a b) := by
  induction a, b using commonDivisor.induct with
  | case1 a =>
      rw [commonDivisor, if_pos rfl]
      exact .done
  | case2 a b more ih =>
      rw [commonDivisor, if_neg more]
      exact .pass more ih

/-- A pass keeps the greatest common divisor, so the loop ends with it. -/
theorem DivisorLoop.eq_gcd {a b d : UInt64} (h : DivisorLoop a b d) :
    d.toNat = Nat.gcd a.toNat b.toNat := by
  induction h with
  | done => simp
  | pass _ _ ih => rw [ih, UInt64.toNat_mod, Nat.gcd_comm, ← Nat.gcd_rec, Nat.gcd_comm]

theorem commonDivisor_toNat (a b : UInt64) :
    (commonDivisor a b).toNat = Nat.gcd a.toNat b.toNat :=
  (commonDivisor_loop a b).eq_gcd

/-- The absolute value of every number fits a word without a sign. -/
theorem unsignedMagnitude_toNat (n : Int64) : (unsignedMagnitude n).toNat = n.toInt.natAbs := by
  have magnitude : (unsignedMagnitude n).toNat = n.toBitVec.abs.toNat := rfl
  rw [magnitude, BitVec.toNat_abs, Int64.toInt, BitVec.toInt_eq_msb_cond]
  have bound := n.toBitVec.isLt
  split <;> omega

/-! ### Lowest terms -/

/-- The positive numbers `a` and `b` make the fraction `numerator / denominator` in lowest terms. -/
structure LowestTerms (numerator denominator a b : Nat) : Prop where
  numerator_pos : 0 < a
  denominator_pos : 0 < b
  coprime : Nat.Coprime a b
  equal : a * denominator = numerator * b

section

variable {n d a b : Nat}

/-- A fraction is in lowest terms once it is divided by the greatest common divisor. -/
theorem lowestTerms_gcd (hn : 0 < n) (hd : 0 < d) :
    LowestTerms n d (n / Nat.gcd n d) (d / Nat.gcd n d) where
  numerator_pos := Nat.div_gcd_pos_of_pos_left d hn
  denominator_pos := Nat.div_gcd_pos_of_pos_right n hd
  coprime := Nat.coprime_div_gcd_div_gcd (Nat.gcd_pos_of_pos_left d hn)
  equal := by
    rw [Nat.div_mul_right_comm (Nat.gcd_dvd_left n d), Nat.mul_div_assoc n (Nat.gcd_dvd_right n d)]

theorem LowestTerms.ratio (h : LowestTerms n d a b) (hd : 0 < d) : (a : Rat) / b = n / d := by
  have denominators : (b : Rat) ≠ 0 ∧ (d : Rat) ≠ 0 := by
    have := h.denominator_pos
    constructor <;> norm_cast <;> omega
  rw [div_eq_div_iff denominators.1 denominators.2]
  exact_mod_cast h.equal

/-- A fraction has one form in lowest terms. -/
theorem LowestTerms.unique {a' b' : Nat} (h : LowestTerms n d a b) (h' : LowestTerms n d a' b')
    (hn : 0 < n) : a' = a ∧ b' = b := by
  have cross : a * b' = a' * b := by
    have scaled : n * (a * b') = n * (a' * b) := by
      calc n * (a * b') = a * (n * b') := Nat.mul_left_comm ..
        _ = a * (a' * d) := by rw [h'.equal]
        _ = a' * (a * d) := Nat.mul_left_comm ..
        _ = n * (a' * b) := by rw [h.equal, Nat.mul_left_comm]
    exact Nat.eq_of_mul_eq_mul_left hn scaled
  have left : a ∣ a' := h.coprime.dvd_of_dvd_mul_right (cross ▸ Nat.dvd_mul_right a b')
  have right : a' ∣ a := h'.coprime.dvd_of_dvd_mul_right (cross ▸ Nat.dvd_mul_right a' b)
  have same : a' = a := Nat.dvd_antisymm right left
  subst same
  exact ⟨rfl, Nat.eq_of_mul_eq_mul_left h.numerator_pos cross⟩

end

/-! ### Texts of fractions -/

/-- The text of `± a / b` times pi, where a one is left out. -/
def fractionText (negative : Bool) (a b : Nat) : String :=
  (if negative then "-" else "") ++ (if a = 1 then "" else Nat.repr a) ++ "π"
    ++ (if b = 1 then "" else "/" ++ Nat.repr b)

/-- A fraction is shown in lowest terms. -/
theorem piFraction_eq {n d : Int64} {a b : Nat} (hn : n ≠ 0) (hd : d ≠ 0)
    (h : LowestTerms n.toInt.natAbs d.toInt.natAbs a b) :
    piFraction n d = fractionText (n < 0) a b := by
  have positive : ∀ k : Int64, k ≠ 0 → 0 < k.toInt.natAbs := fun k nonzero =>
    Int.natAbs_pos.mpr fun zero => nonzero (Int64.toInt_inj.mp zero)
  obtain ⟨num, den⟩ := h.unique (lowestTerms_gcd (positive n hn) (positive d hd)) (positive n hn)
  have divided : ∀ k : Int64, (unsignedMagnitude k /
      commonDivisor (unsignedMagnitude n) (unsignedMagnitude d)).toNat =
        k.toInt.natAbs / Nat.gcd n.toInt.natAbs d.toInt.natAbs := fun k => by
    rw [UInt64.toNat_div, commonDivisor_toNat]
    simp only [unsignedMagnitude_toNat]
  have one : ∀ w : UInt64, w = 1 ↔ w.toNat = 1 := fun w => UInt64.toNat_inj.symm
  simp only [piFraction, if_neg hn, one, divided, num, den, fractionText, decide_eq_true_eq]

/-- The value of the digits of a whole number, which is one if there are none. -/
def wholeOrOne (digits : List Char) : Nat :=
  if digits = [] then 1 else decimalValue digits

/-- Reads a fraction of pi without a sign: a numerator that may be left out, the letter, and a
denominator behind a slash that may be left out. -/
def unsignedFraction? (text : List Char) : Option Rat :=
  let numerator : Rat := wholeOrOne (text.takeWhile Char.isDigit)
  match text.dropWhile Char.isDigit with
  | ['π'] => some numerator
  | 'π' :: '/' :: digits =>
      if digits ≠ [] ∧ digits.all Char.isDigit then some (numerator / decimalValue digits) else none
  | _ => none

/-- Reads a text as a signed fraction of pi: a zero, or a fraction behind a sign that may be left
out. -/
def fractionOfPi? (text : String) : Option Rat :=
  match text.toList with
  | ['0'] => some 0
  | '-' :: rest => (unsignedFraction? rest).map (- ·)
  | rest => unsignedFraction? rest

/-- The text of a fraction is read back as the fraction. -/
theorem fractionOfPi?_fractionText (negative : Bool) (a b : Nat) :
    fractionOfPi? (fractionText negative a b) =
      some (if negative then -((a : Rat) / b) else (a : Rat) / b) := by
  let numerator := if a = 1 then [] else Nat.toDigits 10 a
  let denominator := if b = 1 then [] else '/' :: Nat.toDigits 10 b
  have digits : ∀ c ∈ numerator, c.isDigit = true := by
    intro c hc
    simp only [numerator] at hc
    split at hc
    · cases hc
    · exact isDigit_of_mem_toDigits hc
  have stops : ∀ c ∈ ('π' :: denominator).head?, c.isDigit = false := by simp
  have text : (fractionText negative a b).toList =
      (if negative then ['-'] else []) ++ (numerator ++ 'π' :: denominator) := by
    simp only [fractionText, String.toList_append, numerator, denominator]
    split <;> split <;> split <;> simp
  have value : wholeOrOne numerator = a := by
    simp only [wholeOrOne, numerator]
    split <;> simp_all [decimalValue_toDigits]
  have unsigned : unsignedFraction? (numerator ++ 'π' :: denominator) = some ((a : Rat) / b) := by
    obtain ⟨taken, left⟩ := Binary64.span_digits digits stops
    simp only [unsignedFraction?, taken, left, value, denominator]
    by_cases whole : b = 1
    · simp [whole]
    · have all : (Nat.toDigits 10 b).all Char.isDigit = true :=
        List.all_eq_true.mpr fun c hc => isDigit_of_mem_toDigits hc
      simp only [if_neg whole, decimalValue_toDigits, all, ne_eq, Nat.toDigits_ne_nil,
        not_false_eq_true, and_self, if_true]
  rw [fractionOfPi?, text]
  cases negative with
  | true => simp [unsigned]
  | false =>
      simp only [Bool.false_eq_true, if_false, List.nil_append]
      split
      · rename_i zero
        have letter : 'π' ∈ numerator ++ 'π' :: denominator := by simp
        rw [zero] at letter
        simp at letter
      · rename_i rest signed
        cases first : numerator with
        | nil => simp [first] at signed
        | cons c others =>
            rw [first, List.cons_append, List.cons.injEq] at signed
            have digit := digits c (by simp [first])
            rw [signed.1] at digit
            cases digit
      · exact unsigned

/-- The text of a fraction of pi with a positive denominator is read back as the number that the
fraction stands for. -/
theorem fractionOfPi?_piFraction {n d : Int64} (hd : 0 < d.toInt) :
    fractionOfPi? (piFraction n d) = some ((n.toInt : Rat) / d.toInt) := by
  by_cases hn : n = 0
  · subst hn
    simp [piFraction, fractionOfPi?]
  · have nonzero : n.toInt ≠ 0 := fun zero => hn (Int64.toInt_inj.mp zero)
    have hd' : d ≠ 0 := by
      rintro rfl
      exact absurd hd (by decide)
    have lowest := @lowestTerms_gcd n.toInt.natAbs d.toInt.natAbs (Int.natAbs_pos.mpr nonzero)
      (Int.natAbs_pos.mpr hd.ne')
    have below : decide (n < 0) = decide (n.toInt < 0) := by
      rw [decide_eq_decide, Int64.lt_iff_toInt_lt]
      rfl
    rw [piFraction_eq hn hd' lowest, fractionOfPi?_fractionText, lowest.ratio (by omega), below,
      Nat.cast_natAbs, Nat.cast_natAbs, abs_of_pos hd]
    by_cases negative : n.toInt < 0
    · simp only [negative, decide_true, if_true, abs_of_neg negative, Int.cast_neg, neg_div, neg_neg]
    · simp only [negative, decide_false, Bool.false_eq_true, if_false,
        abs_of_nonneg (not_lt.mp negative)]

/-! ### Sixteenths -/

/-- A multiple of a sixteenth of pi is shown as zero, or as the fraction in lowest terms with its
sign, where a one is left out. So its text is read back as the multiple, and different multiples
have different texts. The loop ends for all words with their greatest common divisor, by which a
word can be divided here. -/
theorem piFraction_sixteenths :
    (∀ n : Int64,
      (piFraction n 16 = "0" ↔ n = 0) ∧
      (n ≠ 0 → ∃ a b, LowestTerms n.toInt.natAbs 16 a b ∧
        (∀ a' b', LowestTerms n.toInt.natAbs 16 a' b' → a' = a ∧ b' = b) ∧
        piFraction n 16 = (if n < 0 then "-" else "") ++ (if a = 1 then "" else Nat.repr a) ++ "π"
          ++ (if b = 1 then "" else "/" ++ Nat.repr b)) ∧
      fractionOfPi? (piFraction n 16) = some ((n.toInt : Rat) / 16) ∧
      commonDivisor (unsignedMagnitude n) (unsignedMagnitude 16) ≠ 0) ∧
    (∀ n m : Int64, piFraction n 16 = piFraction m 16 → n = m) ∧
    ∀ a b : UInt64, DivisorLoop a b (commonDivisor a b) ∧
      (commonDivisor a b).toNat = Nat.gcd a.toNat b.toNat := by
  have read : ∀ n : Int64, fractionOfPi? (piFraction n 16) = some ((n.toInt : Rat) / 16) :=
    fun n => fractionOfPi?_piFraction (by decide)
  have injective : ∀ n m : Int64, piFraction n 16 = piFraction m 16 → n = m := by
    intro n m same
    have equal := read n
    rw [same, read m, Option.some.injEq, div_left_inj' (by norm_num), Int.cast_inj] at equal
    exact Int64.toInt_inj.mp equal.symm
  refine ⟨fun n => ⟨⟨injective n 0, fun zero => by rw [zero]; rfl⟩, ?_, read n, ?_⟩, injective,
    fun a b => ⟨commonDivisor_loop a b, commonDivisor_toNat a b⟩⟩
  · intro hn
    have positive : 0 < n.toInt.natAbs :=
      Int.natAbs_pos.mpr fun zero => hn (Int64.toInt_inj.mp zero)
    have lowest := @lowestTerms_gcd n.toInt.natAbs 16 positive (by decide)
    refine ⟨_, _, lowest, fun a b other => lowest.unique other positive, ?_⟩
    rw [@piFraction_eq n 16 _ _ hn (by decide) lowest]
    simp only [fractionText, decide_eq_true_eq]
  · intro zero
    have divisor := commonDivisor_toNat (unsignedMagnitude n) (unsignedMagnitude 16)
    rw [zero, unsignedMagnitude_toNat, unsignedMagnitude_toNat] at divisor
    exact absurd (Nat.gcd_eq_zero_iff.mp divisor.symm).2 (by decide)

/-- The least number has no counterpart above zero, and is shown like any other. -/
example : piFraction Int64.minValue 16 = "-576460752303423488π" := by decide +kernel

end QasmDiagram
