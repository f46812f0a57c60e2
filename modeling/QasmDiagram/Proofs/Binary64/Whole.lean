/-
Module: QasmDiagram.Proofs.Binary64.Whole
Purpose: Whole numbers as floating-point numbers. Below two to the power 53 the nearest number is the
  whole number itself, and from there on it is no smaller than that power, so rounding never leads
  to a smaller index.
Trusted boundary: none
Main exports: Binary64.floorLog2_one, Binary64.ofRatio_one, Binary64.natural?_ofRatio_one,
  Binary64.le_of_natural?_ofRatio_one
-/
import Mathlib.Tactic.IntervalCases
import QasmDiagram.Binary64

namespace QasmDiagram

namespace Binary64

/-! ### Quotients -/

theorem ratioOf_natCast (s k : Nat) : ratioOf s k = (s * 2 ^ k, 1) := by
  rw [ratioOf, if_pos (Int.natCast_nonneg k), Int.toNat_natCast, Nat.pow_eq]

theorem ratioOf_neg (s k : Nat) : ratioOf s (-(k : Int)) = (s, 2 ^ k) := by
  rw [ratioOf, Int.neg_neg, Int.toNat_natCast]
  split
  · rw [show k = 0 by omega]
    simp
  · rw [Nat.pow_eq]

/-- A number without a sign is a natural number if its quotient is. -/
theorem natural?_of_ratio {rank : Fin rankLimit} {num den : Nat} (h : ratio rank = (num, den)) :
    (finite false rank).natural? = if num % den = 0 then some (num / den) else none := by
  simp only [natural?, h, Bool.false_and, Bool.false_or, bne_iff_ne, ne_eq, ite_not]

/-! ### Significands of full length -/

section

variable {unit m : Nat}

/-- The parts of a rank whose significand has full length. -/
theorem rank_parts (full : ranksPerExponent ≤ m) (short : m < 2 * ranksPerExponent) :
    (unit * ranksPerExponent + m) / ranksPerExponent = unit + 1 ∧
      (unit * ranksPerExponent + m) % ranksPerExponent = m - ranksPerExponent := by
  rw [ranksPerExponent] at *
  omega

theorem significand_full (full : ranksPerExponent ≤ m) (short : m < 2 * ranksPerExponent) :
    significand (unit * ranksPerExponent + m) = m := by
  obtain ⟨quotient, remainder⟩ := @rank_parts unit m full short
  rw [significand, quotient, remainder, if_neg (Nat.succ_ne_zero unit)]
  omega

theorem exponent_full (full : ranksPerExponent ≤ m) (short : m < 2 * ranksPerExponent) :
    exponent (unit * ranksPerExponent + m) = leastExponent + unit := by
  rw [exponent, (@rank_parts unit m full short).1, Nat.add_sub_cancel]

end

/-! ### Rounding of whole numbers -/

/-- The greatest power of two that is not above a whole number. -/
theorem floorLog2_one {n : Nat} (h : n ≠ 0) : floorLog2 n 1 = Nat.log2 n := by
  have below : ¬ n < 2 ^ n.log2 := Nat.not_lt.mpr (Nat.log2_self_le h)
  have one : Nat.log2 1 = 0 := by decide
  simp [floorLog2, ratioOf, one, below]

/-- A whole number is its own nearest. -/
theorem roundHalfEven_one (n : Nat) : roundHalfEven n 1 = n := by
  simp [roundHalfEven, Nat.mod_one]

/-- Rounding goes below no whole number that is passed. -/
theorem div_le_roundHalfEven (num den : Nat) : num / den ≤ roundHalfEven num den := by
  unfold roundHalfEven
  dsimp only
  split
  · exact Nat.le_refl _
  · split <;> omega

/-- A whole number of at most 53 binary digits is brought to full length. -/
theorem scaled_bounds {n : Nat} (nonzero : n ≠ 0) (h : n < 2 ^ 53) :
    n.log2 ≤ 52 ∧ ranksPerExponent ≤ n * 2 ^ (52 - n.log2) ∧
      n * 2 ^ (52 - n.log2) < 2 * ranksPerExponent := by
  have digits : n.log2 ≤ 52 := Nat.lt_succ_iff.mp ((Nat.log2_lt nonzero).mpr h)
  refine ⟨digits, ?_, ?_⟩
  · calc ranksPerExponent = 2 ^ n.log2 * 2 ^ (52 - n.log2) := by
          rw [← Nat.pow_add, Nat.add_sub_cancel' digits]; rfl
      _ ≤ n * 2 ^ (52 - n.log2) := Nat.mul_le_mul_right _ (Nat.log2_self_le nonzero)
  · calc n * 2 ^ (52 - n.log2) < 2 ^ (n.log2 + 1) * 2 ^ (52 - n.log2) :=
          Nat.mul_lt_mul_of_pos_right Nat.lt_log2_self (Nat.two_pow_pos _)
      _ = 2 * ranksPerExponent := by
          rw [← Nat.pow_add, show n.log2 + 1 + (52 - n.log2) = 53 by omega]; rfl

/-- The number nearest to a whole number of at most 53 binary digits: it loses no digit. -/
theorem ofRatio_one {n : Nat} (nonzero : n ≠ 0) (h : n < 2 ^ 53) (negative : Bool) :
    ∃ rank, rank.val = (1022 + n.log2) * ranksPerExponent + n * 2 ^ (52 - n.log2) ∧
      ofRatio negative n 1 = .finite negative rank := by
  obtain ⟨digits, full, short⟩ := scaled_bounds nonzero h
  have exp : max ((n.log2 : Int) - 52) leastExponent = -((52 - n.log2 : Nat) : Int) := by
    rw [leastExponent]
    omega
  have steps : (-((52 - n.log2 : Nat) : Int) - leastExponent).toNat = 1022 + n.log2 := by
    rw [leastExponent]
    omega
  have fits : (1022 + n.log2) * ranksPerExponent + n * 2 ^ (52 - n.log2) < rankLimit := by
    have := Nat.mul_le_mul_right ranksPerExponent (show 1022 + n.log2 ≤ 1074 by omega)
    rw [ranksPerExponent] at *
    rw [rankLimit]
    omega
  refine ⟨⟨_, fits⟩, rfl, ?_⟩
  simp only [ofRatio, if_neg nonzero, floorLog2_one nonzero, exp, ratioOf_neg, roundHalfEven_one,
    ofRank, steps, dif_pos fits]

theorem ofRatio_one_finite {n : Nat} (h : n < 2 ^ 53) (negative : Bool) :
    ∃ rank, ofRatio negative n 1 = .finite negative rank := by
  by_cases zero : n = 0
  · exact ⟨⟨0, by decide⟩, by simp [ofRatio, zero, Binary64.zero]⟩
  · obtain ⟨rank, _, read⟩ := ofRatio_one zero h negative
    exact ⟨rank, read⟩

/-- Below two to the power 53 a whole number is a floating-point number, and is told as itself. -/
theorem natural?_ofRatio_one {n : Nat} (h : n < 2 ^ 53) : (ofRatio false n 1).natural? = some n := by
  by_cases zero : n = 0
  · subst zero
    decide +kernel
  obtain ⟨digits, full, short⟩ := scaled_bounds zero h
  obtain ⟨rank, place, read⟩ := ofRatio_one zero h false
  have exp : leastExponent + ((1022 + n.log2 : Nat) : Int) = -((52 - n.log2 : Nat) : Int) := by
    rw [leastExponent]
    omega
  have parts : ratio rank = (n * 2 ^ (52 - n.log2), 2 ^ (52 - n.log2)) := by
    rw [ratio, place, significand_full full short, exponent_full full short, exp, ratioOf_neg]
  rw [read, natural?_of_ratio parts, Nat.mul_mod_left, if_pos rfl,
    Nat.mul_div_cancel _ (Nat.two_pow_pos _)]

/-- The numbers from a rank on are natural numbers, none below two to the power 53. -/
theorem le_of_natural?_of_le {rank : Fin rankLimit} (h : 1076 * ranksPerExponent ≤ rank.val)
    {m : Nat} (read : (finite false rank).natural? = some m) : 2 ^ 53 ≤ m := by
  have upper : 1076 ≤ rank.val / ranksPerExponent :=
    (Nat.le_div_iff_mul_le (by decide)).mpr h
  obtain ⟨k, hk⟩ : ∃ k, rank.val / ranksPerExponent = k + 1076 := ⟨_, (Nat.sub_add_cancel upper).symm⟩
  have full : ranksPerExponent ≤ significand rank := by
    rw [significand, hk, if_neg (by omega)]
    exact Nat.le_add_right _ _
  have exp : exponent rank = ((k + 1 : Nat) : Int) := by
    rw [exponent, hk, leastExponent]
    omega
  have parts : ratio rank = (significand rank * 2 ^ (k + 1), 1) := by
    rw [ratio, exp, ratioOf_natCast]
  rw [natural?_of_ratio parts, Nat.mod_one, if_pos rfl, Nat.div_one, Option.some.injEq] at read
  calc 2 ^ 53 = ranksPerExponent * 2 ^ 1 := rfl
    _ ≤ significand rank * 2 ^ (k + 1) :=
        Nat.mul_le_mul full (Nat.pow_le_pow_right (by decide) (Nat.le_add_left 1 k))
    _ = m := read

/-- From two to the power 53 on, rounding may change a whole number, but leads to none below. -/
theorem le_of_natural?_ofRatio_one {n m : Nat} (h : 2 ^ 53 ≤ n)
    (read : (ofRatio false n 1).natural? = some m) : 2 ^ 53 ≤ m := by
  have nonzero : n ≠ 0 := by omega
  obtain ⟨unit, hunit⟩ : ∃ unit, n.log2 = unit + 53 :=
    ⟨_, (Nat.sub_add_cancel ((Nat.le_log2 nonzero).mpr h)).symm⟩
  have exp : max ((n.log2 : Int) - 52) leastExponent = ((unit + 1 : Nat) : Int) := by
    rw [leastExponent]
    omega
  have steps : (((unit + 1 : Nat) : Int) - leastExponent).toNat = unit + 1075 := by
    rw [leastExponent]
    omega
  have full : ranksPerExponent ≤ roundHalfEven n (2 ^ (unit + 1)) := by
    refine Nat.le_trans ?_ (div_le_roundHalfEven n _)
    rw [Nat.le_div_iff_mul_le (Nat.two_pow_pos _)]
    calc ranksPerExponent * 2 ^ (unit + 1) = 2 ^ n.log2 := by
          rw [hunit, show unit + 53 = 52 + (unit + 1) by omega, Nat.pow_add 2 52]
          rfl
      _ ≤ n := Nat.log2_self_le nonzero
  have rounded : ofRatio false n 1 =
      ofRank false ((unit + 1075) * ranksPerExponent + roundHalfEven n (2 ^ (unit + 1))) := by
    simp only [ofRatio, if_neg nonzero, floorLog2_one nonzero, exp, ratioOf_natCast, steps,
      Nat.mul_one, Nat.one_mul]
  rw [rounded, ofRank] at read
  split at read
  · refine le_of_natural?_of_le ?_ read
    dsimp only
    rw [ranksPerExponent] at *
    omega
  · cases read

end Binary64

end QasmDiagram
