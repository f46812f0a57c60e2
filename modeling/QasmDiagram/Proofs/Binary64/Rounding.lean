/-
Module: QasmDiagram.Proofs.Binary64.Rounding
Purpose: Floating-point operations as rational arithmetic. A finite number stands for a dyadic
  fraction, every operation rounds the exact result of the fractions, and a number that needs no
  rounding is left as it is.
Trusted boundary: none
Main exports: nearestEven, Binary64.magnitude, Binary64.nearest, Binary64.ofRatio_eq,
  Binary64.Spacing, Binary64.StandsFor, Binary64.Spacing.standsFor_nearest,
  Binary64.Spacing.relative_error, Binary64.nearest_magnitude, Binary64.StandsFor.mul_eq,
  Binary64.StandsFor.div_eq, Binary64.StandsFor.distance_eq, Binary64.StandsFor.nearestInt?_eq
-/
import Mathlib.Algebra.Order.Floor.Semifield
import Mathlib.Data.Int.Log
import Mathlib.Data.Rat.Floor
import Mathlib.Tactic.FieldSimp
import Mathlib.Tactic.Linarith
import QasmDiagram.Proofs.Binary64.Whole

namespace QasmDiagram

/-! ### Whole numbers next to a fraction -/

/-- The whole number nearest to a fraction that is not negative; a tie goes to the even one. -/
def nearestEven (q : Rat) : Nat :=
  let whole := ⌊q⌋₊
  if 2 * (q - whole) < 1 then whole
  else if 1 < 2 * (q - whole) then whole + 1
  else whole + whole % 2

/-- Rounding a quotient of whole numbers is rounding the fraction. -/
theorem roundHalfEven_eq (num : Nat) {den : Nat} (positive : 0 < den) :
    roundHalfEven num den = nearestEven (num / den) := by
  have den_pos : (0 : Rat) < den := Nat.cast_pos.mpr positive
  have rest : (num : Rat) / den - (num / den : Nat) = (num % den : Nat) / den := by
    have parts : (den : Rat) * (num / den : Nat) + (num % den : Nat) = num := by
      exact_mod_cast Nat.div_add_mod num den
    rw [eq_div_iff den_pos.ne', sub_mul, div_mul_cancel₀ _ den_pos.ne']
    linarith
  have below : 2 * ((num % den : Nat) / (den : Rat)) < 1 ↔ 2 * (num % den) < den := by
    rw [← mul_div_assoc, div_lt_one den_pos]
    exact_mod_cast Iff.rfl
  have above : 1 < 2 * ((num % den : Nat) / (den : Rat)) ↔ den < 2 * (num % den) := by
    rw [← mul_div_assoc, one_lt_div den_pos]
    exact_mod_cast Iff.rfl
  simp only [roundHalfEven, nearestEven, Nat.floor_div_eq_div, rest, below, above]

/-- The nearest whole number is at most one half away. -/
theorem nearestEven_error {q : Rat} (positive : 0 ≤ q) : |(nearestEven q : Rat) - q| ≤ 1 / 2 := by
  have low := Nat.floor_le positive
  have high := Nat.lt_floor_add_one q
  rw [nearestEven, abs_le]
  split
  · constructor <;> linarith
  · split
    · push_cast
      constructor <;> linarith
    · obtain even | odd := Nat.mod_two_eq_zero_or_one ⌊q⌋₊
      · rw [even, Nat.add_zero]
        constructor <;> linarith
      · rw [odd]
        push_cast
        constructor <;> linarith

theorem nearestEven_natCast (n : Nat) : nearestEven n = n := by
  simp [nearestEven]

theorem nearestEven_multiple (n : Nat) (exp : Int) : nearestEven (n * 2 ^ exp / 2 ^ exp) = n := by
  rw [mul_div_cancel_right₀ _ (zpow_ne_zero _ two_ne_zero), nearestEven_natCast]

/-- Rounding goes below no whole number that the fraction reaches. -/
theorem le_nearestEven {q : Rat} {n : Nat} (h : n ≤ q) : n ≤ nearestEven q := by
  have error := abs_le.mp (nearestEven_error (n.cast_nonneg.trans h))
  have next : (n : Rat) < nearestEven q + 1 := by linarith
  exact Nat.lt_succ_iff.mp (by exact_mod_cast next)

/-- Rounding goes above no whole number that the fraction does not pass. -/
theorem nearestEven_le {q : Rat} {n : Nat} (positive : 0 ≤ q) (h : q ≤ n) : nearestEven q ≤ n := by
  have error := abs_le.mp (nearestEven_error positive)
  have next : (nearestEven q : Rat) < n + 1 := by linarith
  exact Nat.lt_succ_iff.mp (by exact_mod_cast next)

/-- A fraction less than one off a whole number goes to it or to a neighbour. -/
theorem nearestEven_near {q : Rat} {n : Nat} (positive : 0 ≤ q) (off : |q - n| < 1) :
    nearestEven q = n ∨ nearestEven q = n + 1 ∨ nearestEven q + 1 = n := by
  obtain ⟨below, above⟩ := abs_le.mp (nearestEven_error positive)
  obtain ⟨less, more⟩ := abs_lt.mp off
  have upper : (nearestEven q : Rat) < n + 2 := by linarith
  have lower : (n : Rat) < nearestEven q + 2 := by linarith
  norm_cast at upper lower
  omega

namespace Binary64

/-! ### Magnitudes -/

/-- The fraction that the magnitude of a rank is. -/
def magnitude (rank : Nat) : Rat :=
  significand rank * 2 ^ exponent rank

theorem ratioOf_pos (s : Nat) (e : Int) : 0 < (ratioOf s e).2 := by
  rw [ratioOf]
  split
  · exact Nat.one_pos
  · exact Nat.two_pow_pos _

theorem ratioOf_eq (s : Nat) (e : Int) :
    ((ratioOf s e).1 : Rat) / (ratioOf s e).2 = s * 2 ^ e := by
  obtain ⟨k, rfl | rfl⟩ := e.eq_nat_or_neg
  · rw [ratioOf_natCast]
    push_cast
    rw [div_one, zpow_natCast]
  · rw [ratioOf_neg, zpow_neg, zpow_natCast, div_eq_mul_inv]
    push_cast
    rfl

theorem ratio_eq (rank : Nat) : ((ratio rank).1 : Rat) / (ratio rank).2 = magnitude rank :=
  ratioOf_eq _ _

theorem magnitude_nonneg (rank : Nat) : 0 ≤ magnitude rank :=
  mul_nonneg (Nat.cast_nonneg _) (zpow_nonneg (by norm_num) _)

@[simp]
theorem magnitude_zero : magnitude 0 = 0 := by
  simp [magnitude, significand]

theorem significand_pos {rank : Nat} (h : rank ≠ 0) : 0 < significand rank := by
  rw [significand]
  split
  · omega
  · exact Nat.add_pos_left (by decide) _

theorem magnitude_pos {rank : Nat} (h : rank ≠ 0) : 0 < magnitude rank :=
  mul_pos (Nat.cast_pos.mpr (significand_pos h)) (zpow_pos (by norm_num) _)

/-- The magnitude of a rank whose significand has full length. The carry into the next exponent is
no exception. -/
theorem magnitude_full {unit m : Nat} (full : ranksPerExponent ≤ m)
    (short : m ≤ 2 * ranksPerExponent) :
    magnitude (unit * ranksPerExponent + m) = m * 2 ^ (leastExponent + unit) := by
  obtain carry | short := short.eq_or_lt
  · have next : unit * ranksPerExponent + m = (unit + 1) * ranksPerExponent + ranksPerExponent := by
      rw [carry]
      ring
    have room : ranksPerExponent < 2 * ranksPerExponent := by decide
    rw [next, magnitude, significand_full le_rfl room, exponent_full le_rfl room, carry,
      Nat.cast_add, Nat.cast_one, ← add_assoc, zpow_add_one₀ two_ne_zero]
    push_cast
    ring
  · rw [magnitude, significand_full full short, exponent_full full short]

/-! ### Rounding of fractions -/

/-- The binary logarithm is the exponent of the powers of two around a fraction. -/
theorem log_two_eq {q : Rat} {e : Int} (low : 2 ^ e ≤ q) (high : q < 2 ^ (e + 1)) :
    Int.log 2 q = e := by
  have positive : 0 < q := (zpow_pos two_pos e).trans_le low
  have lower : e ≤ Int.log 2 q :=
    (Int.zpow_le_iff_le_log one_lt_two positive).mp (by exact_mod_cast low)
  have upper : Int.log 2 q < e + 1 :=
    (Int.lt_zpow_iff_log_lt one_lt_two positive).mp (by exact_mod_cast high)
  omega

/-- A quotient lies less than one power of two off the guess from the lengths of its parts. -/
theorem guess_bounds {num den : Nat} (hn : num ≠ 0) (hd : den ≠ 0) :
    (2 : Rat) ^ ((num.log2 : Int) - den.log2 - 1) ≤ num / den ∧
      (num : Rat) / den < 2 ^ ((num.log2 : Int) - den.log2 + 1) := by
  have den_pos : (0 : Rat) < den := by exact_mod_cast Nat.pos_of_ne_zero hd
  have two_pow_le : ∀ {n : Nat}, n ≠ 0 → (2 : Rat) ^ (n.log2 : Int) ≤ n := fun h => by
    exact_mod_cast Nat.log2_self_le h
  have lt_two_pow : ∀ n : Nat, (n : Rat) < 2 ^ ((n.log2 : Int) + 1) := fun n => by
    exact_mod_cast Nat.lt_log2_self
  have weight : ∀ e : Int, (0 : Rat) < 2 ^ e := zpow_pos two_pos
  rw [le_div_iff₀ den_pos, div_lt_iff₀ den_pos]
  constructor
  · calc (2 : Rat) ^ ((num.log2 : Int) - den.log2 - 1) * den
        ≤ 2 ^ ((num.log2 : Int) - den.log2 - 1) * 2 ^ ((den.log2 : Int) + 1) :=
          mul_le_mul_of_nonneg_left (lt_two_pow den).le (weight _).le
      _ = 2 ^ (num.log2 : Int) := by
          rw [← zpow_add₀ two_ne_zero]
          congr 1
          ring
      _ ≤ num := two_pow_le hn
  · calc (num : Rat) < 2 ^ ((num.log2 : Int) + 1) := lt_two_pow num
      _ = 2 ^ ((num.log2 : Int) - den.log2 + 1) * 2 ^ (den.log2 : Int) := by
          rw [← zpow_add₀ two_ne_zero]
          congr 1
          ring
      _ ≤ 2 ^ ((num.log2 : Int) - den.log2 + 1) * den :=
          mul_le_mul_of_nonneg_left (two_pow_le hd) (weight _).le

/-- The power of two that opens the range of a positive quotient. -/
theorem floorLog2_eq {num den : Nat} (hn : num ≠ 0) (hd : den ≠ 0) :
    floorLog2 num den = Int.log 2 ((num : Rat) / den) := by
  obtain ⟨low, high⟩ := guess_bounds hn hd
  have den_pos : (0 : Rat) < den := by exact_mod_cast Nat.pos_of_ne_zero hd
  rw [floorLog2]
  generalize (num.log2 : Int) - den.log2 = guess at *
  have test : num * (ratioOf den guess).2 < (ratioOf den guess).1 ↔
      (num : Rat) / den < 2 ^ guess := by
    have scale_pos : (0 : Rat) < (ratioOf den guess).2 := by exact_mod_cast ratioOf_pos den guess
    rw [div_lt_iff₀' den_pos, ← ratioOf_eq, lt_div_iff₀ scale_pos]
    exact_mod_cast Iff.rfl
  simp only [test]
  split
  next below => exact (log_two_eq low (by rwa [sub_add_cancel])).symm
  next above => exact (log_two_eq (not_lt.mp above) high).symm

/-- The rank nearest to a positive fraction. -/
def nearestRank (q : Rat) : Nat :=
  let exp := max (Int.log 2 q - 52) leastExponent
  (exp - leastExponent).toNat * ranksPerExponent + nearestEven (q / 2 ^ exp)

/-- The number nearest to a fraction, with a sign. -/
def nearest (negative : Bool) (q : Rat) : Binary64 :=
  if q = 0 then zero negative else ofRank negative (nearestRank q)

/-- Rounding a quotient of whole numbers is rounding the fraction. -/
theorem ofRatio_eq (negative : Bool) (num : Nat) {den : Nat} (positive : 0 < den) :
    ofRatio negative num den = nearest negative (num / den) := by
  have den_pos : (den : Rat) ≠ 0 := Nat.cast_ne_zero.mpr positive.ne'
  by_cases hn : num = 0
  · simp [ofRatio, nearest, hn]
  · have nonzero : (num : Rat) / den ≠ 0 := div_ne_zero (Nat.cast_ne_zero.mpr hn) den_pos
    have scaled : ∀ exp, roundHalfEven (num * (ratioOf den exp).2) (ratioOf den exp).1 =
        nearestEven (num / den / 2 ^ exp) := fun exp => by
      have quotient := ratioOf_eq den exp
      have scale_pos : (0 : Rat) < (ratioOf den exp).2 := by exact_mod_cast ratioOf_pos den exp
      have unit_pos : 0 < (ratioOf den exp).1 := by
        have : (0 : Rat) < (ratioOf den exp).1 := by
          rw [← div_pos_iff_of_pos_right scale_pos, quotient]
          exact mul_pos (Nat.cast_pos.mpr positive) (zpow_pos two_pos _)
        exact_mod_cast this
      rw [roundHalfEven_eq _ unit_pos, div_div, ← quotient]
      push_cast
      rw [mul_div_assoc, div_div_eq_mul_div, mul_div_assoc]
    simp only [ofRatio, if_neg hn, nearest, if_neg nonzero, nearestRank,
      floorLog2_eq hn positive.ne', scaled]

theorem ofScaled_eq (negative : Bool) (s : Nat) (e : Int) :
    ofScaled negative s e = nearest negative (s * 2 ^ e) := by
  rw [ofScaled, ofRatio_eq _ _ (ratioOf_pos s e), ratioOf_eq]

theorem ofInt_eq (k : Int) : ofInt k = nearest (k < 0) k.natAbs := by
  rw [ofInt, ofRatio_eq _ _ Nat.one_pos, Nat.cast_one, div_one]

/-! ### Binades -/

/-- The fraction lies where the numbers are the multiples of `2 ^ exp` by integers of full length,
and these are neither subnormal nor next to infinity. -/
structure Spacing (q : Rat) (exp : Int) : Prop where
  least : leastExponent ≤ exp
  most : exp ≤ 970
  low : 2 ^ 52 * 2 ^ exp ≤ q
  high : q < 2 ^ 53 * 2 ^ exp

/-- The number stands for the fraction with the sign. -/
def StandsFor (x : Binary64) (negative : Bool) (q : Rat) : Prop :=
  ∃ rank, x = .finite negative rank ∧ magnitude rank = q

section

variable {negative : Bool} {q : Rat} {exp : Int}

theorem two_pow_mul_zpow (n : Nat) (e : Int) : (2 : Rat) ^ n * 2 ^ e = 2 ^ (n + e) := by
  rw [zpow_add₀ two_ne_zero, zpow_natCast]

/-- An integer of full length and an exponent make a number. -/
theorem standsFor_ofRank {m : Nat} (full : 2 ^ 52 ≤ m) (short : m ≤ 2 ^ 53)
    (least : leastExponent ≤ exp) (most : exp ≤ 970) :
    StandsFor (ofRank negative ((exp - leastExponent).toNat * ranksPerExponent + m)) negative
      (m * 2 ^ exp) := by
  have place : leastExponent + ((exp - leastExponent).toNat : Int) = exp := by omega
  have fits : (exp - leastExponent).toNat * ranksPerExponent + m < rankLimit := by
    rw [leastExponent, ranksPerExponent, rankLimit] at *
    omega
  refine ⟨⟨_, fits⟩, dif_pos fits, ?_⟩
  rw [magnitude_full full short, place]

/-- The rank of a fraction counts the multiples of its unit, behind the ranks of smaller units. -/
theorem nearestRank_eq (least : leastExponent ≤ exp) (low : 2 ^ 52 * 2 ^ exp ≤ q)
    (high : q < 2 ^ 53 * 2 ^ exp) :
    nearestRank q =
      (exp - leastExponent).toNat * ranksPerExponent + nearestEven (q / 2 ^ exp) := by
  have log : Int.log 2 q = 52 + exp := by
    apply log_two_eq
    · exact (two_pow_mul_zpow 52 exp).symm.trans_le low
    · rw [show (52 + exp + 1 : Int) = (53 : Nat) + exp by push_cast; ring, ← two_pow_mul_zpow]
      exact high
  rw [nearestRank, log, add_sub_cancel_left, max_eq_left least]

namespace Spacing

theorem pos (h : Spacing q exp) : 0 < q :=
  (mul_pos (by norm_num) (zpow_pos two_pos exp)).trans_le h.low

theorem scaled_bounds (h : Spacing q exp) : 2 ^ 52 ≤ q / 2 ^ exp ∧ q / 2 ^ exp < 2 ^ 53 := by
  have unit : (0 : Rat) < 2 ^ exp := zpow_pos two_pos exp
  rw [le_div_iff₀ unit, div_lt_iff₀ unit]
  exact ⟨h.low, h.high⟩

/-- A power of two is above a fraction if it is above the power that opens its range. -/
theorem lt_zpow_iff (h : Spacing q exp) (e : Int) : q < 2 ^ e ↔ exp + 52 < e := by
  have low := h.low
  have high := h.high
  rw [two_pow_mul_zpow] at low high
  constructor
  · intro below
    have := (zpow_lt_zpow_iff_right₀ one_lt_two).mp (low.trans_lt below)
    omega
  · intro below
    exact high.trans_le (zpow_le_zpow_right₀ one_le_two (by omega))

theorem zpow_le_iff (h : Spacing q exp) (e : Int) : 2 ^ e ≤ q ↔ e ≤ exp + 52 := by
  rw [← not_lt, h.lt_zpow_iff, not_lt]

/-- The rounded integer has full length, or is the least that is longer. -/
theorem nearestEven_bounds (h : Spacing q exp) :
    2 ^ 52 ≤ nearestEven (q / 2 ^ exp) ∧ nearestEven (q / 2 ^ exp) ≤ 2 ^ 53 := by
  obtain ⟨low, high⟩ := h.scaled_bounds
  refine ⟨le_nearestEven (by exact_mod_cast low), nearestEven_le ?_ (by exact_mod_cast high.le)⟩
  exact div_nonneg h.pos.le (zpow_nonneg two_pos.le exp)

/-- The number nearest to a fraction stands for the nearest multiple. -/
theorem standsFor_nearest (h : Spacing q exp) (negative : Bool) :
    StandsFor (nearest negative q) negative (nearestEven (q / 2 ^ exp) * 2 ^ exp) := by
  rw [nearest, if_neg h.pos.ne', nearestRank_eq h.least h.low h.high]
  exact standsFor_ofRank h.nearestEven_bounds.1 h.nearestEven_bounds.2 h.least h.most

/-- The nearest multiple is off by half a unit in the last place at most. -/
theorem error (h : Spacing q exp) :
    |nearestEven (q / 2 ^ exp) * 2 ^ exp - q| ≤ 2 ^ exp / 2 := by
  have unit : (0 : Rat) < 2 ^ exp := zpow_pos two_pos exp
  have half := nearestEven_error (div_nonneg h.pos.le unit.le)
  calc |nearestEven (q / 2 ^ exp) * 2 ^ exp - q|
      = |nearestEven (q / 2 ^ exp) - q / 2 ^ exp| * 2 ^ exp := by
        rw [← abs_of_pos unit, ← abs_mul, abs_of_pos unit, sub_mul, div_mul_cancel₀ _ unit.ne']
    _ ≤ 1 / 2 * 2 ^ exp := mul_le_mul_of_nonneg_right half unit.le
    _ = 2 ^ exp / 2 := by ring

/-- The nearest multiple is off by the fraction's part in two to the power 53 at most. -/
theorem relative_error (h : Spacing q exp) :
    |nearestEven (q / 2 ^ exp) * 2 ^ exp - q| ≤ q / 2 ^ 53 := by
  have low := h.low
  have error := h.error
  rw [le_div_iff₀ (by norm_num)]
  linarith

end Spacing

/-- Every fraction from the least normal number up to the last exponent has its spacing. -/
theorem exists_spacing (low : 2 ^ (-1022 : Int) ≤ q) (high : q < 2 ^ (1023 : Int)) :
    ∃ exp, Spacing q exp := by
  have positive : 0 < q := (zpow_pos two_pos _).trans_le low
  have above : -1022 ≤ Int.log 2 q :=
    (Int.zpow_le_iff_le_log one_lt_two positive).mp (by rwa [Nat.cast_ofNat])
  have below : Int.log 2 q < 1023 :=
    (Int.lt_zpow_iff_log_lt one_lt_two positive).mp (by rwa [Nat.cast_ofNat])
  refine ⟨Int.log 2 q - 52, by rw [leastExponent]; omega, by omega, ?_, ?_⟩
  · rw [two_pow_mul_zpow, Nat.cast_ofNat, add_sub_cancel]
    exact_mod_cast Int.zpow_log_le_self one_lt_two positive
  · rw [two_pow_mul_zpow, show ((53 : Nat) : Int) + (Int.log 2 q - 52) = Int.log 2 q + 1 by
      push_cast; ring]
    exact_mod_cast Int.lt_zpow_succ_log_self one_lt_two q

theorem exists_spacing_natCast {n : Nat} (nonzero : n ≠ 0) (h : n ≤ 2 ^ 53) :
    ∃ exp, Spacing n exp := by
  apply exists_spacing
  · calc (2 : Rat) ^ (-1022 : Int) ≤ 1 := zpow_le_one_of_nonpos₀ one_le_two (by decide)
      _ ≤ n := by exact_mod_cast Nat.pos_of_ne_zero nonzero
  · calc (n : Rat) ≤ 2 ^ (53 : Int) := by exact_mod_cast h
      _ < 2 ^ (1023 : Int) := zpow_lt_zpow_right₀ one_lt_two (by decide)

end

/-! ### Numbers that need no rounding -/

/-- A subnormal rank counts the least units. -/
theorem nearestRank_subnormal {rank : Nat} (nonzero : rank ≠ 0) (short : rank < ranksPerExponent) :
    nearestRank (magnitude rank) = rank := by
  have first : rank / ranksPerExponent = 0 := Nat.div_eq_of_lt short
  have counted : magnitude rank = rank * 2 ^ leastExponent := by
    rw [magnitude, significand, exponent, first, if_pos rfl, Nat.zero_sub, Nat.cast_zero, add_zero]
  have below : magnitude rank < ((2 : Nat) : Rat) ^ (-1022 : Int) := by
    have unit : (0 : Rat) < 2 ^ leastExponent := zpow_pos two_pos _
    calc magnitude rank = rank * 2 ^ leastExponent := counted
      _ < 2 ^ 52 * 2 ^ leastExponent :=
          mul_lt_mul_of_pos_right (by exact_mod_cast short) unit
      _ = ((2 : Nat) : Rat) ^ (-1022 : Int) := two_pow_mul_zpow 52 _
  have log := (Int.lt_zpow_iff_log_lt one_lt_two (magnitude_pos nonzero)).mp below
  have exp : max (Int.log 2 (magnitude rank) - 52) leastExponent = leastExponent :=
    max_eq_right (by rw [leastExponent]; omega)
  rw [nearestRank, exp, sub_self, Int.toNat_zero, Nat.zero_mul, Nat.zero_add, counted,
    nearestEven_multiple]

/-- A rank of full length is the nearest to its own magnitude. -/
theorem nearestRank_full {unit m : Nat} (full : ranksPerExponent ≤ m)
    (short : m < 2 * ranksPerExponent) :
    nearestRank (magnitude (unit * ranksPerExponent + m)) = unit * ranksPerExponent + m := by
  have low : (2 : Rat) ^ 52 * 2 ^ (leastExponent + unit) ≤ m * 2 ^ (leastExponent + unit) :=
    mul_le_mul_of_nonneg_right (by exact_mod_cast full) (zpow_nonneg two_pos.le _)
  have high : (m : Rat) * 2 ^ (leastExponent + unit) < 2 ^ 53 * 2 ^ (leastExponent + unit) :=
    mul_lt_mul_of_pos_right (by exact_mod_cast short) (zpow_pos two_pos _)
  rw [magnitude_full full short.le, nearestRank_eq (by omega) low high, add_sub_cancel_left,
    Int.toNat_natCast, nearestEven_multiple]

/-- Every finite number is the nearest to the fraction it stands for. -/
theorem nearest_magnitude (negative : Bool) (rank : Fin rankLimit) :
    nearest negative (magnitude rank) = .finite negative rank := by
  by_cases zero : rank.val = 0
  · obtain rfl : rank = ⟨0, by decide⟩ := Fin.ext zero
    rw [nearest, if_pos magnitude_zero, Binary64.zero]
  · have same : nearestRank (magnitude rank) = rank := by
      by_cases short : rank.val < ranksPerExponent
      · exact nearestRank_subnormal zero short
      · obtain ⟨unit, m, place, full, short⟩ : ∃ unit m, rank.val = unit * ranksPerExponent + m ∧
            ranksPerExponent ≤ m ∧ m < 2 * ranksPerExponent := by
          refine ⟨rank / ranksPerExponent - 1, ranksPerExponent + rank % ranksPerExponent, ?_⟩
          rw [ranksPerExponent] at *
          omega
        rw [place]
        exact nearestRank_full full short
    rw [nearest, if_neg (magnitude_pos zero).ne', ofRank, same, dif_pos rank.isLt]

/-! ### Signs -/

/-- A fraction with a sign. -/
def withSign (negative : Bool) (q : Rat) : Rat :=
  if negative then -q else q

theorem withSign_mul (negative : Bool) (q r : Rat) :
    withSign negative (q * r) = withSign negative q * r := by
  cases negative <;> simp [withSign]

theorem signed_cast (negative : Bool) (n : Nat) :
    (signed negative n : Rat) = withSign negative n := by
  cases negative <;> simp [signed, withSign]

theorem signed_natAbs (negative : Bool) (n : Nat) : (signed negative n).natAbs = n := by
  cases negative <;> simp [signed]

/-- An integer is made of its sign and its magnitude. -/
theorem signed_self (k : Int) : signed (k < 0) k.natAbs = k := by
  rw [signed]
  by_cases negative : k < 0
  · rw [decide_eq_true negative, if_pos rfl]
    omega
  · rw [decide_eq_false negative, if_neg Bool.false_ne_true]
    omega

theorem withSign_natAbs (k : Int) : withSign (k < 0) k.natAbs = k := by
  rw [← signed_cast, signed_self]

theorem abs_withSign_sub (negative : Bool) (q r : Rat) :
    |withSign negative q - withSign negative r| = |q - r| := by
  cases negative
  · rfl
  · rw [withSign, withSign, if_pos rfl, if_pos rfl, neg_sub_neg, abs_sub_comm]

/-- A magnitude as an integer of units that are not above its own. -/
theorem signed_aligned (negative : Bool) {rank : Nat} {least : Int}
    (below : least ≤ exponent rank) :
    (signed negative (significand rank * Nat.pow 2 (exponent rank - least).toNat) : Rat) *
      2 ^ least = withSign negative (magnitude rank) := by
  have power : (2 : Rat) ^ (exponent rank - least).toNat * 2 ^ least = 2 ^ exponent rank := by
    rw [two_pow_mul_zpow, Int.toNat_of_nonneg (by omega), sub_add_cancel]
  rw [magnitude, ← power, ← mul_assoc, withSign_mul, signed_cast, Nat.pow_eq]
  push_cast
  rfl

/-! ### Operations -/

namespace StandsFor

variable {x y : Binary64} {s t : Bool} {p q : Rat}

theorem eq_nearest (h : StandsFor x s q) : x = nearest s q := by
  obtain ⟨rank, rfl, rfl⟩ := h
  exact (nearest_magnitude s rank).symm

theorem nonneg (h : StandsFor x s q) : 0 ≤ q := by
  obtain ⟨rank, rfl, rfl⟩ := h
  exact magnitude_nonneg rank

/-- A number stands for one fraction. -/
theorem unique (h : StandsFor x s p) (h' : StandsFor x t q) : s = t ∧ p = q := by
  obtain ⟨rank, rfl, rfl⟩ := h
  obtain ⟨rank', same, rfl⟩ := h'
  cases same
  exact ⟨rfl, rfl⟩

/-- The product is the exact product, rounded. -/
theorem mul_eq (hx : StandsFor x s p) (hy : StandsFor y t q) :
    x.mul y = nearest (s != t) (p * q) := by
  obtain ⟨a, rfl, rfl⟩ := hx
  obtain ⟨b, rfl, rfl⟩ := hy
  rw [mul, ofScaled_eq, magnitude, magnitude, Nat.cast_mul, zpow_add₀ two_ne_zero,
    mul_mul_mul_comm]

/-- The quotient by a number other than zero is the exact quotient, rounded. -/
theorem div_eq (hx : StandsFor x s p) (hy : StandsFor y t q) (nonzero : q ≠ 0) :
    x.div y = nearest (s != t) (p / q) := by
  obtain ⟨a, rfl, rfl⟩ := hx
  obtain ⟨b, rfl, rfl⟩ := hy
  have rank_ne : b.val ≠ 0 := fun zero => nonzero (by rw [zero, magnitude_zero])
  have den_pos : 0 < (ratioOf (significand a) (exponent a - exponent b)).2 * significand b :=
    Nat.mul_pos (ratioOf_pos _ _) (significand_pos rank_ne)
  rw [div, if_neg rank_ne]
  dsimp only
  rw [ofRatio_eq _ _ den_pos, Nat.cast_mul, ← div_div, ratioOf_eq, magnitude, magnitude,
    zpow_sub₀ two_ne_zero]
  congr 1
  field_simp

/-- The distance is the exact distance, rounded. -/
theorem distance_eq (hx : StandsFor x s p) (hy : StandsFor y t q) :
    x.distance y = nearest false |withSign s p - withSign t q| := by
  obtain ⟨a, rfl, rfl⟩ := hx
  obtain ⟨b, rfl, rfl⟩ := hy
  have unit : (0 : Rat) < 2 ^ min (exponent a) (exponent b) := zpow_pos two_pos _
  have scaled : ∀ d : Rat, |d| * 2 ^ min (exponent a) (exponent b) =
      |d * 2 ^ min (exponent a) (exponent b)| := fun d => by rw [abs_mul, abs_of_pos unit]
  rw [distance, ofScaled_eq, Nat.cast_natAbs, Int.cast_abs, Int.cast_sub, scaled, sub_mul,
    signed_aligned s (min_le_left _ _), signed_aligned t (min_le_right _ _)]

/-- The nearest integer is the magnitude and one half, rounded down. -/
theorem nearestInt?_eq (h : StandsFor x s q) : x.nearestInt? = some (signed s ⌊q + 1 / 2⌋₊) := by
  obtain ⟨rank, rfl, rfl⟩ := h
  have den_pos : (0 : Rat) < (ratio rank).2 := by exact_mod_cast ratioOf_pos _ _
  have halves : magnitude rank + 1 / 2 =
      ((2 * (ratio rank).1 + (ratio rank).2 : Nat) : Rat) / (2 * (ratio rank).2 : Nat) := by
    rw [← ratio_eq]
    push_cast
    field_simp
  rw [nearestInt?, halves, Nat.floor_div_eq_div]

end StandsFor

/-! ### Exact results -/

/-- A fraction that is a whole multiple of its unit is a number. -/
theorem Spacing.standsFor_multiple {q : Rat} {exp : Int} (h : Spacing q exp) {m : Nat}
    (multiple : q = m * 2 ^ exp) (negative : Bool) :
    StandsFor (nearest negative q) negative q := by
  have whole : nearestEven (q / 2 ^ exp) = m := by
    rw [multiple, nearestEven_multiple]
  have stands := h.standsFor_nearest negative
  rwa [whole, ← multiple] at stands

/-- An integer of full length and an exponent make a number. -/
theorem standsFor_full {m : Nat} {exp : Int} (full : 2 ^ 52 ≤ m) (short : m ≤ 2 ^ 53)
    (least : leastExponent ≤ exp) (most : exp ≤ 970) (negative : Bool) :
    StandsFor (nearest negative (m * 2 ^ exp)) negative (m * 2 ^ exp) := by
  have stands := @standsFor_ofRank negative exp m full short least most
  rwa [stands.eq_nearest] at stands

theorem natCast_eq_multiple (n : Nat) {exp : Int} (h : exp ≤ 0) :
    ∃ m : Nat, (n : Rat) = m * 2 ^ exp := by
  obtain ⟨places, rfl⟩ : ∃ places : Nat, exp = -(places : Int) := ⟨(-exp).toNat, by omega⟩
  refine ⟨n * 2 ^ places, ?_⟩
  rw [Nat.cast_mul, Nat.cast_pow, mul_assoc, zpow_neg, zpow_natCast, Nat.cast_ofNat,
    mul_inv_cancel₀ (by positivity), mul_one]

/-- A whole number of at most 53 binary digits is a number. -/
theorem standsFor_natCast {n : Nat} (h : n ≤ 2 ^ 53) (negative : Bool) :
    StandsFor (nearest negative n) negative n := by
  by_cases zero : n = 0
  · subst zero
    exact ⟨⟨0, by decide⟩, by rw [nearest, if_pos Nat.cast_zero, Binary64.zero], by simp⟩
  obtain last | short := h.eq_or_lt
  · have full : StandsFor (nearest negative ((2 ^ 52 : Nat) * 2 ^ (1 : Int))) negative
        ((2 ^ 52 : Nat) * 2 ^ (1 : Int)) :=
      standsFor_full le_rfl (by decide) (by decide) (by decide) negative
    rwa [show ((2 ^ 52 : Nat) : Rat) * 2 ^ (1 : Int) = n by rw [last]; norm_num] at full
  · obtain ⟨exp, spacing⟩ := exists_spacing_natCast zero h
    have places := (spacing.lt_zpow_iff 53).mp (by exact_mod_cast short)
    obtain ⟨m, multiple⟩ := natCast_eq_multiple n (show exp ≤ 0 by omega)
    exact spacing.standsFor_multiple multiple negative

theorem standsFor_ofInt {k : Int} (h : k.natAbs ≤ 2 ^ 53) :
    StandsFor (ofInt k) (k < 0) k.natAbs := by
  rw [ofInt_eq]
  exact standsFor_natCast h _

end Binary64

end QasmDiagram
