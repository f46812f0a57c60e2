/-
Module: QasmDiagram.Proofs.Angle.Sixteenths
Purpose: The texts of the multiples of a sixteenth of pi. A multiple is computed by a rounded product
  and taken for the whole number nearest to its quotient by pi, within a fixed tolerance. The
  tolerance covers every multiple below two to the power 36, and from there on those alone that come
  back from pi exactly.
Trusted boundary: none
Main exports: sixteenthText, piFraction_ofInt, Binary64.Product, Binary64.standsFor_product,
  Binary64.Product.near, Binary64.Product.sixteen_cancel, Binary64.ShownOff,
  Binary64.angleText_sixteenth_iff
-/
import QasmDiagram.Proofs.Angle.Fraction
import QasmDiagram.Proofs.Binary64.Rounding

namespace QasmDiagram

/-! ### Texts -/

/-- The text of `k / 16` times pi in lowest terms. -/
def sixteenthText (k : Int) : String :=
  if k = 0 then "0"
  else fractionText (k < 0) (k.natAbs / Nat.gcd k.natAbs 16) (16 / Nat.gcd k.natAbs 16)

section

variable {k : Int}

theorem toInt_ofInt (h : k.natAbs ≤ exactLimit) : (Int64.ofInt k).toInt = k := by
  rw [exactLimit] at h
  exact Int64.toInt_ofInt_of_le (by omega) (by omega)

/-- The fraction that is shown is the one in lowest terms. -/
theorem piFraction_ofInt (h : k.natAbs ≤ exactLimit) :
    piFraction (Int64.ofInt k) piDenominator = sixteenthText k := by
  have value := toInt_ofInt h
  by_cases zero : k = 0
  · subst zero
    rfl
  · have nonzero : Int64.ofInt k ≠ 0 := by
      intro none
      rw [none] at value
      exact zero value.symm
    have lowest := @lowestTerms_gcd k.natAbs 16 (Int.natAbs_pos.mpr zero) (by decide)
    have below : decide (Int64.ofInt k < 0) = decide (k < 0) := by
      rw [decide_eq_decide, Int64.lt_iff_toInt_lt, value]
      rfl
    rw [sixteenthText, if_neg zero, ← below]
    refine piFraction_eq nonzero (by decide) ?_
    rw [value]
    exact lowest

/-- Different multiples have different texts. -/
theorem sixteenthText_inj {j : Int} (hj : j.natAbs ≤ exactLimit) (hk : k.natAbs ≤ exactLimit)
    (same : sixteenthText j = sixteenthText k) : j = k := by
  have read : ∀ {i : Int}, i.natAbs ≤ exactLimit →
      fractionOfPi? (sixteenthText i) = some ((i : Rat) / 16) := fun h => by
    rw [← piFraction_ofInt h, fractionOfPi?_piFraction (by decide), toInt_ofInt h]
    rfl
  have equal := read hj
  rw [same, read hk, Option.some.injEq, div_left_inj' (by norm_num), Int.cast_inj] at equal
  exact equal.symm

theorem pi_mem_sixteenthText (nonzero : k ≠ 0) : 'π' ∈ (sixteenthText k).toList := by
  simp [sixteenthText, nonzero, fractionText]

end

namespace Binary64

/-- A number with two places is written without pi. -/
theorem pi_not_mem_twoPlaces (x : Binary64) : 'π' ∉ x.twoPlaces.toList := by
  have numeral : ∀ n : Nat, 'π' ∉ Nat.toDigits 10 n := fun n letter =>
    absurd (isDigit_of_mem_toDigits letter) (by decide)
  cases x with
  | nan => decide
  | infinite negative => cases negative <;> decide
  | finite negative rank =>
      simp only [twoPlaces, String.toList_append, List.mem_append, not_or]
      refine ⟨⟨⟨?_, ?_⟩, by decide⟩, ?_⟩
      · cases negative <;> decide
      · simp [numeral]
      · split <;> simp [numeral]

/-! ### The tolerance -/

/-- The rank of the tolerance. -/
def toleranceRank : Nat := 4532020583610935537

theorem sixteenthTolerance_eq :
    sixteenthTolerance = .finite false ⟨toleranceRank, by decide⟩ := by
  decide +kernel

theorem withinTolerance_ofRank (rank : Nat) :
    withinTolerance (ofRank false rank) = decide (rank < toleranceRank) := by
  rw [withinTolerance, sixteenthTolerance_eq, ofRank]
  by_cases finite : rank < rankLimit
  · rw [dif_pos finite]
    rfl
  · have above : ¬ rank < toleranceRank := by
      rw [rankLimit] at finite
      rw [toleranceRank]
      omega
    rw [dif_neg finite, decide_eq_false above]
    rfl

theorem withinTolerance_zero : withinTolerance (nearest false 0) = true := by
  rw [nearest, if_pos rfl]
  decide +kernel

/-- A power of two below the tolerance. -/
theorem withinTolerance_two_pow {e : Int} (low : -1000 ≤ e) (high : e ≤ -17) :
    withinTolerance (nearest false (2 ^ e)) = true := by
  have unit : (2 : Rat) ^ e = (2 ^ 52 : Nat) * 2 ^ (e - 52) := by
    rw [Nat.cast_pow, Nat.cast_ofNat, two_pow_mul_zpow]
    congr 1
    push_cast
    ring
  have rank : nearestRank (2 ^ e) = (e - 52 - leastExponent).toNat * ranksPerExponent + 2 ^ 52 := by
    have low : (2 : Rat) ^ 52 * 2 ^ (e - 52) ≤ 2 ^ e := by rw [unit, Nat.cast_pow, Nat.cast_ofNat]
    have high : (2 : Rat) ^ e < 2 ^ 53 * 2 ^ (e - 52) := by
      rw [unit]
      exact mul_lt_mul_of_pos_right (by norm_num) (zpow_pos two_pos _)
    rw [nearestRank_eq (by rw [leastExponent]; omega) low high, unit, nearestEven_multiple]
  rw [nearest, if_neg (zpow_ne_zero _ two_ne_zero), rank, withinTolerance_ofRank, decide_eq_true_eq,
    leastExponent, ranksPerExponent, toleranceRank]
  omega

/-- A fraction above the tolerance. -/
theorem not_withinTolerance {d : Rat} {exp : Int} (h : Spacing d exp)
    (above : 2 ^ (-16 : Int) ≤ d) : withinTolerance (nearest false d) = false := by
  have place := (h.zpow_le_iff _).mp above
  have full := h.nearestEven_bounds.1
  rw [nearest, if_neg h.pos.ne', nearestRank_eq h.least h.low h.high, withinTolerance_ofRank,
    decide_eq_false_iff_not, leastExponent, ranksPerExponent, toleranceRank]
  omega

/-! ### Products -/

/-- The fraction that the number nearest to pi stands for. -/
def piMagnitude : Rat := 7074237752028440 * 2 ^ (-51 : Int)

theorem standsFor_pi : StandsFor pi false piMagnitude := by
  refine ⟨⟨4614256656552045848, by decide⟩, by decide +kernel, ?_⟩
  have parts : significand 4614256656552045848 = 7074237752028440 ∧
      exponent 4614256656552045848 = -51 := by decide
  rw [magnitude, parts.1, parts.2, piMagnitude, Nat.cast_ofNat]

theorem piMagnitude_bounds : 2 ≤ piMagnitude ∧ piMagnitude ≤ 4 := by
  rw [piMagnitude]
  norm_num

theorem piMagnitude_pos : 0 < piMagnitude :=
  two_pos.trans_le piMagnitude_bounds.1

theorem two_pow_mul_piMagnitude {n : Nat} (power : n = 2 ^ n.log2) :
    (n : Rat) * piMagnitude = (7074237752028440 : Nat) * 2 ^ ((n.log2 : Int) - 51) := by
  have cast : (n : Rat) = 2 ^ (n.log2 : Int) := by exact_mod_cast power
  rw [piMagnitude, cast, mul_left_comm, ← zpow_add₀ two_ne_zero, Nat.cast_ofNat]
  rfl

theorem standsFor_sixteen : StandsFor (ofInt 16) false 16 :=
  standsFor_ofInt (k := 16) (by decide)

/-- What is left of the product of a whole number and pi when it is rounded. -/
structure Product (n : Nat) (product : Rat) : Prop where
  /-- It is a number, and one whose sixteenth is one too. -/
  number : ∃ (m : Nat) (exp : Int), 2 ^ 52 ≤ m ∧ m ≤ 2 ^ 53 ∧ -52 ≤ exp ∧ exp ≤ 3 ∧
    product = m * 2 ^ exp
  error : |product / piMagnitude - n| ≤ n / 2 ^ 53
  /-- A power of two loses nothing. -/
  lossless : n = 2 ^ n.log2 → product / piMagnitude = n

/-- The product of a whole number and pi, rounded. -/
theorem standsFor_product {k : Int} (nonzero : k ≠ 0) (h : k.natAbs ≤ 2 ^ 53) :
    ∃ product, StandsFor ((ofInt k).mul pi) (k < 0) product ∧ Product k.natAbs product := by
  have least : (1 : Rat) ≤ k.natAbs := by exact_mod_cast Int.natAbs_pos.mpr nonzero
  have most : (k.natAbs : Rat) ≤ 2 ^ 53 := by exact_mod_cast h
  obtain ⟨two, four⟩ := piMagnitude_bounds
  have low : (1 : Rat) ≤ k.natAbs * piMagnitude := by nlinarith
  have high : (k.natAbs : Rat) * piMagnitude ≤ 2 ^ 55 := by nlinarith
  have rounded : (ofInt k).mul pi = nearest (k < 0) (k.natAbs * piMagnitude) := by
    rw [(standsFor_ofInt h).mul_eq standsFor_pi, Bool.bne_false]
  obtain ⟨exp, spacing⟩ := @exists_spacing (k.natAbs * piMagnitude)
    ((zpow_le_one_of_nonpos₀ one_le_two (by decide)).trans low)
    (high.trans_lt ((zpow_lt_zpow_right₀ one_lt_two (by decide : (55 : Int) < 1023))))
  have stands := spacing.standsFor_nearest (k < 0)
  rw [← rounded] at stands
  refine ⟨_, stands, ?_, ?_, ?_⟩
  · have above := (spacing.zpow_le_iff 0).mp (by rwa [zpow_zero])
    have below := (spacing.lt_zpow_iff 56).mp (high.trans_lt (by norm_num))
    exact ⟨_, exp, spacing.nearestEven_bounds.1, spacing.nearestEven_bounds.2, by omega, by omega,
      rfl⟩
  · have error := spacing.relative_error
    rw [div_sub' piMagnitude_pos.ne', abs_div, abs_of_pos piMagnitude_pos,
      div_le_iff₀ piMagnitude_pos, mul_comm piMagnitude, div_mul_eq_mul_div]
    exact error
  · intro power
    have digits : k.natAbs.log2 < 54 :=
      (Nat.log2_lt (Int.natAbs_pos.mpr nonzero).ne').mpr (h.trans_lt (by decide))
    have full := @standsFor_full 7074237752028440 ((k.natAbs.log2 : Int) - 51) (by decide)
      (by decide) (by rw [leastExponent]; omega) (by omega) (k < 0)
    rw [← two_pow_mul_piMagnitude power, ← rounded] at full
    rw [(stands.unique full).2, mul_div_cancel_right₀ _ piMagnitude_pos.ne']

section

variable {n : Nat} {product : Rat} {x : Binary64} {s : Bool} {exp : Int}

/-- Dividing by sixteen loses nothing. -/
theorem Product.standsFor_sixteenth (h : Product n product) (hx : StandsFor x s product) :
    StandsFor (x.div (ofInt 16)) s (product / 16) := by
  obtain ⟨m, e, full, short, low, high, rfl⟩ := h.number
  have shifted : (m : Rat) * 2 ^ e / 16 = m * 2 ^ (e - 4) := by
    rw [zpow_sub₀ two_ne_zero, mul_div_assoc]
    norm_num
  rw [hx.div_eq standsFor_sixteen (by norm_num), Bool.bne_false, shifted]
  exact standsFor_full full short (by rw [leastExponent]; omega) (by omega) s

/-- A whole number that is no power of two lies off the ends of its range by one at least. -/
theorem Product.spacing (h : Product n product) (hn : Spacing n exp) (bound : n ≤ 2 ^ 53) :
    Spacing (product / piMagnitude) exp := by
  by_cases power : n = 2 ^ n.log2
  · rwa [h.lossless power]
  have nonzero : n ≠ 0 := by
    rintro rfl
    exact absurd hn.pos (by simp)
  have low : 2 ^ n.log2 + 1 ≤ n := (Nat.log2_self_le nonzero).lt_of_ne (Ne.symm power)
  have high : n + 1 ≤ 2 ^ (n.log2 + 1) := Nat.lt_log2_self
  have short : n < 2 ^ 53 := by
    refine bound.lt_of_ne fun last => power ?_
    rw [last, Nat.log2_two_pow]
  have place : exp = n.log2 - 52 := by
    have above := (hn.zpow_le_iff n.log2).mp (by exact_mod_cast Nat.log2_self_le nonzero)
    have below := (hn.lt_zpow_iff (n.log2 + 1 : Nat)).mp (by exact_mod_cast high)
    omega
  have error := abs_le.mp h.error
  have less : (n : Rat) / 2 ^ 53 < 1 := by
    rw [div_lt_one (by norm_num)]
    exact_mod_cast short
  have low' : (2 : Rat) ^ (n.log2 : Int) + 1 ≤ n := by exact_mod_cast low
  have high' : (n : Rat) + 1 ≤ 2 ^ ((n.log2 : Int) + 1) := by exact_mod_cast high
  refine ⟨hn.least, hn.most, ?_, ?_⟩
  · rw [two_pow_mul_zpow, place, Nat.cast_ofNat, add_sub_cancel]
    linarith
  · rw [two_pow_mul_zpow, place, show ((53 : Nat) : Int) + (n.log2 - 52) = n.log2 + 1 by
      push_cast; ring]
    linarith

/-- The quotient of the rounded product by pi is a whole number of units, the one nearest to it. -/
theorem standsFor_quotient (hx : StandsFor x s product)
    (spacing : Spacing (product / piMagnitude) exp) :
    StandsFor (x.div pi) s (nearestEven (product / piMagnitude / 2 ^ exp) * 2 ^ exp) := by
  rw [hx.div_eq standsFor_pi piMagnitude_pos.ne', Bool.bne_false]
  exact spacing.standsFor_nearest s

/-- Dividing by sixteen before pi and multiplying by it behind makes no difference. -/
theorem Product.sixteen_cancel (h : Product n product) (hx : StandsFor x s product)
    (spacing : Spacing (product / piMagnitude) exp) (low : -1000 ≤ exp) :
    ((x.div (ofInt 16)).div pi).mul (ofInt 16) = x.div pi := by
  have unit : (2 : Rat) ^ (exp - 4) * 16 = 2 ^ exp := by
    rw [zpow_sub₀ two_ne_zero]
    norm_num
  have shifted : product / 16 / piMagnitude = product / piMagnitude / 16 := div_right_comm ..
  have sixteenth : Spacing (product / 16 / piMagnitude) (exp - 4) :=
    { least := by rw [leastExponent]; omega
      most := by have := spacing.most; omega
      low := by
        have := spacing.low
        rw [shifted]
        linarith
      high := by
        have := spacing.high
        rw [shifted]
        linarith }
  have same : product / 16 / piMagnitude / 2 ^ (exp - 4) = product / piMagnitude / 2 ^ exp := by
    rw [← unit, shifted, div_div, mul_comm (2 ^ (exp - 4) : Rat)]
  have quotient := standsFor_quotient hx spacing
  have first := (h.standsFor_sixteenth hx).div_eq standsFor_pi piMagnitude_pos.ne'
  have stands := sixteenth.standsFor_nearest (s != false)
  rw [← first, same] at stands
  rw [stands.mul_eq standsFor_sixteen, Bool.bne_false, Bool.bne_false, mul_assoc, unit,
    ← quotient.eq_nearest]

/-- The quotient is the whole number again, or one unit off it. -/
theorem Product.near (h : Product n product) (hn : Spacing n exp) (bound : n ≤ 2 ^ 53)
    (hx : StandsFor x s product) :
    ∃ r, StandsFor (x.div pi) s r ∧ (r = n ∨ exp ≤ 0 ∧ |r - n| = 2 ^ exp) := by
  have spacing := h.spacing hn bound
  have quotient := standsFor_quotient hx spacing
  obtain last | short := bound.eq_or_lt
  · have back : product / piMagnitude = n := h.lossless (by rw [last, Nat.log2_two_pow])
    rw [hx.div_eq standsFor_pi piMagnitude_pos.ne', Bool.bne_false, back]
    exact ⟨n, standsFor_natCast bound s, .inl rfl⟩
  have unit : (0 : Rat) < 2 ^ exp := zpow_pos two_pos exp
  have places := (hn.lt_zpow_iff 53).mp (by exact_mod_cast short)
  obtain ⟨m, whole⟩ := natCast_eq_multiple n (show exp ≤ 0 by omega)
  have off : |product / piMagnitude / 2 ^ exp - m| < 1 := by
    have less : (n : Rat) / 2 ^ 53 < 2 ^ exp := by
      rw [div_lt_iff₀' (by norm_num)]
      exact hn.high
    rw [div_sub' unit.ne', abs_div, abs_of_pos unit, div_lt_one unit, mul_comm, ← whole]
    exact h.error.trans_lt less
  refine ⟨_, quotient, ?_⟩
  obtain same | more | less := nearestEven_near (div_nonneg spacing.pos.le unit.le) off
  · exact .inl (by rw [same, whole])
  · refine .inr ⟨by omega, ?_⟩
    rw [more, whole, ← sub_mul, Nat.cast_succ, add_sub_cancel_left, one_mul, abs_of_pos unit]
  · refine .inr ⟨by omega, ?_⟩
    rw [whole, ← less, ← sub_mul, Nat.cast_succ, sub_add_cancel_left, neg_one_mul, abs_neg,
      abs_of_pos unit]

end

/-! ### What is shown -/

section

variable {value : Binary64} {s : Bool} {r : Rat}

/-- The integer that a value is taken for, from the fraction that its sixteenths stand for. -/
theorem sixteenths?_eq (h : StandsFor ((value.div pi).mul (ofInt 16)) s r) :
    value.sixteenths? =
      if ⌊r + 1 / 2⌋₊ ≤ exactLimit ∧ withinTolerance (nearest false |r - ⌊r + 1 / 2⌋₊|) = true then
        some (signed s ⌊r + 1 / 2⌋₊)
      else none := by
  have integer : ofInt piDenominator.toInt = ofInt 16 := rfl
  rw [sixteenths?, integer, h.nearestInt?_eq]
  generalize ⌊r + 1 / 2⌋₊ = m
  have magnitude : (signed s m).natAbs = m := signed_natAbs s m
  rw [Option.filter_some, magnitude]
  by_cases bound : m ≤ exactLimit
  · have whole := standsFor_ofInt (k := signed s m) (by rwa [magnitude])
    rw [h.distance_eq whole, withSign_natAbs, signed_cast, abs_withSign_sub]
    simp [bound]
  · simp [bound]

/-- A value is shown as the multiple that it is taken for. -/
theorem angleText_of_close (h : StandsFor ((value.div pi).mul (ofInt 16)) s r) {m : Nat}
    (bound : m ≤ exactLimit) (close : |r - m| < 1 / 2)
    (within : withinTolerance (nearest false |r - m|) = true) :
    value.angleText = sixteenthText (signed s m) := by
  obtain ⟨below, above⟩ := abs_lt.mp close
  have whole : ⌊r + 1 / 2⌋₊ = m := by
    rw [Nat.floor_eq_iff (by linarith [h.nonneg])]
    constructor <;> linarith
  rw [angleText, sixteenths?_eq h, whole, if_pos ⟨bound, within⟩]
  exact piFraction_ofInt (by rwa [signed_natAbs])

/-- A value that is far from every whole number of sixteenths is shown with two places. -/
theorem angleText_of_far (h : StandsFor ((value.div pi).mul (ofInt 16)) s r)
    (far : ∀ m : Nat, |r - m| ≤ 1 / 2 → withinTolerance (nearest false |r - m|) = false) :
    value.angleText = value.twoPlaces := by
  have low := Nat.floor_le (show 0 ≤ r + 1 / 2 by linarith [h.nonneg])
  have high := Nat.lt_floor_add_one (r + 1 / 2)
  have outside := far ⌊r + 1 / 2⌋₊ (abs_le.mpr ⟨by linarith, by linarith⟩)
  rw [angleText, sixteenths?_eq h, outside, if_neg (by simp)]

variable {n : Nat} {exp : Int}

/-- A unit off a whole number, no whole number is closer than the unit. -/
theorem unit_le_distance (fine : exp ≤ -1) (off : |r - n| = 2 ^ exp) (m : Nat) :
    2 ^ exp ≤ |r - m| := by
  have unit : (0 : Rat) < 2 ^ exp := zpow_pos two_pos exp
  have double : (2 : Rat) ^ (exp + 1) = 2 * 2 ^ exp := zpow_add_one₀ two_ne_zero exp |>.trans
    (mul_comm _ _)
  obtain ⟨a, ha⟩ := natCast_eq_multiple n (show exp + 1 ≤ 0 by omega)
  obtain ⟨b, hb⟩ := natCast_eq_multiple m (show exp + 1 ≤ 0 by omega)
  -- The distance is an odd number of units, which is not zero.
  have odd : ∃ j : Int, j ≠ 0 ∧ r - m = j * 2 ^ exp := by
    obtain up | down := (abs_eq unit.le).mp off
    · refine ⟨2 * (a - b) + 1, by omega, ?_⟩
      rw [eq_add_of_sub_eq up, ha, hb, double]
      push_cast
      ring
    · refine ⟨2 * (a - b) - 1, by omega, ?_⟩
      rw [eq_add_of_sub_eq down, ha, hb, double]
      push_cast
      ring
  obtain ⟨j, nonzero, distance⟩ := odd
  have one : (1 : Rat) ≤ |(j : Rat)| := by exact_mod_cast Int.one_le_abs nonzero
  rw [distance, abs_mul, abs_of_pos unit]
  exact le_mul_of_one_le_left unit.le one

/-- From two to the power 36 on, one unit is above the tolerance. -/
theorem angleText_of_unit_off (h : StandsFor ((value.div pi).mul (ofInt 16)) s r)
    (coarse : -16 ≤ exp) (fine : exp ≤ -1) (off : |r - n| = 2 ^ exp) :
    value.angleText = value.twoPlaces := by
  refine angleText_of_far h fun m close => ?_
  have above : (2 : Rat) ^ (-16 : Int) ≤ |r - m| :=
    (zpow_le_zpow_right₀ one_le_two coarse).trans (unit_le_distance fine off m)
  obtain ⟨e, spacing⟩ := @exists_spacing |r - m|
    ((zpow_le_zpow_right₀ one_le_two (by decide)).trans above)
    (close.trans_lt ((by norm_num : (1 / 2 : Rat) < 2 ^ (0 : Int)).trans
      (zpow_lt_zpow_right₀ one_lt_two (by decide))))
  exact not_withinTolerance spacing above

/-- Below that, one unit is within the tolerance. -/
theorem angleText_of_unit_within (h : StandsFor ((value.div pi).mul (ofInt 16)) s r)
    (bound : n ≤ exactLimit) (low : -1000 ≤ exp) (high : exp ≤ -17) (off : |r - n| = 2 ^ exp) :
    value.angleText = sixteenthText (signed s n) := by
  refine angleText_of_close h bound ?_ ?_
  · calc |r - n| = 2 ^ exp := off
      _ < 2 ^ (-1 : Int) := zpow_lt_zpow_right₀ one_lt_two (by omega)
      _ = 1 / 2 := by norm_num
  · rw [off]
    exact withinTolerance_two_pow low high

theorem angleText_of_eq (h : StandsFor ((value.div pi).mul (ofInt 16)) s n)
    (bound : n ≤ exactLimit) : value.angleText = sixteenthText (signed s n) := by
  refine angleText_of_close h bound ?_ ?_
  · rw [sub_self, abs_zero]
    norm_num
  · rw [sub_self, abs_zero]
    exact withinTolerance_zero

/-- At the last exponent one unit is one, and leads to a neighbour. -/
theorem angleText_of_one_off (h : StandsFor ((value.div pi).mul (ofInt 16)) s r)
    (positive : 0 < n) (bound : n < exactLimit) (off : |r - n| = 1) :
    value.angleText = sixteenthText (signed s (n + 1)) ∨
      value.angleText = sixteenthText (signed s (n - 1)) := by
  obtain up | down := (abs_eq zero_le_one).mp off
  · have next : r = (n + 1 : Nat) := by
      rw [eq_add_of_sub_eq up]
      push_cast
      ring
    rw [next] at h
    exact .inl (angleText_of_eq h bound)
  · have previous : r = (n - 1 : Nat) := by
      rw [eq_add_of_sub_eq down, Nat.cast_pred positive]
      ring
    rw [previous] at h
    exact .inr (angleText_of_eq h (by omega))

end

/-! ### Multiples of a sixteenth -/

section

variable {k : Int}

/-- What is shown of a multiple that does not come back from pi: the multiple, two places, or a
neighbour, by the size of a unit. -/
inductive ShownOff (k : Int) (value : Binary64) : Prop where
  | multiple : k.natAbs < 2 ^ 36 → value.angleText = sixteenthText k → ShownOff k value
  | places : 2 ^ 36 ≤ k.natAbs → k.natAbs < 2 ^ 52 → value.angleText = value.twoPlaces →
      ShownOff k value
  | neighbour : 2 ^ 52 ≤ k.natAbs → ∀ j : Int, j = k - 1 ∨ j = k + 1 → j.natAbs ≤ exactLimit →
      value.angleText = sixteenthText j → ShownOff k value

/-- Only below two to the power 36 the text is the multiple. -/
theorem ShownOff.text_iff {value : Binary64} (shown : ShownOff k value) (nonzero : k ≠ 0)
    (h : k.natAbs ≤ exactLimit) : value.angleText = sixteenthText k ↔ k.natAbs < 2 ^ 36 := by
  cases shown with
  | multiple small text => exact iff_of_true text small
  | places large _ text =>
      refine iff_of_false (fun same => ?_) (by omega)
      have letter := pi_mem_sixteenthText nonzero
      rw [← same, text] at letter
      exact pi_not_mem_twoPlaces value letter
  | neighbour large j beside bound text =>
      refine iff_of_false (fun same => ?_) (by omega)
      have := sixteenthText_inj bound h (text.symm.trans same)
      omega

/-- The size of a unit decides what is shown of a value that is one off. -/
theorem shownOff_of_unit_off {value : Binary64} {r : Rat} {exp : Int} (nonzero : k ≠ 0)
    (h : k.natAbs ≤ exactLimit) (spacing : Spacing k.natAbs exp) (most : exp ≤ 0)
    (sixteenths : StandsFor ((value.div pi).mul (ofInt 16)) (k < 0) r)
    (off : |r - k.natAbs| = 2 ^ exp) : ShownOff k value := by
  have below : ∀ e : Nat, k.natAbs < 2 ^ e ↔ exp + 52 < e := fun e => by
    rw [← spacing.lt_zpow_iff]
    exact_mod_cast Iff.rfl
  have positive := Int.natAbs_pos.mpr nonzero
  have least := (below 0).not.mp (by omega)
  by_cases small : exp ≤ -17
  · refine .multiple ((below 36).mpr (by push_cast; omega)) ?_
    rw [angleText_of_unit_within sixteenths h (by omega) small off, signed_self]
  by_cases fine : exp ≤ -1
  · exact .places (not_lt.mp ((below 36).not.mpr (by push_cast; omega)))
      ((below 52).mpr (by push_cast; omega))
      (angleText_of_unit_off sixteenths (by omega) fine off)
  · obtain rfl : exp = 0 := by omega
    have large : 2 ^ 52 ≤ k.natAbs := not_lt.mp ((below 52).not.mpr (by decide))
    have short : k.natAbs < exactLimit := (below 53).mpr (by decide)
    have beside : ∀ m : Nat, m = k.natAbs + 1 ∨ m + 1 = k.natAbs →
        signed (k < 0) m = k - 1 ∨ signed (k < 0) m = k + 1 := by
      intro m hm
      rw [signed]
      split <;> simp_all <;> omega
    rw [zpow_zero] at off
    obtain text | text := angleText_of_one_off sixteenths positive short off
    · exact .neighbour large _ (beside _ (.inl rfl)) (by rwa [signed_natAbs]) text
    · exact .neighbour large _ (beside _ (.inr (by omega))) (by rw [signed_natAbs]; omega) text

/-- A multiple of a sixteenth of pi either comes back from pi exactly and is shown as itself, or it
does not come back. -/
theorem angleText_cases (nonzero : k ≠ 0) (h : k.natAbs ≤ exactLimit) :
    ((ofInt k).mul pi).div pi = ofInt k ∧
        (((ofInt k).mul pi).div (ofInt 16)).angleText = sixteenthText k ∨
      ((ofInt k).mul pi).div pi ≠ ofInt k ∧ ShownOff k (((ofInt k).mul pi).div (ofInt 16)) := by
  obtain ⟨product, stands, rounded⟩ := standsFor_product nonzero h
  obtain ⟨exp, spacing⟩ := exists_spacing_natCast (Int.natAbs_pos.mpr nonzero).ne' h
  obtain ⟨r, back, off⟩ := rounded.near spacing h stands
  have least := (spacing.zpow_le_iff 0).mp
    (by rw [zpow_zero]; exact_mod_cast Int.natAbs_pos.mpr nonzero)
  have sixteenths := back
  rw [← rounded.sixteen_cancel stands (rounded.spacing spacing h) (by omega)] at sixteenths
  obtain rfl | ⟨most, off⟩ := off
  · refine .inl ⟨?_, ?_⟩
    · rw [back.eq_nearest, ofInt_eq]
    · rw [angleText_of_eq sixteenths h, signed_self]
  · refine .inr ⟨fun same => ?_, shownOff_of_unit_off nonzero h spacing most sixteenths off⟩
    rw [same] at back
    rw [(back.unique (standsFor_ofInt h)).2, sub_self, abs_zero] at off
    exact zpow_ne_zero exp two_ne_zero off.symm

/-- The text of a multiple of a sixteenth of pi, computed by a product with pi and a quotient by
sixteen, up to two to the power 53. It is the multiple in lowest terms below two to the power 36,
and from there on just for the multiples that come back when the product is divided by pi. One that
does not is shown with two places, and from two to the power 52 on as a neighbour. -/
theorem angleText_sixteenth_iff (h : k.natAbs ≤ exactLimit) :
    let product := (ofInt k).mul pi
    let value := product.div (ofInt 16)
    (value.angleText = sixteenthText k ↔ k.natAbs < 2 ^ 36 ∨ product.div pi = ofInt k) ∧
      (value.angleText ≠ sixteenthText k →
        (k.natAbs < 2 ^ 52 → value.angleText = value.twoPlaces) ∧
        (2 ^ 52 ≤ k.natAbs → value.angleText = sixteenthText (k - 1) ∨
          value.angleText = sixteenthText (k + 1))) := by
  intro product value
  by_cases zero : k = 0
  · subst zero
    have text : value.angleText = sixteenthText 0 := by decide +kernel
    exact ⟨⟨fun _ => .inl (by decide), fun _ => text⟩, fun other => absurd text other⟩
  obtain ⟨back, text⟩ | ⟨lost, shown⟩ := angleText_cases zero h
  · exact ⟨⟨fun _ => .inr back, fun _ => text⟩, fun other => absurd text other⟩
  refine ⟨?_, fun other => ⟨fun small => ?_, fun large => ?_⟩⟩
  · rw [shown.text_iff zero h, or_iff_left lost]
  · cases shown with
    | multiple _ text => exact absurd text other
    | places _ _ text => exact text
    | neighbour large => omega
  · cases shown with
    | multiple _ text => exact absurd text other
    | places _ small => omega
    | neighbour _ j beside _ text =>
        obtain rfl | rfl := beside
        · exact .inl text
        · exact .inr text

/-- The multiple 87496355275 comes back as a number of sixteenths that is off by two to the power
-16, and is shown with two places. -/
theorem angleText_sixteenth_lost :
    (87496355275 : Int).natAbs ≤ exactLimit ∧
      ((ofInt 87496355275).mul pi).div pi ≠ ofInt 87496355275 ∧
      (((ofInt 87496355275).mul pi).div (ofInt 16)).angleText = "17179869184.24" ∧
      (((ofInt 87496355275).mul pi).div (ofInt 16)).angleText ≠ sixteenthText 87496355275 := by
  have bound : (87496355275 : Int).natAbs ≤ exactLimit := by decide
  have lost : ((ofInt 87496355275).mul pi).div pi ≠ ofInt 87496355275 := by decide +kernel
  obtain ⟨shown, rest⟩ := angleText_sixteenth_iff bound
  have other := fun same => (shown.mp same).elim (by decide) lost
  refine ⟨bound, lost, ?_, other⟩
  rw [(rest other).1 (by decide)]
  decide +kernel

end

end Binary64

end QasmDiagram
