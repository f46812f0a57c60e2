/-
Module: QasmDiagram.Proofs.Binary64.Numeral
Purpose: Numerals: a text that starts with a digit or a point is read as one, with the value of its
  digits moved by its exponent. The digits of a whole number read back as the number, and below two
  to the power 52 they are read as a finite number.
Trusted boundary: none
Main exports: decimalValue_toDigits, toDigits_cases, Binary64.ofText?_of_head,
  Binary64.ofText?_append, Binary64.ofText?_digits, Binary64.ofDecimal_whole,
  Binary64.ofText?_toDigits
-/
import Mathlib.Data.List.TakeWhile
import Mathlib.Tactic.IntervalCases
import QasmDiagram.Binary64.Text
import QasmDiagram.Proofs.Binary64.Whole

namespace QasmDiagram

/-! ### Digits -/

/-- The digits of a number read as the number. -/
theorem decimalValue_toDigits (n : Nat) : decimalValue (Nat.toDigits 10 n) = n :=
  Nat.ofDigitChars_ten_toDigits

theorem isDigit_of_mem_toDigits {n : Nat} {c : Char} (h : c ∈ Nat.toDigits 10 n) :
    c.isDigit = true :=
  Nat.isDigit_of_mem_toDigits (by decide) (by decide) h

/-- The digits of a number are a single zero or start with another digit. -/
theorem toDigits_cases (n : Nat) : Nat.toDigits 10 n = ['0'] ∨
    ∃ c rest, Nat.toDigits 10 n = c :: rest ∧ c ∈ "123456789".toList := by
  induction n using Nat.strongRecOn with
  | ind n ih =>
      by_cases small : n < 10
      · rw [Nat.toDigits_of_lt_base small]
        interval_cases n
        · exact .inl rfl
        all_goals exact .inr ⟨_, _, rfl, by decide⟩
      · rw [Nat.toDigits_of_base_le (by decide) (Nat.le_of_not_lt small)]
        rcases ih (n / 10) (by omega) with zero | ⟨c, rest, digits, hc⟩
        · have value := decimalValue_toDigits (n / 10)
          rw [zero] at value
          have positive : 0 < n / 10 := by omega
          exact absurd (value.symm.trans rfl) (Nat.ne_of_gt positive)
        · exact .inr ⟨c, rest ++ _, by rw [digits]; rfl, hc⟩

namespace Binary64

/-! ### Numerals -/

/-- A digit has no other case. -/
theorem toLower_of_isDigit {c : Char} (h : c.isDigit = true) : c.toLower = c := by
  refine dif_neg ?_
  rintro ⟨least, _⟩
  simp only [Char.isDigit, Bool.and_eq_true, decide_eq_true_eq] at h
  have below := h.2
  simp only [UInt32.le_iff_toNat_le] at *
  simp at *
  omega

/-- What starts with a digit or a point has no sign. -/
theorem splitSign_of_head {c : Char} {rest : List Char} (head : c.isDigit = true ∨ c = '.') :
    splitSign (c :: rest) = (false, c :: rest) := by
  unfold splitSign
  split
  all_goals simp_all +decide

/-- What starts with a digit or a point is no word, so it is read as a numeral. -/
theorem ofText?_of_head {c : Char} {rest : List Char} (head : c.isDigit = true ∨ c = '.') :
    ofText? (c :: rest) = ofNumeral? false (c :: rest) := by
  have lower : c.toLower = c := by
    rcases head with digit | rfl
    · exact toLower_of_isDigit digit
    · rfl
  have noWord : ∀ letter letters, letter.isDigit = false → letter ≠ '.' →
      String.ofList ((c :: rest).map Char.toLower) ≠ String.ofList (letter :: letters) := by
    intro letter letters notDigit notPoint same
    rw [String.ofList_inj, List.map_cons, List.cons.injEq, lower] at same
    rcases head with digit | rfl
    · rw [same.1, notDigit] at digit
      cases digit
    · exact notPoint same.1.symm
  have inf := noWord 'i' ['n', 'f'] (by decide) (by decide)
  have infinity := noWord 'i' ['n', 'f', 'i', 'n', 'i', 't', 'y'] (by decide) (by decide)
  have nan := noWord 'n' ['a', 'n'] (by decide) (by decide)
  simp only [ofText?, splitSign_of_head head]
  rw [if_neg (not_or.mpr ⟨inf, infinity⟩), if_neg nan]

/-- The digits in front of a text that does not go on with one. -/
theorem span_digits {digits rest : List Char} (h : ∀ c ∈ digits, c.isDigit = true)
    (stops : ∀ c ∈ rest.head?, c.isDigit = false) :
    (digits ++ rest).takeWhile Char.isDigit = digits ∧
      (digits ++ rest).dropWhile Char.isDigit = rest := by
  rw [List.takeWhile_append_of_pos h, List.dropWhile_append_of_pos h]
  cases rest with
  | nil => simp
  | cons c rest => simp [stops c rfl]

/-- The value of a numeral: that of its digits together, moved by the exponent and the number of
places. -/
theorem ofNumeral?_append {negative : Bool} {whole places rest tail : List Char} {exponent : Int}
    (h : ∀ c ∈ whole, c.isDigit = true) (stops : ∀ c ∈ rest.head?, c.isDigit = false)
    (hsplit : splitFraction rest = (places, tail)) (nonempty : ¬ (whole = [] ∧ places = []))
    (htail : exponentOf? tail = some exponent) :
    ofNumeral? negative (whole ++ rest) =
      some (ofDecimal negative (decimalValue (whole ++ places)) (exponent - places.length)) := by
  obtain ⟨taken, left⟩ := span_digits h stops
  simp only [ofNumeral?, taken, left, hsplit, if_neg nonempty, htail, Option.map_some]

/-- A numeral is read as the number nearest to its value. It has no sign. -/
theorem ofText?_append {whole places rest tail : List Char} {exponent : Int}
    (h : ∀ c ∈ whole, c.isDigit = true) (stops : ∀ c ∈ rest.head?, c.isDigit = false)
    (hsplit : splitFraction rest = (places, tail)) (nonempty : ¬ (whole = [] ∧ places = []))
    (htail : exponentOf? tail = some exponent) :
    ofText? (whole ++ rest) =
      some (ofDecimal false (decimalValue (whole ++ places)) (exponent - places.length)) := by
  have numeral := @ofNumeral?_append false _ _ _ _ _ h stops hsplit nonempty htail
  cases whole with
  | cons c whole =>
      rw [List.cons_append, ofText?_of_head (.inl (h c (by simp)))]
      exact numeral
  | nil =>
      unfold splitFraction at hsplit
      split at hsplit
      · rw [List.nil_append, ofText?_of_head (.inr rfl)]
        exact numeral
      · cases hsplit
        simp at nonempty

/-- A text of digits is read as the number nearest to its value. -/
theorem ofText?_digits {digits : List Char} (nonempty : digits ≠ [])
    (h : ∀ c ∈ digits, c.isDigit = true) :
    ofText? digits = some (ofDecimal false (decimalValue digits) 0) := by
  have numeral := @ofText?_append digits [] [] [] 0 h (by simp) rfl (by simp [nonempty]) rfl
  simpa using numeral

/-- The number nearest to a whole number, infinite beyond 400 digits. -/
theorem ofDecimal_whole (negative : Bool) (n : Nat) :
    ofDecimal negative n 0 =
      if decimalReach < ((Nat.repr n).length : Int) then .infinite negative
      else ofRatio negative n 1 := by
  by_cases zero : n = 0
  · subst zero
    rfl
  have below : ¬ ((Nat.repr n).length : Int) < -decimalReach := by
    rw [decimalReach]
    omega
  simp only [ofDecimal, if_neg zero, Int.add_zero, if_neg below, Int.le_refl, if_true,
    Int.toNat_zero, Nat.pow_eq, Nat.pow_zero, Nat.mul_one]

/-- Below two to the power 53 there are few digits. -/
theorem ofDecimal_of_lt {n : Nat} (h : n < 2 ^ 53) (negative : Bool) :
    ofDecimal negative n 0 = ofRatio negative n 1 := by
  have short : (Nat.repr n).length ≤ 16 :=
    (Nat.length_repr_le_iff (by decide)).mpr (Nat.lt_trans h (by decide))
  rw [ofDecimal_whole, if_neg]
  rw [decimalReach]
  omega

/-- The digits of a number below two to the power 52 are read as a finite number. -/
theorem ofText?_toDigits {n : Nat} (h : n < 2 ^ 52) :
    ∃ rank, ofText? (Nat.toDigits 10 n) = some (.finite false rank) := by
  have limit : n < 2 ^ 53 := Nat.lt_trans h (by decide)
  obtain ⟨rank, read⟩ := ofRatio_one_finite limit false
  refine ⟨rank, ?_⟩
  rw [ofText?_digits Nat.toDigits_ne_nil fun c hc => isDigit_of_mem_toDigits hc,
    decimalValue_toDigits, ofDecimal_of_lt limit, read]

end Binary64

end QasmDiagram
