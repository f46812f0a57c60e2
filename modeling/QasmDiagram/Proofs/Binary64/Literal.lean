/-
Module: QasmDiagram.Proofs.Binary64.Literal
Purpose: The numbers of the lexical grammar are numerals: a text of the class of decimal integers or
  of floating-point literals has a value, which is neither not-a-number nor negative.
Trusted boundary: none
Main exports: Rule.matches_digits, Rule.matches_fraction, Rule.matches_exponent,
  exists_literalValue
-/
import QasmDiagram.Angle
import QasmDiagram.Proofs.Binary64.Numeral
import QasmDiagram.Proofs.LongestMatch

namespace QasmDiagram

/-- A union of two sets given by ranges holds what one of them holds. -/
theorem CharSet.contains_union_iff {s t : CharSet} (plain : s.complemented = false)
    (plain' : t.complemented = false) {c : Char} :
    (s.union t).contains c = true ↔ s.contains c = true ∨ t.contains c = true := by
  simp [contains, union, plain, plain']

namespace Rule

open Pattern

variable {w : List Char}

/-! ### The parts of a number as written -/

theorem isDigit_of_contains {c : Char} (h : CharSet.digit.contains c = true) :
    c.isDigit = true := by
  simpa [CharSet.contains, CharSet.digit, Char.isDigit, Char.le_def] using h

/-- Behind the first digit stand digits and underscores, which do not count. -/
theorem isDigit_of_mem_filter
    (h : (many (one (CharSet.digit.union (.of "_")))).Matches w) :
    ∀ c ∈ w.filter (· != '_'), c.isDigit = true := by
  intro c hc
  obtain ⟨inside, counts⟩ := List.mem_filter.mp hc
  rcases (CharSet.contains_union_iff rfl rfl).mp (matches_many_one.mp h c inside)
    with digit | underscore
  · exact isDigit_of_contains digit
  · have isUnderscore : c = '_' := by simpa using CharSet.contains_of_iff.mp underscore
    simp [isUnderscore] at counts

theorem matches_digits (h : digits.Matches w) :
    ∃ c rest, w.filter (· != '_') = c :: rest ∧ ∀ d ∈ c :: rest, d.isDigit = true := by
  obtain ⟨_, v, rfl, hfirst, hv⟩ := matches_both.mp h
  obtain ⟨c, rfl, hc⟩ := matches_one.mp hfirst
  have digit := isDigit_of_contains hc
  have counts : (c != '_') = true := by
    simp only [bne_iff_ne]
    rintro rfl
    cases digit
  refine ⟨c, v.filter (· != '_'), by simp [counts], ?_⟩
  simpa [digit] using fun d hd hne =>
    isDigit_of_mem_filter hv d (List.mem_filter.mpr ⟨hd, by simpa using hne⟩)

/-- A fraction is a point with places behind it. -/
theorem matches_fraction (h : fraction.Matches w) :
    ∃ places, w.filter (· != '_') = '.' :: places ∧ ∀ d ∈ places, d.isDigit = true := by
  obtain ⟨_, v, rfl, hpoint, hv⟩ := matches_both.mp h
  obtain ⟨c, rfl, hc⟩ := matches_one.mp hpoint
  obtain rfl : c = '.' := by simpa using CharSet.contains_of_iff.mp hc
  exact ⟨v.filter (· != '_'), by simp, isDigit_of_mem_filter hv⟩

/-- A sign and digits behind it are the digits of an exponent. -/
theorem exists_exponentOf? {letter d : Char} {sign v : List Char} (hletter : letter ∈ ['e', 'E'])
    (hsign : sign ∈ [[], ['+'], ['-']]) (h : ∀ c ∈ d :: v, c.isDigit = true) :
    ∃ x, Binary64.exponentOf? (letter :: (sign ++ d :: v)) = some x := by
  have plain : letter = 'e' ∨ letter = 'E' := by simpa using hletter
  have all : (d :: v).all Char.isDigit = true := List.all_eq_true.mpr h
  obtain ⟨negative, split⟩ : ∃ negative,
      Binary64.splitSign (sign ++ d :: v) = (negative, d :: v) := by
    simp only [List.mem_cons, List.not_mem_nil, or_false] at hsign
    rcases hsign with rfl | rfl | rfl
    · exact ⟨false, Binary64.splitSign_of_head (.inl (h d (by simp)))⟩
    · exact ⟨false, rfl⟩
    · exact ⟨true, rfl⟩
  simp only [Binary64.exponentOf?, if_pos plain, split]
  exact ⟨_, if_pos ⟨List.cons_ne_nil d v, all⟩⟩

/-- An exponent has a value, and it starts with its letter. -/
theorem matches_exponent (h : exponent.Matches w) :
    ∃ letter rest x, w.filter (· != '_') = letter :: rest ∧ letter ∈ ['e', 'E'] ∧
      Binary64.exponentOf? (letter :: rest) = some x := by
  obtain ⟨_, _, rfl, hletter, h⟩ := matches_sequence_cons.mp h
  obtain ⟨sign, _, rfl, hsign, h⟩ := matches_sequence_cons.mp h
  obtain ⟨_, _, rfl, hdigits, h⟩ := matches_sequence_cons.mp h
  obtain rfl := matches_sequence_nil.mp h
  obtain ⟨letter, rfl, letter_mem⟩ := matches_one.mp hletter
  obtain ⟨_, v, rfl, hfirst, hv⟩ := matches_both.mp hdigits
  obtain ⟨d, rfl, hd⟩ := matches_one.mp hfirst
  have letters : letter ∈ ['e', 'E'] := by simpa using CharSet.contains_of_iff.mp letter_mem
  have signs : sign ∈ [[], ['+'], ['-']] := by
    rcases matches_either.mp hsign with written | absent
    · obtain ⟨c, rfl, hc⟩ := matches_one.mp written
      have : c = '+' ∨ c = '-' := by simpa using CharSet.contains_of_iff.mp hc
      simpa using this
    · simp [matches_empty.mp absent]
  have digits : ∀ c ∈ d :: v, c.isDigit = true := by
    simpa [isDigit_of_contains hd] using fun c hc =>
      isDigit_of_contains (matches_many_one.mp hv c hc)
  have counts : (letter :: (sign ++ d :: v)).filter (· != '_') = letter :: (sign ++ d :: v) := by
    refine List.filter_eq_self.mpr fun c hc => ?_
    simp only [bne_iff_ne]
    rintro rfl
    rcases List.mem_cons.mp hc with rfl | hc
    · simp at letters
    · rcases List.mem_append.mp hc with inSign | inDigits
      · simp only [List.mem_cons, List.not_mem_nil, or_false] at signs
        rcases signs with rfl | rfl | rfl <;> simp at inSign
      · exact absurd (digits '_' inDigits) (by decide)
  obtain ⟨x, hx⟩ := exists_exponentOf? letters signs digits
  exact ⟨letter, _, x, by simpa using counts, letters, hx⟩

/-- Behind the digits of a number stands nothing or an exponent, neither of which goes on with a
digit or a point. -/
theorem matches_optional_exponent (h : (optional exponent).Matches w) :
    ∃ x, Binary64.exponentOf? (w.filter (· != '_')) = some x ∧
      ∀ c ∈ (w.filter (· != '_')).head?, c.isDigit = false ∧ c ≠ '.' := by
  rcases matches_either.mp h with written | absent
  · obtain ⟨letter, rest, x, hw, hletter, hx⟩ := matches_exponent written
    refine ⟨x, by rw [hw, hx], ?_⟩
    have either : letter = 'e' ∨ letter = 'E' := by simpa using hletter
    rw [hw]
    rcases either with rfl | rfl <;> simp +decide
  · rw [matches_empty.mp absent]
    exact ⟨0, rfl, by simp⟩

end Rule

/-! ### Literals -/

namespace Binary64

/-- The digits behind a point, in front of a text that does not go on with one. -/
theorem splitFraction_point {places tail : List Char} (h : ∀ c ∈ places, c.isDigit = true)
    (stops : ∀ c ∈ tail.head?, c.isDigit = false) :
    splitFraction ('.' :: (places ++ tail)) = (places, tail) := by
  obtain ⟨taken, left⟩ := span_digits h stops
  rw [splitFraction, taken, left]

/-- No places stand where there is no point. -/
theorem splitFraction_of_head {tail : List Char} (h : ∀ c ∈ tail.head?, c ≠ '.') :
    splitFraction tail = ([], tail) := by
  unfold splitFraction
  split
  · exact absurd rfl (h '.' rfl)
  · rfl

end Binary64

open Pattern Rule Binary64

/-- The patterns of the numbers that have a value. -/
def Rule.numeralPatterns : List Pattern :=
  [anyOf [sequence [digits, fraction, optional exponent],
    sequence [word ".", digits, optional exponent], both digits exponent], digits]

theorem Rule.table_numerals : ∀ rule ∈ table,
    rule.shape = .token .float ∨ rule.shape = .token (.integer .decimal) →
      rule.pattern ∈ numeralPatterns := by
  decide

/-- The text of a number, without its underscores, is read as a numeral. -/
theorem exists_ofText?_of_mem {p : Pattern} (hp : p ∈ numeralPatterns) {w : List Char}
    (h : p.Matches w) :
    ∃ s e, ofText? (w.filter (· != '_')) = some (ofDecimal false s e) := by
  simp only [numeralPatterns, List.mem_cons, List.not_mem_nil, or_false] at hp
  rcases hp with rfl | rfl
  · rcases matches_either.mp h with both | h
    · obtain ⟨_, _, rfl, hwhole, h⟩ := matches_sequence_cons.mp both
      obtain ⟨_, _, rfl, hplaces, h⟩ := matches_sequence_cons.mp h
      obtain ⟨_, _, rfl, htail, h⟩ := matches_sequence_cons.mp h
      obtain rfl := matches_sequence_nil.mp h
      obtain ⟨c, whole, hw, whole_digits⟩ := matches_digits hwhole
      obtain ⟨places, hp, places_digits⟩ := matches_fraction hplaces
      obtain ⟨x, hx, head⟩ := matches_optional_exponent htail
      have split := splitFraction_point places_digits fun d hd => (head d hd).1
      have value := ofText?_append whole_digits (by simp +decide) split (by simp) hx
      exact ⟨_, _, by simpa [hw, hp] using value⟩
    rcases matches_either.mp h with placesOnly | h
    · obtain ⟨_, _, rfl, hpoint, h⟩ := matches_sequence_cons.mp placesOnly
      obtain ⟨_, _, rfl, hplaces, h⟩ := matches_sequence_cons.mp h
      obtain ⟨_, _, rfl, htail, h⟩ := matches_sequence_cons.mp h
      obtain rfl := matches_sequence_nil.mp h
      obtain rfl := matches_word.mp hpoint
      obtain ⟨c, places, hp, places_digits⟩ := matches_digits hplaces
      obtain ⟨x, hx, head⟩ := matches_optional_exponent htail
      have split := splitFraction_point places_digits fun d hd => (head d hd).1
      have value := @ofText?_append [] _ _ _ _ (by simp) (by simp +decide) split (by simp) hx
      exact ⟨_, _, by simpa [hp] using value⟩
    · have wholeOnly : (both digits exponent).Matches w := by
        simpa using matches_either.mp h
      obtain ⟨_, _, rfl, hwhole, htail⟩ := matches_both.mp wholeOnly
      obtain ⟨c, whole, hw, whole_digits⟩ := matches_digits hwhole
      obtain ⟨x, hx, head⟩ := matches_optional_exponent (.left htail)
      have split := splitFraction_of_head fun d hd => (head d hd).2
      have value := ofText?_append whole_digits (fun d hd => (head d hd).1) split (by simp) hx
      exact ⟨_, _, by simpa [hw] using value⟩
  · obtain ⟨c, rest, hw, all⟩ := matches_digits h
    rw [hw]
    exact ⟨_, _, ofText?_digits (by simp) all⟩

/-- What a rule for numbers matches has a value: the number nearest to a decimal fraction. -/
theorem exists_literalValue_of_matches {rule : Rule} (hrule : rule ∈ table)
    (number : rule.shape = .token .float ∨ rule.shape = .token (.integer .decimal)) {text : String}
    (matched : rule.pattern.Matches text.toList) :
    ∃ s e, literalValue text = .ok (ofDecimal false s e) := by
  obtain ⟨s, e, value⟩ := exists_ofText?_of_mem (table_numerals rule hrule number) matched
  exact ⟨s, e, by rw [literalValue, value]⟩

/-- A number of the lexical grammar has a value: the number nearest to a decimal fraction. -/
theorem exists_literalValue {text : String} {kind : TokenKind}
    (h : shapeOf? table text.toList = some (.token kind))
    (number : kind = .float ∨ kind = .integer .decimal) :
    ∃ s e, literalValue text = .ok (ofDecimal false s e) := by
  obtain ⟨rule, hrule, hshape, matched⟩ := exists_matches_of_shapeOf? h
  exact exists_literalValue_of_matches hrule (by simpa [hshape] using number) matched

end QasmDiagram
