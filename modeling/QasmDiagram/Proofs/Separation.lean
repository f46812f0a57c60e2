/-
Module: QasmDiagram.Proofs.Separation
Purpose: Patterns that share no text. Two patterns go apart within the first characters of their
  texts, or one of them requires a character that the other does not know. In the lexical grammar
  only the reserved words are also texts of another class: they are spelled like identifiers.
Trusted boundary: none
Main exports: Pattern.requires, Pattern.diverge, Pattern.separate, Rule.lexical, Shape.reserved,
  Rule.shape_of_matches
-/
import QasmDiagram.Proofs.Alphabet
import QasmDiagram.Proofs.LongestMatch

namespace QasmDiagram

/-- The characters of a set that is given by single characters. -/
def CharSet.points? (set : CharSet) : Option (List Char) :=
  if set.complemented || set.ranges.any fun range => range.1 != range.2 then none
  else some (set.ranges.map Prod.fst)

theorem CharSet.mem_of_points? {set : CharSet} {points : List Char} {c : Char}
    (h : set.points? = some points) (hc : set.contains c = true) : c ∈ points := by
  unfold points? at h
  split at h
  · simp at h
  · rename_i single
    simp only [Bool.or_eq_true, List.any_eq_true, bne_iff_ne, not_or, Bool.not_eq_true, not_exists,
      not_and, not_not] at single
    obtain ⟨range, hrange, lower, upper⟩ := mem_range_of_contains single.1 hc
    have same : range.1 = c := Char.le_antisymm lower (single.2 range hrange ▸ upper)
    rw [← Option.some.inj h]
    exact List.mem_map.mpr ⟨range, hrange, same⟩

namespace Pattern

/-- Whether every text of a pattern has a character of the set. -/
def requires (set : CharSet) : Pattern → Bool
  | .never => true
  | .empty => false
  | .one own => own.within set
  | .both p q => p.requires set || q.requires set
  | .either p q => p.requires set && q.requires set
  | .many _ => false

theorem exists_of_requires {set : CharSet} {p : Pattern} {w : List Char} (h : p.Matches w)
    (required : p.requires set = true) : ∃ c ∈ w, set.contains c = true := by
  induction h with
  | empty => simp [requires] at required
  | @one own c hc => exact ⟨c, by simp, CharSet.contains_of_within required hc⟩
  | both _ _ ihp ihq =>
      rw [requires, Bool.or_eq_true] at required
      rcases required with first | second
      · obtain ⟨c, hc, inside⟩ := ihp first
        exact ⟨c, List.mem_append_left _ hc, inside⟩
      · obtain ⟨c, hc, inside⟩ := ihq second
        exact ⟨c, List.mem_append_right _ hc, inside⟩
  | left _ ih => exact ih (Bool.and_eq_true_iff.mp required).1
  | right _ ih => exact ih (Bool.and_eq_true_iff.mp required).2
  | stop => simp [requires] at required
  | more _ _ _ _ => simp [requires] at required

/-- No text of a pattern that requires a character is a text of one that does not know it. -/
theorem not_matches_of_requires {set : CharSet} {p q : Pattern}
    (required : p.requires set = true) (unknown : q.classes.all set.apart = true) {w : List Char}
    (h : p.Matches w) : ¬ q.Matches w := by
  intro h'
  obtain ⟨c, hc, inside⟩ := exists_of_requires h required
  obtain ⟨own, hown, known⟩ := covers_classes h' c hc
  have outside := CharSet.not_contains_of_apart (List.all_eq_true.mp unknown own hown) inside
  rw [known] at outside
  simp at outside

/-- Whether the texts of two patterns go apart within their first `depth` characters. A set of
single characters is gone through; any other must be apart from what opens the other pattern. -/
def diverge : Nat → Pattern → Pattern → Bool
  | 0, _, _ => false
  | depth + 1, p, q =>
      !(p.acceptsEmpty && q.acceptsEmpty) && p.opens.all fun set =>
        q.opens.all set.apart ||
          set.points?.any fun points => points.all fun c => diverge depth (p.derive c) (q.derive c)

theorem not_matches_of_diverge {depth : Nat} {p q : Pattern} (h : diverge depth p q = true)
    {w : List Char} (hp : p.Matches w) : ¬ q.Matches w := by
  induction depth generalizing p q w with
  | zero => simp [diverge] at h
  | succ depth ih =>
      intro hq
      rw [diverge, Bool.and_eq_true] at h
      cases w with
      | nil =>
          rw [acceptsEmpty_of_matches_nil hp, acceptsEmpty_of_matches_nil hq] at h
          simp at h
      | cons c w =>
          obtain ⟨set, hset, inside⟩ := covers_opens hp
          have opening := List.all_eq_true.mp h.2 set hset
          rw [Bool.or_eq_true] at opening
          rcases opening with far | single
          · obtain ⟨other, hother, inOther⟩ := covers_opens hq
            have outside :=
              CharSet.not_contains_of_apart (List.all_eq_true.mp far other hother) inside
            rw [inOther] at outside
            simp at outside
          · cases hpoints : set.points? with
            | none => simp [hpoints] at single
            | some points =>
                rw [hpoints, Option.any_some] at single
                have later := List.all_eq_true.mp single c (CharSet.mem_of_points? hpoints inside)
                exact ih later (matches_derive.mpr hp) (matches_derive.mpr hq)

/-- Whether two patterns are seen to share no text: by their first characters, or by a character of
one of the given sets that one of them requires and the other does not know. -/
def separate (tells : List CharSet) (p q : Pattern) : Bool :=
  diverge 4 p q || diverge 4 q p || tells.any fun set =>
    (p.requires set && q.classes.all set.apart) || (q.requires set && p.classes.all set.apart)

theorem not_matches_of_separate {tells : List CharSet} {p q : Pattern}
    (h : separate tells p q = true) {w : List Char} (hp : p.Matches w) : ¬ q.Matches w := by
  simp only [separate, Bool.or_eq_true, List.any_eq_true, Bool.and_eq_true] at h
  rcases h with (apart | apart) | ⟨set, _, ⟨required, unknown⟩ | ⟨required, unknown⟩⟩
  · exact not_matches_of_diverge apart hp
  · exact fun hq => not_matches_of_diverge apart hq hp
  · exact not_matches_of_requires required unknown hp
  · exact fun hq => not_matches_of_requires required unknown hq hp

end Pattern

/-- The classes of reserved words, which are spelled like identifiers. -/
def Shape.reserved : Shape → Bool
  | .token (.keyword _) => true
  | .token .boolean => true
  | _ => false

namespace Rule

open Pattern

/-- The rules of layout and tokens: those of the table but for what is never closed. -/
def lexical : List Rule :=
  table.filter (·.shape ≠ .invalid)

theorem mem_lexical_iff {rule : Rule} : rule ∈ lexical ↔ rule ∈ table ∧ rule.shape ≠ .invalid := by
  simp [lexical]

/-- What tells numbers apart that start alike: the suffix of an imaginary number, and the point or
the exponent of a floating-point number. -/
def numberTells : List CharSet :=
  [.of "m", .of ".eE"]

theorem lexical_separate : ∀ rule ∈ lexical, ∀ other ∈ lexical, rule.shape = other.shape ∨
    (rule.shape.reserved = true ∧ other.shape = .token .identifier) ∨
    (other.shape.reserved = true ∧ rule.shape = .token .identifier) ∨
      separate numberTells rule.pattern other.pattern = true := by
  decide +kernel

/-- The reserved words with their classes. -/
def reservedWords : List (String × TokenKind) :=
  Keyword.all.map (fun k => (k.text, .keyword k)) ++ [("true", .boolean), ("false", .boolean)]

theorem table_reserved : ∀ rule ∈ table, rule.shape.reserved = true →
    rule ∈ Keyword.all.map (fun k => ⟨word k.text, .token (.keyword k)⟩) ∨
      rule = ⟨anyOf [word "true", word "false"], .token .boolean⟩ := by
  decide

theorem shapeOf?_reservedWords : ∀ entry ∈ reservedWords,
    shapeOf? table entry.1.toList = some (.token entry.2) := by
  decide

/-- A text of a rule of reserved words has the shape of that rule, although it is also spelled like
an identifier. -/
theorem shapeOf?_of_reserved {rule : Rule} (hrule : rule ∈ table)
    (reserved : rule.shape.reserved = true) {w : List Char} (h : rule.pattern.Matches w) :
    shapeOf? table w = some rule.shape := by
  rcases table_reserved rule hrule reserved with keyword | rfl
  · obtain ⟨k, hk, rfl⟩ := List.mem_map.mp keyword
    rw [matches_word.mp h]
    exact shapeOf?_reservedWords (k.text, .keyword k)
      (List.mem_append_left _ (List.mem_map.mpr ⟨k, hk, rfl⟩))
  · have either : w = "true".toList ∨ w = "false".toList := by
      simpa [anyOf, matches_either, matches_word] using h
    rcases either with rfl | rfl
    · exact shapeOf?_reservedWords ("true", .boolean) (by simp [reservedWords])
    · exact shapeOf?_reservedWords ("false", .boolean) (by simp [reservedWords])

/-- A rule of layout or tokens that matches a text is of the shape the text has, or it is the rule
of identifiers and the text is a reserved word. -/
theorem shape_of_matches {w : List Char} {shape : Shape} (h : shapeOf? table w = some shape)
    (valid : shape ≠ .invalid) {rule : Rule} (hrule : rule ∈ lexical)
    (hmatch : rule.pattern.Matches w) :
    rule.shape = shape ∨ (shape.reserved = true ∧ rule.shape = .token .identifier) := by
  obtain ⟨first, hfirst, rfl, matched⟩ := exists_matches_of_shapeOf? h
  rcases lexical_separate first (mem_lexical_iff.mpr ⟨hfirst, valid⟩) rule hrule with
    same | preferred | ⟨reserved, _⟩ | apart
  · exact .inl same.symm
  · exact .inr preferred
  · have decided := shapeOf?_of_reserved (mem_lexical_iff.mp hrule).1 reserved hmatch
    rw [decided, Option.some.injEq] at h
    exact .inl h
  · exact absurd hmatch (not_matches_of_separate apart matched)

end Rule

end QasmDiagram
