/-
Module: QasmDiagram.Proofs.LongestMatch
Purpose: Reading on while some rule is alive finds the longest beginning of a text that a rule
  matches, with the shape that the first of the matching rules gives it.
Trusted boundary: none
Main exports: Rule.shapeOf?, Rule.Longest, Rule.longest_append_iff, Rule.longest_eq_none_iff,
  Rule.exists_longest
-/
import QasmDiagram.Lexeme
import QasmDiagram.Proofs.Derivative

namespace QasmDiagram

namespace Rule

/-- The shape that the first rule matching a whole text gives it. -/
def shapeOf? (rules : List Rule) (text : List Char) : Option Shape :=
  (rules.find? fun rule => rule.pattern.accepts text).map Rule.shape

/-- No rule matches a text exactly if it has no shape. -/
theorem shapeOf?_eq_none_iff {rules : List Rule} {text : List Char} :
    shapeOf? rules text = none ↔ ∀ rule ∈ rules, ¬ rule.pattern.Matches text := by
  simp [shapeOf?, Pattern.accepts_iff]

/-- A text with a shape matches a rule of that shape. -/
theorem exists_matches_of_shapeOf? {rules : List Rule} {text : List Char} {shape : Shape}
    (h : shapeOf? rules text = some shape) :
    ∃ rule ∈ rules, rule.shape = shape ∧ rule.pattern.Matches text := by
  rcases Option.map_eq_some_iff.mp h with ⟨rule, found, hshape⟩
  have hmatch := List.find?_some found
  exact ⟨rule, List.mem_of_find?_eq_some found, hshape, Pattern.accepts_iff.mp hmatch⟩

/-! ### Reading one character -/

/-- The rules that are complete as they stand give the empty text its shape. -/
theorem complete?_eq_shapeOf? (rules : List Rule) : complete? rules = shapeOf? rules [] := rfl

/-- What remains of the rules after `c` gives a text the shape that `c` and the text had. -/
theorem shapeOf?_advance (c : Char) (rules : List Rule) (text : List Char) :
    shapeOf? (advance c rules) text = shapeOf? rules (c :: text) := by
  induction rules with
  | nil => rfl
  | cons rule rules ih =>
      have step : rule.pattern.accepts (c :: text) = (rule.pattern.derive c).accepts text := rfl
      simp only [shapeOf?] at ih
      by_cases dead : (rule.pattern.derive c).isNever = true
      · have refuses : (rule.pattern.derive c).accepts text = false := by
          rw [(Pattern.isNever_iff _).mp dead]
          exact congrArg Pattern.acceptsEmpty (Pattern.deriveAll_never text)
        simp only [shapeOf?, advance, List.filterMap_cons, dead, List.find?_cons, step, refuses]
        exact ih
      · simp only [shapeOf?, advance, List.filterMap_cons, dead, List.find?_cons, step]
        by_cases accepted : (rule.pattern.derive c).accepts text = true
        · simp [accepted]
        · simp only [Bool.not_eq_true] at accepted
          simp only [Bool.false_eq_true, if_false, List.find?_cons, accepted]
          exact ih

/-- Where no rule is alive after `c`, no text that starts with `c` has a shape. -/
theorem shapeOf?_of_advance_isEmpty {c : Char} {rules : List Rule}
    (dead : (advance c rules).isEmpty = true) (text : List Char) :
    shapeOf? rules (c :: text) = none := by
  rw [← shapeOf?_advance, List.isEmpty_iff.mp dead]
  rfl

/-! ### The longest match -/

/-- `a` is the longest non-empty beginning of `a ++ rest` that a rule matches, and `shape` is its
shape. -/
structure Longest (rules : List Rule) (a rest : List Char) (shape : Shape) : Prop where
  nonempty : a ≠ []
  shapeOf : shapeOf? rules a = some shape
  maximal : ∀ u, u ≠ [] → u <+: rest → shapeOf? rules (a ++ u) = none

/-- Two longest matches of the same text are the same. -/
theorem Longest.unique {rules : List Rule} {a rest a' rest' : List Char} {shape shape' : Shape}
    (one : Longest rules a rest shape) (two : Longest rules a' rest' shape')
    (same : a ++ rest = a' ++ rest') : a = a' ∧ rest = rest' ∧ shape = shape' := by
  have lengths : a = a' := by
    rcases List.append_eq_append_iff.mp same with ⟨u, ha, hrest⟩ | ⟨u, ha, hrest⟩
    · by_cases hu : u = []
      · simp [ha, hu]
      · have := one.maximal u hu ⟨rest', hrest.symm⟩
        rw [← ha, two.shapeOf] at this
        simp at this
    · by_cases hu : u = []
      · simp [ha, hu]
      · have := two.maximal u hu ⟨rest, hrest.symm⟩
        rw [← ha, one.shapeOf] at this
        simp at this
  subst lengths
  refine ⟨rfl, List.append_cancel_left same, ?_⟩
  have := one.shapeOf.symm.trans two.shapeOf
  exact Option.some.inj this

/-- A longest match behind a character is a longest match once the character is put back. -/
theorem Longest.cons {rules : List Rule} {c : Char} {a rest : List Char} {shape : Shape}
    (h : Longest (advance c rules) a rest shape) : Longest rules (c :: a) rest shape where
  nonempty := by simp
  shapeOf := by
    rw [← shapeOf?_advance]
    exact h.shapeOf
  maximal := by
    intro u hu pre
    rw [List.cons_append, ← shapeOf?_advance]
    exact h.maximal u hu pre

/-- The scan either finds no match in what is ahead and keeps the best so far, or answers the
longest match ahead. -/
theorem longestFrom_spec (rules : List Rule) (taken : Nat) (best : Option (Nat × Shape))
    (text : List Char) :
    (longestFrom rules taken best text = best ∧
        ∀ u, u ≠ [] → u <+: text → shapeOf? rules u = none) ∨
      ∃ a rest shape, text = a ++ rest ∧ Longest rules a rest shape ∧
        longestFrom rules taken best text = some (taken + a.length, shape) := by
  induction text generalizing rules taken best with
  | nil =>
      refine .inl ⟨rfl, ?_⟩
      intro u hu pre
      exact absurd (List.prefix_nil.mp pre) hu
  | cons c text ih =>
      unfold longestFrom
      by_cases dead : (advance c rules).isEmpty = true
      · refine .inl ⟨by simp only [dead, if_true], ?_⟩
        intro u hu pre
        cases u with
        | nil => exact absurd rfl hu
        | cons d u =>
            rw [(List.cons_prefix_cons.mp pre).1]
            exact shapeOf?_of_advance_isEmpty dead u
      · simp only [dead, Bool.false_eq_true, if_false]
        cases here : complete? (advance c rules) with
        | some shape =>
            rw [complete?_eq_shapeOf?, shapeOf?_advance] at here
            rcases ih (advance c rules) (taken + 1) (some (taken + 1, shape)) with
              ⟨kept, none_ahead⟩ | ⟨a, rest, shape', htext, found, answer⟩
            · refine .inr ⟨[c], text, shape, rfl, ⟨by simp, here, ?_⟩, kept⟩
              intro u hu pre
              rw [List.singleton_append, ← shapeOf?_advance]
              exact none_ahead u hu pre
            · refine .inr ⟨c :: a, rest, shape', by rw [htext]; rfl, found.cons, ?_⟩
              simp only [answer, List.length_cons, Nat.add_assoc, Nat.add_comm 1]
        | none =>
            rw [complete?_eq_shapeOf?, shapeOf?_advance] at here
            rcases ih (advance c rules) (taken + 1) best with
              ⟨kept, none_ahead⟩ | ⟨a, rest, shape', htext, found, answer⟩
            · refine .inl ⟨kept, ?_⟩
              intro u hu pre
              cases u with
              | nil => exact absurd rfl hu
              | cons d u =>
                  rcases List.cons_prefix_cons.mp pre with ⟨rfl, ahead⟩
                  by_cases hu : u = []
                  · rw [hu]
                    exact here
                  · rw [← shapeOf?_advance]
                    exact none_ahead u hu ahead
            · refine .inr ⟨c :: a, rest, shape', by rw [htext]; rfl, found.cons, ?_⟩
              simp only [answer, List.length_cons, Nat.add_assoc, Nat.add_comm 1]

/-- The scan answers nothing exactly if no non-empty beginning has a shape. -/
theorem longest_eq_none_iff {rules : List Rule} {text : List Char} :
    longest rules text = none ↔ ∀ u, u ≠ [] → u <+: text → shapeOf? rules u = none := by
  rcases longestFrom_spec rules 0 none text with
    ⟨answer, none_ahead⟩ | ⟨a, rest, shape, htext, found, answer⟩
  · exact ⟨fun _ => none_ahead, fun _ => answer⟩
  · constructor
    · intro h
      rw [longest, answer] at h
      simp at h
    · intro h
      have := h a found.nonempty ⟨rest, htext.symm⟩
      rw [found.shapeOf] at this
      simp at this

/-- What the scan answers is the longest match. -/
theorem exists_longest {rules : List Rule} {text : List Char} {n : Nat} {shape : Shape}
    (h : longest rules text = some (n, shape)) :
    ∃ a rest, text = a ++ rest ∧ a.length = n ∧ Longest rules a rest shape := by
  rcases longestFrom_spec rules 0 none text with
    ⟨answer, _⟩ | ⟨a, rest, shape', htext, found, answer⟩
  · rw [longest, answer] at h
    simp at h
  · rw [longest, answer] at h
    simp only [Nat.zero_add, Option.some.injEq, Prod.mk.injEq] at h
    rcases h with ⟨rfl, rfl⟩
    exact ⟨a, rest, htext, rfl, found⟩

/-- The scan answers the length and shape of `a` on `a ++ rest` exactly if `a` is the longest
match there. -/
theorem longest_append_iff {rules : List Rule} {a rest : List Char} {shape : Shape} :
    longest rules (a ++ rest) = some (a.length, shape) ↔ Longest rules a rest shape := by
  constructor
  · intro h
    obtain ⟨b, rest', htext, hlength, found⟩ := exists_longest h
    obtain ⟨rfl, rfl⟩ := List.append_inj htext hlength.symm
    exact found
  · intro h
    rcases longestFrom_spec rules 0 none (a ++ rest) with
      ⟨_, none_ahead⟩ | ⟨b, rest', shape', htext, found, answer⟩
    · have := none_ahead a h.nonempty (List.prefix_append a rest)
      rw [h.shapeOf] at this
      simp at this
    · obtain ⟨rfl, rfl, rfl⟩ := h.unique found htext
      rw [longest, answer, Nat.zero_add]

end Rule

end QasmDiagram
