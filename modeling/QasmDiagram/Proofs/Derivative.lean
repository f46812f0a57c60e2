/-
Module: QasmDiagram.Proofs.Derivative
Purpose: The derivative of a pattern holds what may follow a character, so reading a text one
  character at a time decides whether it matches.
Trusted boundary: none
Main exports: CharSet.contains_of_iff, Pattern.acceptsEmpty_iff, Pattern.matches_derive,
  Pattern.deriveAll, Pattern.accepts_iff, Pattern.matches_word
-/
import Mathlib.Tactic.Common
import QasmDiagram.Pattern

namespace QasmDiagram

namespace CharSet

/-- The set of a text holds its characters. -/
theorem contains_of_iff {text : String} {c : Char} :
    (CharSet.of text).contains c = true ↔ c ∈ text.toList := by
  have between : ∀ d : Char, d ≤ c ∧ c ≤ d ↔ d = c := by
    intro d
    constructor
    · rintro ⟨lower, upper⟩
      exact Char.le_antisymm lower upper
    · rintro rfl
      exact ⟨Char.le_refl d, Char.le_refl d⟩
  simp [CharSet.of, CharSet.contains, between]

/-- The complement of the set of a text holds all other characters. -/
theorem contains_except_iff {text : String} {c : Char} :
    (CharSet.except text).contains c = true ↔ c ∉ text.toList := by
  rw [← contains_of_iff]
  simp [CharSet.except, CharSet.of, CharSet.contains]

end CharSet

namespace Pattern

/-! ### What the texts of each pattern look like -/

@[simp] theorem matches_never {w : List Char} : Matches .never w ↔ False := by
  constructor
  · intro h
    cases h
  · exact False.elim

@[simp] theorem matches_empty {w : List Char} : Matches .empty w ↔ w = [] := by
  constructor
  · intro h
    cases h
    rfl
  · intro h
    subst h
    exact .empty

theorem matches_one {set : CharSet} {w : List Char} :
    Matches (.one set) w ↔ ∃ c, w = [c] ∧ set.contains c = true := by
  constructor
  · intro h
    cases h with
    | one hc => exact ⟨_, rfl, hc⟩
  · rintro ⟨c, rfl, hc⟩
    exact .one hc

theorem matches_both {p q : Pattern} {w : List Char} :
    Matches (.both p q) w ↔ ∃ u v, w = u ++ v ∧ p.Matches u ∧ q.Matches v := by
  constructor
  · intro h
    cases h with
    | both hp hq => exact ⟨_, _, rfl, hp, hq⟩
  · rintro ⟨u, v, rfl, hp, hq⟩
    exact .both hp hq

theorem matches_either {p q : Pattern} {w : List Char} :
    Matches (.either p q) w ↔ p.Matches w ∨ q.Matches w := by
  constructor
  · intro h
    cases h with
    | left hp => exact .inl hp
    | right hq => exact .inr hq
  · rintro (hp | hq)
    · exact .left hp
    · exact .right hq

/-- A repetition matches nothing, or starts with a match that takes at least one character. -/
theorem matches_many_cons {p : Pattern} {c : Char} {w : List Char} :
    Matches (.many p) (c :: w) ↔
      ∃ u v, w = u ++ v ∧ p.Matches (c :: u) ∧ Matches (.many p) v := by
  constructor
  · intro h
    generalize hq : Pattern.many p = q at h
    generalize ht : c :: w = text at h
    -- A first round that takes no character is skipped, so the induction is on the derivation.
    induction h with
    | @more p u v hp hrest _ ih =>
        cases hq
        cases u with
        | nil => exact ih rfl ht
        | cons d u =>
            simp only [List.cons_append, List.cons.injEq] at ht
            rcases ht with ⟨rfl, rfl⟩
            exact ⟨u, v, rfl, hp, hrest⟩
    | stop => simp at ht
    | _ => cases hq
  · rintro ⟨u, v, rfl, hp, hrest⟩
    exact .more hp hrest

/-! ### Derivatives -/

/-- A pattern accepts the empty text exactly if the empty text matches. -/
theorem acceptsEmpty_iff (p : Pattern) : p.acceptsEmpty = true ↔ p.Matches [] := by
  induction p with
  | never => simp [acceptsEmpty]
  | empty => simp [acceptsEmpty]
  | one set => simp [acceptsEmpty, matches_one]
  | both p q ihp ihq => simp [acceptsEmpty, matches_both, ihp, ihq]
  | either p q ihp ihq => simp [acceptsEmpty, matches_either, ihp, ihq]
  | many p _ => simp [acceptsEmpty, Matches.stop]

/-- Only the impossible pattern passes for it. -/
theorem isNever_iff (p : Pattern) : p.isNever = true ↔ p = .never := by
  cases p <;> simp [isNever]

/-- Dropping trivial patterns from a sequence does not change its texts. -/
theorem matches_andThen {p q : Pattern} {w : List Char} :
    (andThen p q).Matches w ↔ Matches (.both p q) w := by
  rw [matches_both]
  unfold andThen
  split
  · simp
  · simp
  · split
    · rename_i h
      simp [(isNever_iff q).mp h]
    · exact matches_both

/-- Dropping impossible patterns from a choice does not change its texts. -/
theorem matches_orElse {p q : Pattern} {w : List Char} :
    (orElse p q).Matches w ↔ p.Matches w ∨ q.Matches w := by
  unfold orElse
  split
  · simp
  · split
    · rename_i h
      simp [(isNever_iff q).mp h]
    · exact matches_either

/-- A sequence that starts with a character has it from its first part, or from its second part
when the first may be empty. -/
theorem matches_both_cons {p q : Pattern} {c : Char} {w : List Char} :
    Matches (.both p q) (c :: w) ↔
      (∃ u v, w = u ++ v ∧ p.Matches (c :: u) ∧ q.Matches v) ∨ (p.Matches [] ∧ q.Matches (c :: w)) := by
  rw [matches_both]
  constructor
  · rintro ⟨u, v, huv, hp, hq⟩
    cases u with
    | nil =>
        rw [List.nil_append] at huv
        subst huv
        exact .inr ⟨hp, hq⟩
    | cons d u =>
        simp only [List.cons_append, List.cons.injEq] at huv
        rcases huv with ⟨rfl, rfl⟩
        exact .inl ⟨u, v, rfl, hp, hq⟩
  · rintro (⟨u, v, rfl, hp, hq⟩ | ⟨hp, hq⟩)
    · exact ⟨c :: u, v, rfl, hp, hq⟩
    · exact ⟨[], c :: w, rfl, hp, hq⟩

/-- The derivative by `c` matches exactly what may follow `c`. -/
theorem matches_derive {c : Char} {p : Pattern} {w : List Char} :
    (p.derive c).Matches w ↔ p.Matches (c :: w) := by
  induction p generalizing w with
  | never => simp [derive]
  | empty => simp [derive]
  | one set =>
      unfold derive
      rw [matches_one]
      split
      · rename_i h
        simp [h]
      · rename_i h
        simp [h]
  | both p q ihp ihq =>
      rw [matches_both_cons, ← acceptsEmpty_iff]
      unfold derive
      split
      · rename_i h
        rw [matches_orElse, matches_andThen, matches_both, ihq]
        simp only [ihp, h, true_and]
      · rename_i h
        rw [matches_andThen, matches_both]
        simp [ihp, h]
  | either p q ihp ihq =>
      unfold derive
      rw [matches_orElse, matches_either, ihp, ihq]
  | many p ih =>
      unfold derive
      rw [matches_andThen, matches_both, matches_many_cons]
      simp only [ih]

/-- What may follow the text `u` in a text that matches. -/
def deriveAll (p : Pattern) (u : List Char) : Pattern :=
  u.foldl (fun rest c => rest.derive c) p

@[simp] theorem deriveAll_nil (p : Pattern) : p.deriveAll [] = p := rfl

@[simp] theorem deriveAll_cons (p : Pattern) (c : Char) (u : List Char) :
    p.deriveAll (c :: u) = (p.derive c).deriveAll u := rfl

/-- The derivative by a text matches exactly what may follow it. -/
theorem matches_deriveAll {p : Pattern} {u w : List Char} :
    (p.deriveAll u).Matches w ↔ p.Matches (u ++ w) := by
  induction u generalizing p with
  | nil => rfl
  | cons c u ih => rw [deriveAll_cons, ih, matches_derive, List.cons_append]

/-- Nothing follows where a pattern has become impossible. -/
@[simp] theorem deriveAll_never (u : List Char) : deriveAll .never u = .never := by
  induction u with
  | nil => rfl
  | cons c u ih => exact ih

/-- Reading a text one character at a time decides whether it matches. -/
theorem accepts_iff {p : Pattern} {w : List Char} : p.accepts w = true ↔ p.Matches w := by
  have h : (p.deriveAll w).acceptsEmpty = true ↔ p.Matches (w ++ []) := by
    rw [acceptsEmpty_iff, matches_deriveAll]
  rw [List.append_nil] at h
  exact h

/-! ### Texts of composed patterns -/

theorem matches_sequence_cons {p : Pattern} {parts : List Pattern} {w : List Char} :
    (sequence (p :: parts)).Matches w ↔
      ∃ u v, w = u ++ v ∧ p.Matches u ∧ (sequence parts).Matches v :=
  matches_both

@[simp] theorem matches_sequence_nil {w : List Char} : (sequence []).Matches w ↔ w = [] :=
  matches_empty

/-- It does not matter how three patterns in a row are grouped. -/
theorem matches_both_assoc {p q r : Pattern} {w : List Char} :
    Matches (.both (.both p q) r) w ↔ Matches (.both p (.both q r)) w := by
  simp only [matches_both]
  constructor
  · rintro ⟨_, z, rfl, ⟨x, y, rfl, hx, hy⟩, hz⟩
    exact ⟨x, y ++ z, List.append_assoc x y z, hx, y, z, rfl, hy, hz⟩
  · rintro ⟨x, _, rfl, hx, y, z, rfl, hy, hz⟩
    exact ⟨x ++ y, z, (List.append_assoc x y z).symm, ⟨x, y, rfl, hx, hy⟩, hz⟩

/-- A sequence may be cut anywhere. -/
theorem matches_sequence_append {parts parts' : List Pattern} {w : List Char} :
    (sequence (parts ++ parts')).Matches w ↔
      Matches (.both (sequence parts) (sequence parts')) w := by
  induction parts generalizing w with
  | nil => simp [matches_both]
  | cons p parts ih =>
      rw [List.cons_append, matches_sequence_cons]
      simp only [ih]
      exact (matches_both_assoc.trans matches_both).symm

/-- A repetition of single characters matches the texts made of them. -/
theorem matches_many_one {set : CharSet} {w : List Char} :
    Matches (.many (.one set)) w ↔ ∀ c ∈ w, set.contains c = true := by
  induction w with
  | nil => simp [Matches.stop]
  | cons c w ih =>
      rw [matches_many_cons]
      constructor
      · rintro ⟨u, v, rfl, hc, hrest⟩
        rcases matches_one.mp hc with ⟨d, hd, hset⟩
        simp only [List.cons.injEq] at hd
        rcases hd with ⟨rfl, rfl⟩
        have hall := ih.mp hrest
        simpa [hset] using hall
      · intro hall
        refine ⟨[], w, rfl, .one (hall c (by simp)), ih.mpr ?_⟩
        intro d hd
        exact hall d (by simp [hd])

/-- The pattern of a fixed spelling matches that spelling only. -/
theorem matches_word {text : String} {w : List Char} :
    (word text).Matches w ↔ w = text.toList := by
  unfold word
  induction text.toList generalizing w with
  | nil => simp
  | cons c rest ih =>
      rw [List.foldr_cons, matches_andThen, matches_both]
      constructor
      · rintro ⟨u, v, rfl, hu, hv⟩
        rcases matches_one.mp hu with ⟨d, rfl, hd⟩
        have hdc : d = c := by simpa using CharSet.contains_of_iff.mp hd
        rw [ih.mp hv, hdc]
        rfl
      · intro hw
        exact ⟨[c], rest, hw, .one (CharSet.contains_of_iff.mpr (by simp)), ih.mpr rfl⟩

end Pattern

end QasmDiagram
