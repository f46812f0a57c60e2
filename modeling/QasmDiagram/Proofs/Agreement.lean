/-
Module: QasmDiagram.Proofs.Agreement
Purpose: Two computations side by side: they agree if both succeed with related values, or both fail
  with related causes. Agreement is kept by every way in which computations are put together.
Trusted boundary: none
Main exports: Agree, Agree.bind, Agree.ok_iff, agree_self, agree_after, agree_of_ok_iff,
  LowerError.SameKind
-/
import QasmDiagram.LowerError
import QasmDiagram.Proofs.Reading

namespace QasmDiagram

/-- Two outcomes agree if both are values that `R` relates, or both are causes that `E` relates. -/
inductive Agree {ε ε' α β : Type} (E : ε → ε' → Prop) (R : α → β → Prop) :
    Except ε α → Except ε' β → Prop where
  | ok {a b} : R a b → Agree E R (.ok a) (.ok b)
  | error {e e'} : E e e' → Agree E R (.error e) (.error e')

variable {ε ε' α β γ δ : Type} {E : ε → ε' → Prop} {R : α → β → Prop} {S : γ → δ → Prop}
  {x : Except ε α} {y : Except ε' β}

namespace Agree

/-- Computations that go on in agreement wherever they come from related values. -/
theorem bind {f : α → Except ε γ} {g : β → Except ε' δ} (h : Agree E R x y)
    (goesOn : ∀ a b, R a b → Agree E S (f a) (g b)) : Agree E S (x >>= f) (y >>= g) := by
  cases h with
  | ok hab => exact goesOn _ _ hab
  | error he => exact .error he

theorem mono {R' : α → β → Prop} (h : Agree E R x y) (weaker : ∀ a b, R a b → R' a b) :
    Agree E R' x y := by
  cases h with
  | ok hab => exact .ok (weaker _ _ hab)
  | error he => exact .error he

theorem imp_error {E' : ε → ε' → Prop} (h : Agree E R x y) (weaker : ∀ e e', E e e' → E' e e') :
    Agree E' R x y := by
  cases h with
  | ok hab => exact .ok hab
  | error he => exact .error (weaker _ _ he)

theorem symm (h : Agree E R x y) : Agree (fun e' e => E e e') (fun b a => R a b) y x := by
  cases h with
  | ok hab => exact .ok hab
  | error he => exact .error he

/-- Agreement goes over from one outcome to the next. -/
theorem trans {ε'' : Type} {z : Except ε'' γ} {F : ε' → ε'' → Prop} {T : β → γ → Prop}
    (h : Agree E R x y) (h' : Agree F T y z) :
    Agree (fun e e'' => ∃ e', E e e' ∧ F e' e'') (fun a c => ∃ b, R a b ∧ T b c) x z := by
  cases h with
  | ok hab =>
      cases h' with
      | ok hbc => exact .ok ⟨_, hab, hbc⟩
  | error he =>
      cases h' with
      | error hf => exact .error ⟨_, he, hf⟩

/-- Of outcomes that agree, one is a value exactly if the other is. -/
theorem ok_iff (h : Agree E R x y) : (∃ a, x = .ok a) ↔ ∃ b, y = .ok b := by
  cases h with
  | ok _ => exact ⟨fun _ => ⟨_, rfl⟩, fun _ => ⟨_, rfl⟩⟩
  | error _ => simp

theorem of_ok {a : α} {b : β} (h : Agree E R (.ok a) (.ok b)) : R a b := by
  cases h with
  | ok hab => exact hab

theorem of_error {e : ε} {e' : ε'} (h : Agree E R (.error e) (.error e')) :
    E e e' := by
  cases h with
  | error he => exact he

end Agree

/-- An outcome agrees with itself. -/
theorem agree_self {E : ε → ε → Prop} {R : α → α → Prop} (causes : ∀ e, E e e)
    (values : ∀ a, R a a) (x : Except ε α) : Agree E R x x := by
  cases x with
  | ok a => exact .ok (values a)
  | error e => exact .error (causes e)

/-- Computations with the same beginning agree if they go on in agreement. -/
theorem agree_after {E : ε → ε → Prop} (causes : ∀ e, E e e) (x : Except ε α)
    {f : α → Except ε γ} {g : α → Except ε δ} (goesOn : ∀ a, Agree E S (f a) (g a)) :
    Agree E S (x >>= f) (x >>= g) := by
  apply (agree_self causes (fun _ => rfl) x).bind
  rintro a _ rfl
  exact goesOn a

/-- Outcomes of which it only counts whether they are values agree as soon as they are values
together. -/
theorem agree_of_ok_iff (h : (∃ a, x = .ok a) ↔ ∃ b, y = .ok b) :
    Agree (fun _ _ => True) (fun _ _ => True) x y := by
  cases x with
  | ok a =>
      obtain ⟨b, rfl⟩ := h.mp ⟨a, rfl⟩
      exact .ok trivial
  | error e =>
      cases y with
      | ok b =>
          obtain ⟨a, hne⟩ := h.mpr ⟨b, rfl⟩
          cases hne
      | error e' => exact .error trivial

namespace LowerError

/-- Two causes of the same kind. -/
def SameKind (e e' : LowerError) : Prop :=
  e.kind = e'.kind

/-- The same computation agrees with itself. -/
theorem agree_rfl {α : Type} (x : Except LowerError α) : Agree SameKind Eq x x := by
  have sameKind : ∀ e : LowerError, e.SameKind e := fun _ => rfl
  exact agree_self sameKind (fun _ => rfl) x

/-- What agrees with one outcome agrees with each other. -/
theorem agree_of_common {α : Type} {x y z : Except LowerError α} (h : Agree SameKind Eq x z)
    (h' : Agree SameKind Eq y z) : Agree SameKind Eq x y := by
  cases h with
  | ok same =>
      cases h' with
      | ok same' => exact .ok (same.trans same'.symm)
  | error sameKind =>
      cases h' with
      | error sameKind' => exact .error (Eq.trans sameKind (Eq.symm sameKind'))

/-- Outcomes agree if they are the same value, or causes of the same kind. -/
theorem agree_iff {α : Type} {x y : Except LowerError α} :
    Agree SameKind Eq x y ↔
      (∃ a, x = .ok a ∧ y = .ok a) ∨ ∃ e e', x = .error e ∧ y = .error e' ∧ e.kind = e'.kind := by
  constructor
  · intro agree
    cases agree with
    | ok same => exact .inl ⟨_, rfl, congrArg Except.ok same.symm⟩
    | error sameKind => exact .inr ⟨_, _, rfl, rfl, sameKind⟩
  · intro outcomes
    rcases outcomes with ⟨a, rfl, rfl⟩ | ⟨e, e', rfl, rfl, sameKind⟩
    · exact .ok rfl
    · exact .error sameKind

end LowerError

end QasmDiagram
