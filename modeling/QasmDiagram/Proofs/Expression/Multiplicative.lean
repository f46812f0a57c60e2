/-
Module: QasmDiagram.Proofs.Expression.Multiplicative
Purpose: The expressions that have a value and the expressions that have symbols are the same: those
  made of numbers and pi by multiplication and division. Both are asked for only up to a depth, which
  is the height of the tree.
Trusted boundary: none
Main exports: Expression.checkDepth_eq_ok_iff, Expression.Multiplicative,
  Expression.exists_value_iff, Expression.exists_symbols_iff
-/
import QasmDiagram.Proofs.Binary64.Literal
import QasmDiagram.Proofs.Expression.Canonical
import QasmDiagram.Proofs.Expression.Height
import QasmDiagram.Proofs.Reading

namespace QasmDiagram

namespace Expression

/-! ### Depth -/

theorem checkDepth_eq_ok_iff {e : Expression} :
    e.checkDepth = .ok () ↔ e.height ≤ expressionDepthLimit := by
  rw [checkDepth, depth_eq_height]
  split <;> simp_all

/-! ### Numbers and pi, multiplied and divided -/

/-- The expressions made of numbers and pi by multiplication and division. -/
inductive Multiplicative : Expression → Prop where
  | number {leaf : Terminal} : leaf.kind = .decimalInteger ∨ leaf.kind = .float →
      Multiplicative (.literal leaf)
  | pi : Multiplicative (.literal ⟨.identifier, "pi"⟩)
  | binary {lhs rhs : Expression} {op : Terminal} : op.kind = .asterisk ∨ op.kind = .slash →
      Multiplicative lhs → Multiplicative rhs → Multiplicative (.binary lhs op rhs)

theorem operatorSign_eq_ok_iff {op : Terminal} :
    (∃ sign, operatorSign op = .ok sign) ↔ op.kind = .asterisk ∨ op.kind = .slash := by
  unfold operatorSign
  split <;> simp_all

/-- The expressions that have symbols are multiplicative. -/
theorem exists_symbols_iff (e : Expression) : (∃ text, e.symbols = .ok text) ↔ e.Multiplicative := by
  cases e with
  | binary lhs op rhs =>
      have left := exists_symbols_iff lhs
      have right := exists_symbols_iff rhs
      constructor
      · rintro ⟨text, h⟩
        rw [symbols] at h
        rcases Except.bind_eq_ok_iff.mp h with ⟨sign, hsign, h⟩
        rcases Except.bind_eq_ok_iff.mp h with ⟨a, ha, h⟩
        rcases Except.bind_eq_ok_iff.mp h with ⟨b, hb, _⟩
        exact .binary (operatorSign_eq_ok_iff.mp ⟨sign, hsign⟩) (left.mp ⟨a, ha⟩) (right.mp ⟨b, hb⟩)
      · intro h
        cases h with
        | binary hop hlhs hrhs =>
            obtain ⟨sign, hsign⟩ := operatorSign_eq_ok_iff.mpr hop
            obtain ⟨a, ha⟩ := left.mpr hlhs
            obtain ⟨b, hb⟩ := right.mpr hrhs
            exact ⟨a ++ sign ++ b, by rw [symbols, hsign, ha, hb]; rfl⟩
  | literal leaf =>
      obtain ⟨kind, text⟩ := leaf
      constructor
      · rintro ⟨shown, h⟩
        cases kind with
        | decimalInteger => exact .number (.inl rfl)
        | float => exact .number (.inr rfl)
        | identifier =>
            by_cases isPi : text = "pi"
            · subst isPi
              exact .pi
            · simp [symbols, isPi] at h
        | _ => simp [symbols] at h
      · intro h
        cases h with
        | number number =>
            rcases number with hkind | hkind
            all_goals exact ⟨text, by simp [symbols, show kind = _ from hkind]⟩
        | pi => exact ⟨"π", rfl⟩
  | paren inner => exact iff_of_false (by simp [symbols]) nofun
  | unary op operand => exact iff_of_false (by simp [symbols]) nofun
  | call name arguments => exact iff_of_false (by simp [symbols]) nofun

/-- The canonical expressions that have a value are multiplicative: what is a number to the lexical
grammar has a value. -/
theorem exists_value_iff {e : Expression} (h : e.Canonical) :
    (∃ value, e.value = .ok value) ↔ e.Multiplicative := by
  cases e with
  | binary lhs op rhs =>
      rw [Canonical] at h
      have left := exists_value_iff h.2.2.1
      have right := exists_value_iff h.2.2.2.1
      constructor
      · rintro ⟨value, h⟩
        rw [Expression.value] at h
        rcases Except.bind_eq_ok_iff.mp h with ⟨a, ha, h⟩
        rcases Except.bind_eq_ok_iff.mp h with ⟨b, hb, h⟩
        refine .binary ?_ (left.mp ⟨a, ha⟩) (right.mp ⟨b, hb⟩)
        split at h
        · exact .inl ‹_›
        · exact .inr ‹_›
        · cases h
      · intro h
        cases h with
        | binary hop hlhs hrhs =>
            obtain ⟨a, ha⟩ := left.mpr hlhs
            obtain ⟨b, hb⟩ := right.mpr hrhs
            rcases hop with hop | hop
            all_goals
              simp only [Expression.value, ha, hb, hop, Except.ok_bind]
              exact ⟨_, rfl⟩
  | literal leaf =>
      rw [Canonical] at h
      obtain ⟨kind, text⟩ := leaf
      constructor
      · rintro ⟨value, h⟩
        cases kind with
        | decimalInteger => exact .number (.inl rfl)
        | float => exact .number (.inr rfl)
        | identifier =>
            by_cases isPi : text = "pi"
            · subst isPi
              exact .pi
            · simp [Expression.value, isPi] at h
        | _ => simp [Expression.value] at h
      · intro number
        cases number with
        | number number =>
            rcases number with hkind | hkind
            · cases hkind
              obtain ⟨s, e, value⟩ := exists_literalValue h.1 (.inr rfl)
              exact ⟨_, value⟩
            · cases hkind
              obtain ⟨s, e, value⟩ := exists_literalValue h.1 (.inl rfl)
              exact ⟨_, value⟩
        | pi => exact ⟨.pi, rfl⟩
  | paren inner => exact iff_of_false (by simp [Expression.value]) nofun
  | unary op operand => exact iff_of_false (by simp [Expression.value]) nofun
  | call name arguments => exact iff_of_false (by simp [Expression.value]) nofun

end Expression

end QasmDiagram
