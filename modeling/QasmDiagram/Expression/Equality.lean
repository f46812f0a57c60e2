/-
Module: QasmDiagram.Expression.Equality
Purpose: Equality of expressions is decidable.
Trusted boundary: none
Main exports: Expression.same, Expression.same_iff
-/
import QasmDiagram.Expression

namespace QasmDiagram

namespace Expression

mutual

/-- Whether two expressions are equal. The left operand comes last, so a long chain of operators
takes no stack. -/
def same : Expression → Expression → Bool
  | .binary lhs op rhs, .binary lhs' op' rhs' => op == op' && (rhs.same rhs' && lhs.same lhs')
  | .literal leaf, .literal leaf' => leaf == leaf'
  | .paren inner, .paren inner' => inner.same inner'
  | .unary op operand, .unary op' operand' => op == op' && operand.same operand'
  | .call name arguments, .call name' arguments' =>
      name == name' && sameAll arguments arguments'
  | _, _ => false

/-- Whether two lists of expressions are equal. -/
def sameAll : List Expression → List Expression → Bool
  | [], [] => true
  | first :: others, first' :: others' => first.same first' && sameAll others others'
  | _, _ => false

end

mutual

/-- `same` decides equality. -/
theorem same_iff (a b : Expression) : a.same b = true ↔ a = b := by
  cases a <;> cases b <;>
    simp [same, same_iff _ _, sameAll_iff _ _, and_comm, and_assoc]

/-- `sameAll` decides equality of lists. -/
theorem sameAll_iff (as bs : List Expression) : sameAll as bs = true ↔ as = bs := by
  cases as <;> cases bs <;> simp [sameAll, same_iff _ _, sameAll_iff _ _]

end

instance : DecidableEq Expression := fun a b => decidable_of_iff _ (same_iff a b)

end Expression

end QasmDiagram
