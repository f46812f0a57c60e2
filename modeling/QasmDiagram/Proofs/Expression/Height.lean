/-
Module: QasmDiagram.Proofs.Expression.Height
Purpose: The height of an expression is the length of its longest branch, from the root to a leaf,
  and the walk over pending expressions finds it.
Trusted boundary: none
Main exports: Expression.Branch, Expression.Branch.length_le_height,
  Expression.exists_branch_of_height, Expression.deepestFrom_eq, Expression.depth_eq_height
-/
import Mathlib.Tactic.Common
import QasmDiagram.Expression

namespace QasmDiagram

namespace Expression

/-! ### Heights of several expressions -/

theorem height_eq (e : Expression) : e.height = heightAll e.children + 1 := by
  cases e with
  | binary lhs op rhs => simp [height, heightAll, children]
  | literal leaf => simp [height, heightAll, children]
  | paren inner => simp [height, heightAll, children]
  | unary op operand => simp [height, heightAll, children]
  | call name arguments => simp [height, children]

theorem heightAll_append (left right : List Expression) :
    heightAll (left ++ right) = max (heightAll left) (heightAll right) := by
  induction left with
  | nil => simp [heightAll]
  | cons first others ih => simp [heightAll, ih, Nat.max_assoc]

/-- The order of expressions does not matter to the greatest height among them. -/
theorem heightAll_reverse (items : List Expression) : heightAll items.reverse = heightAll items := by
  induction items with
  | nil => rfl
  | cons first others ih => simp [heightAll, heightAll_append, ih, Nat.max_comm]

theorem height_le_heightAll {part : Expression} {items : List Expression} (h : part ∈ items) :
    part.height ≤ heightAll items := by
  induction items with
  | nil => simp at h
  | cons first others ih =>
      rw [heightAll]
      rcases List.mem_cons.mp h with rfl | later
      · exact Nat.le_max_left _ _
      · exact Nat.le_trans (ih later) (Nat.le_max_right _ _)

/-- One of several expressions is the highest. -/
theorem exists_height_eq_heightAll {items : List Expression} (h : items ≠ []) :
    ∃ part ∈ items, part.height = heightAll items := by
  induction items with
  | nil => exact absurd rfl h
  | cons first others ih =>
      rw [heightAll]
      rcases Nat.le_total (heightAll others) first.height with here | later
      · exact ⟨first, by simp, (Nat.max_eq_left here).symm⟩
      · have positive : 0 < first.height := by
          rw [height_eq]
          omega
        have nonempty : others ≠ [] := by
          rintro rfl
          rw [heightAll] at later
          omega
        obtain ⟨part, hpart, highest⟩ := ih nonempty
        exact ⟨part, List.mem_cons_of_mem first hpart, highest.trans (Nat.max_eq_right later).symm⟩

/-! ### Branches -/

/-- The nodes of an expression on a path from its root to one of its leaves. What has no parts is a
leaf. -/
inductive Branch : Expression → List Expression → Prop where
  | leaf {e} : e.children = [] → Branch e [e]
  | down {e part path} : part ∈ e.children → Branch part path → Branch e (e :: path)

theorem Branch.length_le_height {e : Expression} {path : List Expression} (h : e.Branch path) :
    path.length ≤ e.height := by
  induction h with
  | leaf _ =>
      rw [height_eq, List.length_singleton]
      omega
  | down hpart _ ih =>
      rw [height_eq, List.length_cons]
      exact Nat.succ_le_succ (Nat.le_trans ih (height_le_heightAll hpart))

/-- Some branch is as long as the expression is high: it goes down to the highest part each time. -/
theorem exists_branch_of_height (e : Expression) : ∃ path, e.Branch path ∧ path.length = e.height := by
  induction hn : e.height using Nat.strongRecOn generalizing e with
  | ind n ih =>
      subst hn
      by_cases isLeaf : e.children = []
      · exact ⟨[e], .leaf isLeaf, by simp [height_eq, isLeaf, heightAll]⟩
      · obtain ⟨part, hpart, highest⟩ := exists_height_eq_heightAll isLeaf
        have lower : part.height + 1 = e.height := by rw [height_eq e, highest]
        obtain ⟨path, branch, length⟩ := ih part.height (by omega) part rfl
        exact ⟨e :: path, .down hpart branch, by rw [List.length_cons, length, lower]⟩

/-- An expression is higher than a bound exactly if one of its branches is longer. -/
theorem lt_height_iff_exists_branch {e : Expression} {bound : Nat} :
    bound < e.height ↔ ∃ path, e.Branch path ∧ bound < path.length := by
  constructor
  · intro h
    obtain ⟨path, branch, length⟩ := e.exists_branch_of_height
    exact ⟨path, branch, length ▸ h⟩
  · rintro ⟨path, branch, longer⟩
    exact Nat.lt_of_lt_of_le longer branch.length_le_height

/-! ### The walk -/

/-- The length of the longest path that goes on from pending expressions. -/
def reach : List (Expression × Nat) → Nat
  | [] => 0
  | (e, depth) :: pending => max (depth + heightAll e.children) (reach pending)

/-- Expressions one step further on reach as far as the highest of them. -/
theorem reach_append (items : List Expression) (depth : Nat) (pending : List (Expression × Nat)) :
    max depth (reach (items.map (·, depth + 1) ++ pending)) =
      max (depth + heightAll items) (reach pending) := by
  induction items with
  | nil => simp [heightAll]
  | cons e items ih =>
      have := e.height_eq
      simp only [List.map_cons, List.cons_append, reach, heightAll]
      omega

/-- The walk over pending expressions finds the longest path. -/
theorem deepestFrom_eq (deepest : Nat) (pending : List (Expression × Nat)) :
    deepestFrom deepest pending = max deepest (reach pending) := by
  fun_induction deepestFrom deepest pending with
  | case1 deepest => simp [reach]
  | case2 deepest e depth pending ih =>
      have step := reach_append e.children.reverse depth pending
      rw [heightAll_reverse] at step
      rw [ih, reach]
      omega

/-- The walk without recursion on the expression finds the height. -/
theorem depth_eq_height (e : Expression) : e.depth = e.height := by
  rw [depth, deepestFrom_eq, height_eq]
  simp [reach, Nat.add_comm]

end Expression

end QasmDiagram
