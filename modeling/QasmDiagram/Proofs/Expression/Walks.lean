/-
Module: QasmDiagram.Proofs.Expression.Walks
Purpose: The two walks over an expression that keep their pending work on a stack, turn by turn: both
  come to an end, the one with the length of the longest branch, the other with the text that the
  recursion on the expression gives.
Trusted boundary: none
Main exports: Survey.turn?, Expression.eval_survey, Writing.turn?, Expression.eval_writing,
  Expression.survey_measures_branches, Expression.writing_ends_with_text
-/
import Mathlib.Computability.StateTransition
import QasmDiagram.Proofs.Expression.Multiplicative

namespace QasmDiagram

open StateTransition (eval Reaches mem_eval reaches_eval)

section Loop

variable {σ : Type} {turn? : σ → Option σ} {s next : σ}

/-- A loop that takes no turn ends as it is. -/
theorem eval_of_none (h : turn? s = none) : eval turn? s = Part.some s :=
  Part.eq_some_iff.mpr (mem_eval.mpr ⟨.refl, h⟩)

/-- A loop ends where it ends after its first turn. -/
theorem eval_of_some (h : turn? s = some next) : eval turn? s = eval turn? next :=
  reaches_eval (.single h)

end Loop

/-! ### Measuring -/

/-- The walk that measures branches: the longest path so far, and the expressions still to visit, each
with the length of the path that led to it. -/
structure Survey where
  deepest : Nat
  pending : List (Expression × Nat)
deriving Repr, Inhabited

/-- Visits the expression on top of the stack and puts its parts there, the last of them on top. -/
def Survey.turn? : Survey → Option Survey
  | ⟨_, []⟩ => none
  | ⟨deepest, (e, depth) :: pending⟩ =>
      some ⟨max deepest depth, e.children.reverse.map (·, depth + 1) ++ pending⟩

/-! ### Writing -/

/-- The walk that writes: the text so far, and the pieces still to write. -/
structure Writing where
  written : String
  pending : List Expression.Piece
deriving Repr, Inhabited

/-- Takes the piece on top of the stack: a text is written, and a node makes room for its pieces, the
first of them on top. -/
def Writing.turn? : Writing → Option Writing
  | ⟨_, []⟩ => none
  | ⟨written, .text s :: pending⟩ => some ⟨written ++ s, pending⟩
  | ⟨written, .node e :: pending⟩ => some ⟨written, e.pieces ++ pending⟩

namespace Expression

/-- From every stack the turns of the walk that measures come to an end, with what is found without
counting turns. -/
theorem eval_survey (deepest : Nat) (pending : List (Expression × Nat)) :
    eval Survey.turn? ⟨deepest, pending⟩ = Part.some ⟨deepestFrom deepest pending, []⟩ := by
  fun_induction deepestFrom deepest pending with
  | case1 deepest => exact eval_of_none rfl
  | case2 deepest e depth pending ih =>
      rw [← ih]
      exact eval_of_some rfl

/-- From every stack the turns of the walk that writes come to an end, with what is written without
counting turns. -/
theorem eval_writing (written : String) (pending : List Piece) :
    eval Writing.turn? ⟨written, pending⟩ = Part.some ⟨writePieces written pending, []⟩ := by
  fun_induction writePieces written pending with
  | case1 written => exact eval_of_none rfl
  | case2 written s pending ih =>
      rw [← ih]
      exact eval_of_some rfl
  | case3 written e pending ih =>
      rw [← ih]
      exact eval_of_some rfl

/-- The text of a walk is that of the recursion. -/
theorem render_eq_text (e : Expression) : e.render = e.text := by
  rw [← String.toList_inj, toList_render, written_lexemes]

/-- The check of the depth refuses the higher expressions, all for the same cause. -/
theorem checkDepth_eq_error_iff {e : Expression} :
    e.checkDepth = .error (.malformedOperand "expression nested deeper than 256 levels") ↔
      expressionDepthLimit < e.height := by
  have message : "expression nested deeper than " ++ toString expressionDepthLimit ++ " levels" =
      "expression nested deeper than 256 levels" := by
    decide
  rw [checkDepth, depth_eq_height, message]
  split
  case isTrue shallow => simpa using shallow
  case isFalse deep => simpa using deep

/-- The walk that measures an expression ends, whatever its shape, and finds its height, the length
of its longest branch. So an expression is refused for its depth exactly if one of its branches has
more than 256 nodes. -/
theorem survey_measures_branches (e : Expression) :
    eval Survey.turn? ⟨0, [(e, 1)]⟩ = Part.some ⟨e.height, []⟩ ∧ e.depth = e.height ∧
      (∃ path, e.Branch path ∧ path.length = e.height) ∧
      (∀ path, e.Branch path → path.length ≤ e.height) ∧
      (e.checkDepth = .error (.malformedOperand "expression nested deeper than 256 levels") ↔
        ∃ path, e.Branch path ∧ 256 < path.length) ∧
      (e.checkDepth = .ok () ↔ ∀ path, e.Branch path → path.length ≤ 256) := by
  have measured : eval Survey.turn? ⟨0, [(e, 1)]⟩ = Part.some ⟨e.height, []⟩ := by
    rw [eval_survey, ← depth, depth_eq_height]
  refine ⟨measured, e.depth_eq_height, e.exists_branch_of_height, ?_, ?_, ?_⟩
  · exact fun path branch => branch.length_le_height
  · rw [checkDepth_eq_error_iff]
    exact lt_height_iff_exists_branch
  · rw [checkDepth_eq_ok_iff, ← Nat.not_lt, lt_height_iff_exists_branch]
    simp [expressionDepthLimit]

/-- A call without arguments ends a branch. -/
theorem survey_measures_branches_emptyCall :
    (paren (call "f" [])).Branch [paren (call "f" []), call "f" []] ∧
      [paren (call "f" []), call "f" []].length ≤ (paren (call "f" [])).height ∧
      eval Survey.turn? ⟨0, [(paren (call "f" []), 1)]⟩ = Part.some ⟨2, []⟩ := by
  have branch : (paren (call "f" [])).Branch [paren (call "f" []), call "f" []] :=
    .down (by simp [children]) (.leaf rfl)
  have two : (paren (call "f" [])).height = 2 := by simp [height, heightAll]
  obtain ⟨measured, _, _, bound, _⟩ := survey_measures_branches (paren (call "f" []))
  exact ⟨branch, bound _ branch, two ▸ measured⟩

/-- The walk that writes an expression ends, whatever its shape, and what it has written is the text
that the recursion on the expression gives. -/
theorem writing_ends_with_text (e : Expression) :
    eval Writing.turn? ⟨"", [.node e]⟩ = Part.some ⟨e.text, []⟩ ∧ e.render = e.text := by
  have ends := eval_writing "" [.node e]
  rw [← render, render_eq_text] at ends
  exact ⟨ends, e.render_eq_text⟩

end Expression

end QasmDiagram
