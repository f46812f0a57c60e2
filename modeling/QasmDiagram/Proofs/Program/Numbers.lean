/-
Module: QasmDiagram.Proofs.Program.Numbers
Purpose: Lexer and evaluator agree on numbers: each text that is found as a decimal integer or a
  floating-point literal has a value, so the evaluation of a program that is read never fails for a
  number.
Trusted boundary: none
Main exports: Binary64.Nonnegative, TerminalKind.isNumber, Stretch.exists_literalValue_of_mem,
  Expression.value_malformed, Program.numbers_have_values
-/
import QasmDiagram.Proofs.Expression.Walks
import QasmDiagram.Proofs.MaximalMunch
import QasmDiagram.Proofs.Program.Nesting

namespace QasmDiagram

open Rule

/-! ### Values that are numbers and not negative -/

namespace Binary64

/-- Neither not-a-number nor negative, not even as zero. -/
def Nonnegative : Binary64 → Prop
  | .nan => False
  | .infinite negative => negative = false
  | .finite negative _ => negative = false

theorem nonnegative_ofRank (rank : Nat) : (ofRank false rank).Nonnegative := by
  rw [ofRank]
  split <;> rfl

theorem nonnegative_ofRatio (num den : Nat) : (ofRatio false num den).Nonnegative := by
  rw [ofRatio]
  split
  case isTrue => rfl
  case isFalse => exact nonnegative_ofRank _

/-- The number nearest to a decimal fraction without a sign is not negative: too large a fraction is
infinite. -/
theorem nonnegative_ofDecimal (significand : Nat) (exponent : Int) :
    (ofDecimal false significand exponent).Nonnegative := by
  have ratios := nonnegative_ofRatio
  unfold ofDecimal
  dsimp only
  split
  case isTrue => rfl
  case isFalse =>
    split
    case isTrue => rfl
    case isFalse =>
      split
      case isTrue => rfl
      case isFalse =>
        split
        case isTrue => exact ratios _ _
        case isFalse => exact ratios _ _

end Binary64

/-- The leaves whose text is read as a number. -/
def TerminalKind.isNumber : TerminalKind → Bool
  | .decimalInteger | .float => true
  | _ => false

/-- A number among the stretches of a source has a value, also behind an invalid stretch. -/
theorem Stretch.exists_literalValue_of_mem {source : List Char} {s : Stretch}
    (hs : s ∈ results source)
    (number : s.shape = .token .float ∨ s.shape = .token (.integer .decimal)) :
    ∃ v, literalValue (String.ofList s.text) = .ok v ∧ v.Nonnegative := by
  have judged := ((results_munch source).inPlace s hs).judged
  have munched : ∃ rule ∈ lexical, rule.shape = s.shape ∧ rule.pattern.Matches s.text := by
    rcases number with shape | shape
    all_goals
      rw [shape] at judged ⊢
      cases judged with
      | token munched => exact munched.matched
  obtain ⟨rule, hrule, shape, matched⟩ := munched
  obtain ⟨significand, exponent, value⟩ := exists_literalValue_of_matches (mem_lexical_iff.mp hrule).1
    (shape ▸ number) (by rwa [String.toList_ofList])
  exact ⟨_, value, Binary64.nonnegative_ofDecimal significand exponent⟩

namespace Expression

/-- A number that stands alone as a canonical expression has a value. -/
theorem Canonical.exists_literalValue {leaf : Terminal} (h : (Expression.literal leaf).Canonical)
    (number : leaf.kind.isNumber = true) :
    ∃ v, literalValue leaf.text = .ok v ∧ v.Nonnegative := by
  obtain ⟨kind, text⟩ := leaf
  rw [Canonical] at h
  have numeral : kind.tokenKind = .float ∨ kind.tokenKind = .integer .decimal := by
    cases kind with
    | float => exact .inl rfl
    | decimalInteger => exact .inr rfl
    | _ => cases number
  obtain ⟨significand, exponent, value⟩ := QasmDiagram.exists_literalValue h.1 numeral
  exact ⟨_, value, Binary64.nonnegative_ofDecimal significand exponent⟩

/-- The expression is no number as it stands. -/
def NoNumber : Expression → Prop
  | .literal leaf => leaf.kind.isNumber = false
  | _ => True

/-- What cannot be evaluated for its form is a part of the expression, with its text, and no number. -/
theorem value_malformed {e : Expression} (h : e.Canonical) {text : String}
    (malformed : e.value = .error (.malformedOperand text)) :
    ∃ part ∈ e.parts, text = part.render ∧ part.NoNumber := by
  cases e with
  | binary lhs op rhs =>
      rw [Canonical] at h
      rw [value] at malformed
      cases left : lhs.value with
      | error cause =>
          rw [left] at malformed
          obtain rfl : cause = .malformedOperand text := by simpa using malformed
          obtain ⟨part, inside, found⟩ := value_malformed h.2.2.1 left
          exact ⟨part, by simp [parts, inside], found⟩
      | ok a =>
          cases right : rhs.value with
          | error cause =>
              rw [left, right] at malformed
              obtain rfl : cause = .malformedOperand text := by simpa using malformed
              obtain ⟨part, inside, found⟩ := value_malformed h.2.2.2.1 right
              exact ⟨part, by simp [parts, inside], found⟩
          | ok b =>
              rw [left, right] at malformed
              simp only [Except.ok_bind] at malformed
              split at malformed <;> cases malformed
  | literal leaf =>
      refine ⟨.literal leaf, by simp [parts], ?_⟩
      cases number : leaf.kind.isNumber with
      | true =>
          obtain ⟨v, read, _⟩ := Canonical.exists_literalValue h number
          obtain ⟨kind, leafText⟩ := leaf
          cases kind with
          | decimalInteger => simp [value, read] at malformed
          | float => simp [value, read] at malformed
          | _ => cases number
      | false =>
          have named : leaf.text = text := by
            rw [value] at malformed
            split at malformed
            case h_1 decimal => simp [decimal, TerminalKind.isNumber] at number
            case h_2 float => simp [float, TerminalKind.isNumber] at number
            case h_3 => split at malformed <;> cases malformed
            case h_4 => simpa using malformed
          rw [render_eq_text, Expression.text, named]
          exact ⟨rfl, number⟩
  | paren inner =>
      exact ⟨.paren inner, by simp [parts], by simpa [value, eq_comm] using malformed, trivial⟩
  | unary op operand =>
      exact ⟨.unary op operand, by simp [parts], by simpa [value, eq_comm] using malformed, trivial⟩
  | call name arguments =>
      exact ⟨.call name arguments, by simp [parts], by simpa [value, eq_comm] using malformed, trivial⟩

/-- An expression of a form that is not evaluated is too high, or a part of it is no number. -/
theorem evaluate_malformed {e : Expression} (h : e.Canonical) {text : String}
    (malformed : e.evaluate = .error (.malformedOperand text)) :
    expressionDepthLimit < e.height ∨ ∃ part ∈ e.parts, text = part.render ∧ part.NoNumber := by
  by_cases deep : expressionDepthLimit < e.height
  · exact .inl deep
  · have shallow : e.checkDepth = .ok () := checkDepth_eq_ok_iff.mpr (Nat.le_of_not_lt deep)
    rw [evaluate, shallow] at malformed
    exact .inr (value_malformed h malformed)

end Expression

namespace Program

/-- Lexer and evaluator agree on numbers. Whatever the source, every decimal integer and every
floating-point literal found in it has a value that is a number and not negative. So has every number
that a program read from it holds, and what fails to be evaluated there for its form is too high or has
a part that is no number. -/
theorem numbers_have_values (source : String) :
    (∀ s ∈ Stretch.results source.toList,
      s.shape = .token .float ∨ s.shape = .token (.integer .decimal) →
        ∃ v, literalValue (String.ofList s.text) = .ok v ∧ v.Nonnegative) ∧
    ∀ p, ofText source = .ok p → ∀ scopes e, (scopes, e) ∈ p.expressions →
      (∀ leaf, e = .literal leaf → leaf.kind.isNumber = true →
        ∃ v, literalValue leaf.text = .ok v ∧ v.Nonnegative) ∧
      ∀ text, e.evaluate = .error (.malformedOperand text) →
        256 < e.height ∨ ∃ part ∈ e.parts, text = part.render ∧ part.NoNumber := by
  refine ⟨fun s hs => Stretch.exists_literalValue_of_mem hs, fun p read scopes e held => ?_⟩
  have canonical := (canonical_of_ofText read held).1
  refine ⟨?_, fun text => Expression.evaluate_malformed canonical⟩
  rintro leaf rfl
  exact canonical.exists_literalValue

/-- Underscores may stand behind a point, before an exponent and at the end. -/
theorem numbers_have_values_underscores :
    (∃ s ∈ Stretch.results "rz(1_._/.5_e+1) q;".toList, s.text = ".5_e+1".toList ∧
      ∃ v, literalValue (String.ofList s.text) = .ok v ∧ v.Nonnegative) ∧
    ∃ p, ofText "rz(1_._/.5_e+1) q;" = .ok p ∧ (0, .literal ⟨.float, "1_._"⟩) ∈ p.expressions ∧
      ∃ v, literalValue "1_._" = .ok v ∧ v.Nonnegative := by
  have found : ⟨8, ".5_e+1".toList, .token .float⟩ ∈
      Stretch.results "rz(1_._/.5_e+1) q;".toList := by
    decide +kernel
  have read : ofText "rz(1_._/.5_e+1) q;" = .ok ⟨[.item (.statement (.gateCall
      (.rotationBy (.binary (.literal ⟨.float, "1_._"⟩) ⟨.slash, "/"⟩
        (.literal ⟨.float, ".5_e+1"⟩))))), .endOfInput]⟩ := by
    decide +kernel
  have held : (0, .literal ⟨.float, "1_._"⟩) ∈ expressions ⟨[.item (.statement (.gateCall
      (.rotationBy (.binary (.literal ⟨.float, "1_._"⟩) ⟨.slash, "/"⟩
        (.literal ⟨.float, ".5_e+1"⟩))))), .endOfInput]⟩ := by
    decide
  have values := numbers_have_values "rz(1_._/.5_e+1) q;"
  exact ⟨⟨_, found, rfl, values.1 _ found (.inl rfl)⟩, _, read, held,
    (values.2 _ read 0 _ held).1 _ rfl rfl⟩

end Program

end QasmDiagram
