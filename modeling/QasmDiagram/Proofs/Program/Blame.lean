/-
Module: QasmDiagram.Proofs.Program.Blame
Purpose: Every reader of the language blames what is there. A cause of refusal names the line of the
  lexeme that was not expected, or of the delimiter that is not closed; only where a statement kept
  as text ends inside braces, the line is that of its first lexeme, wherever the braces stand.
Trusted boundary: none
Main exports: Expression.reader_blames, Statement.keptEnd_runsOut, Statement.keptReader_blames,
  Item.reader_blames, Program.ofCursor_blames
-/
import QasmDiagram.Proofs.Blame
import QasmDiagram.Proofs.Program.Elements

namespace QasmDiagram

open Lexeme Cursor
open Reader (Blames)

/-! ### Expressions -/

namespace Expression

variable {item inner signed : Reader Expression} {right : Nat → Reader Expression}

theorem listReader_blames (h : item.Blames) : (listReader item).Blames := by
  intro ts n c within
  unfold listReader
  split
  · exact .ok within
  · exact h.commaSeparated within

theorem primaryReader_blames (h : inner.Blames) : (primaryReader inner).Blames := by
  intro ts n c within
  unfold primaryReader
  split
  · apply h.bind within.next
    intro e d behind
    exact Reader.blames_closed _ _ behind
  · split
    · apply (listReader_blames h).bind within.next.next
      intro items d behind
      exact Reader.blames_closed _ _ behind
    · split
      · exact .ok within.next
      · exact .error (within.refuse _)

theorem operandReader_blames (hsigned : signed.Blames) (hinner : inner.Blames) :
    (operandReader signed inner).Blames := by
  intro ts n c within
  unfold operandReader
  split
  · apply hsigned.bind within.next
    intro e d behind
    exact .ok behind
  · exact primaryReader_blames hinner within

theorem operatorStep_blames (h : ∀ least, (right least).Blames) (least : Nat) (lhs : Expression)
    {ts : List Lexeme} {n : Nat} {c : Cursor} (within : c.Within ts n) :
    Outcome (ParseError.Blames ts n) (fun taken => ∀ read ∈ taken, read.2.Within ts n)
      (operatorStep right least lhs c) := by
  unfold operatorStep
  split
  · exact .ok (by simp)
  · split
    · exact .ok (by simp)
    · apply (h _).bind within.next
      intro rhs d behind
      exact .ok (by simpa using behind)

theorem chainReader_blames (hinner : inner.Blames) (hright : ∀ least, (right least).Blames)
    (least : Nat) : (chainReader inner right least).Blames := by
  intro ts n c within
  apply hinner.bind within
  intro first d behind
  exact Reader.blames_repeatFrom (fun lhs c => operatorStep_blames hright least lhs) first behind

/-- Reading an expression blames what is there, whatever levels are left. -/
theorem readers_blame (levels : Nat) :
    (∀ least, (binaryAt levels least).Blames) ∧ (signedAt levels).Blames := by
  induction levels with
  | zero => exact ⟨fun _ => Reader.blames_tooDeep, Reader.blames_tooDeep⟩
  | succ levels ih =>
      have operand := operandReader_blames ih.2 (ih.1 0)
      exact ⟨fun least => chainReader_blames operand ih.1 least, operand⟩

theorem reader_blames (levels : Nat) : (reader levels).Blames :=
  (readers_blame levels).1 0

end Expression

/-! ### Indices and operands -/

theorem Index.reader_blames (levels : Nat) : (reader levels).Blames := by
  have list := Expression.listReader_blames (Expression.reader_blames levels)
  intro ts n c within
  by_cases opens : c.isAt (.mark .leftBracket) = true
  · unfold reader
    apply (Reader.blames_expect _).bind within
    intro _ d inside
    dsimp only
    split
    · exact .error (within.unclosed opens)
    · apply list.bind inside
      intro items e behind
      dsimp only
      split
      · exact .error (behind.refuse _)
      · exact Reader.blames_closed _ _ behind
    · split
      · exact .error (within.unclosed opens)
      · exact Reader.blames_closed _ _ (inside.skip _)
  · have refused : Reader.expect (.mark .leftBracket) c = .error (c.refuse _) := if_neg opens
    rw [reader, refused]
    exact .error (within.refuse _)

theorem Indexed.reader_blames (levels : Nat) : (reader levels).Blames := by
  rw [reader_eq]
  exact ((Reader.blames_expect _).andThen (Index.reader_blames levels).many).map _

theorem Operand.reader_blames (levels : Nat) : (reader levels).Blames := by
  intro ts n c within
  unfold reader
  split
  · exact .ok within.next
  · split
    · apply (Indexed.reader_blames levels).bind within
      intro target d behind
      exact .ok behind
    · exact .error (within.refuse _)

theorem designatorReader_blames (levels : Nat) : (designatorReader levels).Blames := by
  rw [designatorReader_eq]
  exact (Expression.reader_blames levels).bracketed

/-! ### Gate calls -/

namespace GateCall

theorem modifierEnd_blames (levels : Nat) {ts : List Lexeme} {n : Nat} {c : Cursor}
    (within : c.Within ts n) :
    Outcome (ParseError.Blames ts n) (Within ts n) (modifierEnd levels c) := by
  unfold modifierEnd
  split
  · apply (Expression.reader_blames levels).bind within.next
    intro _ d behind
    apply (Reader.blames_expect _).bind behind
    intro _ d behind
    exact .ok behind
  · exact .ok within

theorem modifierReader_blames (levels : Nat) : (modifierReader levels).Blames := by
  intro ts n c within
  apply (modifierEnd_blames levels within.next).bind
  intro d behind
  exact Reader.blames_closed _ _ behind

theorem reader_blames (levels : Nat) : (reader levels).Blames := by
  have arguments : (argumentsReader levels).Blames := by
    rw [argumentsReader_eq]
    exact (Expression.listReader_blames (Expression.reader_blames levels)).bracketed
  have operands : (operandsReader levels).Blames :=
    (Reader.blames_pure []).branch (Operand.reader_blames levels).commaSeparated
  have named := (Reader.blames_expect .identifier).andThen <| arguments.andThen <|
    (designatorReader_blames levels).andThen <|
      operands.andThen (Reader.blames_expect (.mark .semicolon))
  rw [reader_eq]
  exact ((modifierReader_blames levels).many.andThen named).map _

end GateCall

/-! ### Statements -/

theorem Declaration.reader_blames (levels : Nat) (kind : TerminalKind) :
    (reader levels kind).Blames := by
  have parts := (Reader.blames_expect .identifier).andThen
    ((designatorReader_blames levels).andThen (Reader.blames_expect (.mark .semicolon)))
  rw [reader_eq]
  exact Blames.behind fun keyword => parts.map _

theorem Assignment.reader_blames (levels : Nat) : (reader levels).Blames := by
  have semicolon := Reader.blames_expect (.mark .semicolon)
  have value : (AssignedValue.closedReader levels).Blames := by
    apply Blames.branch
    · exact (Blames.behind fun _ => (Operand.reader_blames levels).andThen semicolon).map _
    · exact ((Expression.reader_blames levels).andThen semicolon).map _
  have operator : operatorReader.Blames := by
    intro ts n c within
    unfold operatorReader
    split
    · exact .error (within.refuse _)
    · exact .ok within.next
  rw [reader_eq]
  exact ((Indexed.reader_blames levels).andThen (operator.andThen value)).map _

namespace Statement

/-- The search for the end of a statement runs out inside braces only behind more braces that open
than braces that close. -/
theorem keptEnd_runsOut {depth taken : Nat} {ts : List Lexeme}
    (h : keptEnd depth taken ts = .runsOut true) :
    countMark .rightBrace ts < depth + countMark .leftBrace ts := by
  induction ts generalizing depth taken with
  | nil =>
      have inside : depth ≠ 0 := by simpa [keptEnd] using h
      simp only [countMark, List.countP_nil]
      omega
  | cons l ts ih =>
      rw [countMark_cons, countMark_cons]
      unfold keptEnd at h
      split at h
      case h_1 opening =>
        have behind := ih h
        simp only [opening, TokenKind.mark.injEq, reduceCtorEq, if_true, if_false]
        omega
      case h_2 closing =>
        simp only [closing, TokenKind.mark.injEq, reduceCtorEq, if_true, if_false]
        split at h
        case isTrue => simp at h
        case isFalse inside =>
          split at h
          case isTrue => simp at h
          case isFalse =>
            have behind := ih h
            omega
      case h_3 semicolon =>
        simp only [semicolon, TokenKind.mark.injEq, reduceCtorEq, if_false]
        split at h
        case isTrue => simp at h
        case isFalse => exact ih h
      case h_4 opening closing _ =>
        rw [if_neg closing, if_neg opening]
        exact ih h

/-- A statement that is kept as text is blamed by its first lexeme, if it does not end. -/
theorem keptReader_blames (rule : KeptRule) {ts : List Lexeme} {n : Nat} {c : Cursor}
    (within : c.Within ts n) {l : Lexeme} {rest : List Lexeme} (head : c.ahead = l :: rest)
    (opens : l.opensKept = true) :
    Outcome (ParseError.Blames ts n) (fun read => read.2.Within ts n) (keptReader rule c) := by
  unfold keptReader
  split
  · exact .ok (within.skip _)
  · exact .error ((within.skip _).refuse _)
  case h_3 inside =>
    have line : c.line = l.line := by
      rw [Cursor.line, Cursor.head?, head]
      rfl
    have behind := keptEnd_runsOut inside
    rw [head, countMark_cons, countMark_cons] at behind
    have noBrace : ∀ m, l.kind ≠ .mark m := by
      intro m hm
      simp [opensKept, hm] at opens
    rw [if_neg (noBrace _), if_neg (noBrace _)] at behind
    rw [line]
    exact .error (.keptOpen (head ▸ within.ahead) opens (by omega))
  · exact .error .unexpectedEnd

theorem inclusionReader_blames : inclusionReader.Blames := by
  rw [inclusionReader_eq]
  exact (Blames.behind fun _ => (Reader.blames_expect .string).andThen
    (Reader.blames_expect (.mark .semicolon))).map _

theorem declarationReader_blames (levels : Nat) (kind : TerminalKind) :
    (declarationReader levels kind).Blames := by
  rw [declarationReader_eq]
  exact (Declaration.reader_blames levels kind).map _

theorem gateCallReader_blames (levels : Nat) : (gateCallReader levels).Blames := by
  rw [gateCallReader_eq]
  exact (GateCall.reader_blames levels).map _

/-- A named statement starts with a lexeme that opens a kept one, or is taken apart. -/
theorem namedReader_blames (levels : Nat) {ts : List Lexeme} {n : Nat} {c : Cursor}
    (within : c.Within ts n) (named : c.kind? = some .identifier) :
    Outcome (ParseError.Blames ts n) (fun read => read.2.Within ts n) (namedReader levels c) := by
  unfold namedReader
  split
  case h_1 rule word =>
    obtain ⟨l, rest, ahead, identifier, text⟩ := exists_ahead_of_kind? named
    rw [text] at word
    exact keptReader_blames rule within ahead (by simp [opensKept, identifier, word])
  case h_2 =>
    split
    · apply (Assignment.reader_blames levels).bind within
      intro a d behind
      exact .ok behind
    · exact gateCallReader_blames levels within

theorem reader_blames (levels : Nat) : (reader levels).Blames := by
  intro ts n c within
  unfold reader
  split
  case h_1 => exact inclusionReader_blames within
  case h_2 => exact declarationReader_blames levels .qreg within
  case h_3 => exact declarationReader_blames levels .creg within
  case h_4 measures =>
    obtain ⟨l, rest, ahead, keyword, _⟩ := exists_ahead_of_kind? measures
    exact keptReader_blames _ within ahead (by simp [opensKept, keyword])
  case h_9 named => exact namedReader_blames levels within named
  case h_10 => exact .error (within.refuse _)
  -- the four words that open a modifier
  all_goals exact gateCallReader_blames levels within

end Statement

/-! ### Items, elements, programs -/

namespace Item

theorem readerWith_blames {statement : Reader Statement} {inner : Reader Item}
    (hstatement : statement.Blames) (hinner : inner.Blames) :
    (readerWith statement inner).Blames := by
  intro ts n c within
  unfold readerWith
  rw [scopeStep_eq]
  split
  case isTrue opens =>
    apply (hinner.repeatFrom_manyStep [] within.next).bind
    rintro ⟨items, d⟩ behind
    dsimp only at behind ⊢
    split
    · exact .ok behind.next
    · exact .error (within.unclosed opens)
  case isFalse =>
    apply hstatement.bind within
    intro s d behind
    exact .ok behind

theorem reader_blames (levels : Nat) : (reader levels).Blames := by
  induction levels with
  | zero => exact readerWith_blames (Statement.reader_blames 0) Reader.blames_tooDeep
  | succ levels ih => exact readerWith_blames (Statement.reader_blames (levels + 1)) ih

end Item

namespace Element

theorem versionReader_blames : versionReader.Blames := by
  intro ts n c within
  have next := within.next
  unfold versionReader
  dsimp only
  split
  · exact Reader.blames_closed _ _ next.next
  · exact .error (next.refuse _)

theorem reader_blames (levels : Nat) : (reader levels).Blames := by
  rw [reader_eq]
  exact versionReader_blames.branch ((Item.reader_blames levels).map _)

end Element

/-- A sequence of lexemes that is no program is refused for a cause that blames one of them. -/
theorem Program.ofCursor_blames (ts : List Lexeme) (n : Nat) {e : ParseError}
    (h : ofCursor (facing ts n) = .error e) : e.Blames ts n := by
  have within : (facing ts n).Within ts n := ⟨List.suffix_refl ts, rfl⟩
  have outcome : Outcome (ParseError.Blames ts n) (fun _ => True) (ofCursor (facing ts n)) := by
    unfold ofCursor
    rw [elementStep_eq]
    apply ((Element.reader_blames nestingLimit).repeatFrom_manyStep [] within).bind
    intro read _
    exact .ok trivial
  exact (h ▸ outcome).told_of_error

end QasmDiagram
