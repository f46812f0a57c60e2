/-
Module: QasmDiagram.Proofs.Expression.Canonical
Purpose: The expressions that the precedence grammar writes, how deep each of them nests, and the
  lexemes that print it: its own tokens with a blank behind each comma and nothing elsewhere.
Trusted boundary: none
Main exports: TerminalKind.operatorLevel, Expression.Canonical, Expression.nesting,
  Expression.lexemes, Expression.written_lexemes, Expression.spelled_lexemes
-/
import QasmDiagram.Program
import QasmDiagram.Proofs.Spelling

namespace QasmDiagram

/-- The class of the token that a terminal stands for. -/
def TerminalKind.tokenKind : TerminalKind → TokenKind
  | .qreg => .keyword .qreg
  | .creg => .keyword .creg
  | .decimalInteger => .integer .decimal
  | .binaryInteger => .integer .binary
  | .octalInteger => .integer .octal
  | .hexInteger => .integer .hexadecimal
  | .float => .float
  | .imaginary => .imaginary
  | .boolean => .boolean
  | .identifier => .identifier
  | .plus => .mark .plus
  | .minus => .mark .minus
  | .asterisk => .mark .star
  | .slash => .mark .slash
  | .percent => .mark .percent
  | .doubleAsterisk => .mark .power
  | .tilde => .mark .tilde
  | .exclamationPoint => .mark .bang
  | .equals => .mark .equals
  | .compoundAssignment => .compoundAssignment

namespace TerminalKind

/-- Whether a terminal is a literal or a name. -/
def isLeaf : TerminalKind → Bool
  | .decimalInteger | .binaryInteger | .octalInteger | .hexInteger | .float | .imaginary
  | .boolean | .identifier => true
  | _ => false

/-- Whether a terminal is a sign. -/
def isSign : TerminalKind → Bool
  | .minus | .tilde | .exclamationPoint => true
  | _ => false

/-- The level of a binary operator: sums, products, powers. What is none has level zero. -/
def operatorLevel : TerminalKind → Nat
  | .plus | .minus => 1
  | .asterisk | .slash | .percent => 2
  | .doubleAsterisk => 3
  | _ => 0

end TerminalKind

namespace Terminal

/-- The lexeme that writes a terminal. -/
def lexeme (t : Terminal) : Lexeme :=
  ⟨t.kind.tokenKind, t.text, "", 0⟩

/-- The text of a terminal is a token of its class. -/
def IsLexeme (t : Terminal) : Prop :=
  Rule.shapeOf? Rule.table t.text.toList = some (.token t.kind.tokenKind)

instance (t : Terminal) : Decidable t.IsLexeme :=
  inferInstanceAs (Decidable (_ = _))

end Terminal

namespace Expression

/-- The operator at the root of an expression. -/
def rootOperator? : Expression → Option TerminalKind
  | .binary _ op _ => some op.kind
  | _ => none

/-- Whether an expression may stand to the left of an operator: sums and products associate to the
left, and a power has no operator to its left. -/
def FitsLeft (op : TerminalKind) (lhs : Expression) : Prop :=
  ∀ o ∈ lhs.rootOperator?, op ≠ .doubleAsterisk ∧ op.operatorLevel ≤ o.operatorLevel

/-- Whether an expression may stand to the right of an operator: only what binds tighter, or
another power to the right of a power. -/
def FitsRight (op : TerminalKind) (rhs : Expression) : Prop :=
  ∀ o ∈ rhs.rootOperator?,
    if op = .doubleAsterisk then o = .doubleAsterisk else op.operatorLevel < o.operatorLevel

mutual

/-- The expressions that the precedence grammar writes without further parentheses. -/
def Canonical : Expression → Prop
  | .binary lhs op rhs =>
      op.IsLexeme ∧ 0 < op.kind.operatorLevel ∧ lhs.Canonical ∧ rhs.Canonical ∧
        FitsLeft op.kind lhs ∧ FitsRight op.kind rhs
  | .literal leaf => leaf.IsLexeme ∧ leaf.kind.isLeaf = true
  | .paren inner => inner.Canonical
  | .unary op operand =>
      op.IsLexeme ∧ op.kind.isSign = true ∧ operand.rootOperator? = none ∧ operand.Canonical
  | .call name arguments =>
      Rule.shapeOf? Rule.table name.toList = some (.token .identifier) ∧ CanonicalAll arguments

/-- Every expression of a list is canonical. -/
def CanonicalAll : List Expression → Prop
  | [] => True
  | first :: others => first.Canonical ∧ CanonicalAll others

end

instance (op : TerminalKind) (lhs : Expression) : Decidable (FitsLeft op lhs) :=
  inferInstanceAs (Decidable (∀ o ∈ lhs.rootOperator?, _))

instance (op : TerminalKind) (rhs : Expression) : Decidable (FitsRight op rhs) :=
  inferInstanceAs (Decidable (∀ o ∈ rhs.rootOperator?, _))

mutual

/-- Decides whether an expression is canonical. -/
def decidableCanonical : (e : Expression) → Decidable e.Canonical
  | .binary lhs op rhs =>
      let _ := decidableCanonical lhs
      let _ := decidableCanonical rhs
      inferInstanceAs (Decidable (op.IsLexeme ∧ 0 < op.kind.operatorLevel ∧ lhs.Canonical ∧
        rhs.Canonical ∧ FitsLeft op.kind lhs ∧ FitsRight op.kind rhs))
  | .literal leaf => inferInstanceAs (Decidable (leaf.IsLexeme ∧ leaf.kind.isLeaf = true))
  | .paren inner => decidableCanonical inner
  | .unary op operand =>
      let _ := decidableCanonical operand
      inferInstanceAs (Decidable (op.IsLexeme ∧ op.kind.isSign = true ∧
        operand.rootOperator? = none ∧ operand.Canonical))
  | .call name arguments =>
      let _ := decidableCanonicalAll arguments
      inferInstanceAs (Decidable (Rule.shapeOf? Rule.table name.toList =
        some (.token .identifier) ∧ CanonicalAll arguments))

/-- Decides whether every expression of a list is canonical. -/
def decidableCanonicalAll : (items : List Expression) → Decidable (CanonicalAll items)
  | [] => .isTrue trivial
  | first :: others =>
      let _ := decidableCanonical first
      let _ := decidableCanonicalAll others
      inferInstanceAs (Decidable (first.Canonical ∧ CanonicalAll others))

end

instance : DecidablePred Canonical := decidableCanonical

mutual

/-- How many levels an expression takes below the level it stands on: a chain to the left takes
none. -/
def nestingBelow : Expression → Nat
  | .binary lhs _ rhs => max lhs.nestingBelow (1 + rhs.nestingBelow)
  | .literal _ => 0
  | .paren inner => 1 + inner.nestingBelow
  | .unary _ operand => 1 + operand.nestingBelow
  | .call _ arguments => nestingAll arguments

/-- The greatest number of levels that an expression of a list takes, zero if there is none. -/
def nestingAll : List Expression → Nat
  | [] => 0
  | first :: others => max (1 + first.nestingBelow) (nestingAll others)

end

/-- How many levels an expression takes. -/
def nesting (e : Expression) : Nat :=
  1 + e.nestingBelow

mutual

/-- The lexemes that print an expression. -/
def lexemes : Expression → List Lexeme
  | .binary lhs op rhs => lhs.lexemes ++ op.lexeme :: rhs.lexemes
  | .literal leaf => [leaf.lexeme]
  | .paren inner => .ofMark .leftParen :: (inner.lexemes ++ [.ofMark .rightParen])
  | .unary op operand => op.lexeme :: operand.lexemes
  | .call name arguments =>
      ⟨.identifier, name, "", 0⟩ :: .ofMark .leftParen
        :: (lexemesAll arguments ++ [.ofMark .rightParen])

/-- The lexemes that print an expression list. -/
def lexemesAll : List Expression → List Lexeme
  | [] => []
  | [only] => only.lexemes
  | first :: others => first.lexemes ++ .ofMark .comma :: Lexeme.relead " " (lexemesAll others)

end

open Lexeme Rule

/-! ### What the lexemes write -/

/-- An expression starts with a lexeme that has no layout before it. -/
theorem exists_lexemes_cons (e : Expression) :
    ∃ l ls, e.lexemes = l :: ls ∧ l.lead = "" := by
  cases e with
  | binary lhs op rhs =>
      obtain ⟨l, ls, h, hlead⟩ := exists_lexemes_cons lhs
      exact ⟨l, ls ++ op.lexeme :: rhs.lexemes, by rw [lexemes, h]; rfl, hlead⟩
  | literal leaf => exact ⟨_, _, by rw [lexemes], rfl⟩
  | paren inner => exact ⟨_, _, by rw [lexemes], rfl⟩
  | unary op operand => exact ⟨_, _, by rw [lexemes], rfl⟩
  | call name arguments => exact ⟨_, _, by rw [lexemes], rfl⟩

theorem lexemes_ne_nil (e : Expression) : e.lexemes ≠ [] := by
  obtain ⟨l, ls, h, _⟩ := e.exists_lexemes_cons
  simp [h]

@[simp] theorem relead_lexemes (e : Expression) : relead "" e.lexemes = e.lexemes := by
  obtain ⟨l, ls, h, hlead⟩ := e.exists_lexemes_cons
  rw [h, relead_cons, ← hlead]

theorem lexemesAll_cons_cons (first second : Expression) (others : List Expression) :
    lexemesAll (first :: second :: others) =
      first.lexemes ++ .ofMark .comma :: relead " " (lexemesAll (second :: others)) := by
  rw [lexemesAll]
  simp

theorem lexemesAll_ne_nil (first : Expression) (others : List Expression) :
    lexemesAll (first :: others) ≠ [] := by
  cases others <;> simp [lexemesAll, lexemes_ne_nil]

@[simp] theorem relead_lexemesAll (items : List Expression) :
    relead "" (lexemesAll items) = lexemesAll items := by
  match items with
  | [] => rfl
  | [only] => simp [lexemesAll]
  | first :: second :: others =>
      rw [lexemesAll_cons_cons, relead_append first.lexemes_ne_nil, relead_lexemes]

mutual

/-- The lexemes of an expression write its text. -/
theorem written_lexemes (e : Expression) : written e.lexemes = e.text.toList := by
  cases e with
  | binary lhs op rhs =>
      simp [lexemes, text, written_lexemes lhs, written_lexemes rhs, Terminal.lexeme]
  | literal leaf => simp [lexemes, text, Terminal.lexeme]
  | paren inner => simp [lexemes, text, written_lexemes inner, ofMark, Mark.text]
  | unary op operand => simp [lexemes, text, written_lexemes operand, Terminal.lexeme]
  | call name arguments =>
      simp [lexemes, text, written_lexemesAll arguments, ofMark, Mark.text]

/-- The lexemes of an expression list write its text. -/
theorem written_lexemesAll (items : List Expression) :
    written (lexemesAll items) = (textAll items).toList := by
  match items with
  | [] => rfl
  | [only] => simp [lexemesAll, textAll, written_lexemes only]
  | first :: second :: others =>
      have rest := written_lexemesAll (second :: others)
      rw [lexemesAll_cons_cons, written_append, written_cons,
        written_relead (lexemesAll_ne_nil second others), relead_lexemesAll, rest,
        written_lexemes first]
      simp [textAll, ofMark, Mark.text]

end

/-! ### What is rendered -/

/-- The text that a piece stands for. -/
def Piece.content : Piece → String
  | .text s => s
  | .node e => e.text

/-- The pieces of an argument list stand for its text. -/
theorem join_argumentPieces (items : List Expression) :
    String.join ((argumentPieces items).map Piece.content) = textAll items := by
  fun_induction argumentPieces items with
  | case1 => simp [textAll]
  | case2 only => simp [textAll, Piece.content]
  | case3 first others nonempty ih =>
      rw [List.map_cons, List.map_cons, String.join_cons, String.join_cons, ih, textAll]
      · simp [Piece.content, String.append_assoc]
      · exact nonempty

/-- The pieces of an expression stand for its text. -/
theorem join_pieces (e : Expression) : String.join (e.pieces.map Piece.content) = e.text := by
  cases e with
  | call name arguments =>
      simp [pieces, text, Piece.content, join_argumentPieces, String.append_assoc]
  | _ => simp [pieces, text, Piece.content, String.append_assoc]

/-- Pending pieces are written out in order. -/
theorem writePieces_eq (written : String) (pending : List Piece) :
    writePieces written pending = written ++ String.join (pending.map Piece.content) := by
  fun_induction writePieces written pending with
  | case1 written => simp
  | case2 written s pending ih => simp [ih, Piece.content, String.append_assoc]
  | case3 written e pending ih =>
      rw [ih, List.map_append, String.join_append, join_pieces]
      simp [Piece.content]

/-- The lexemes of an expression write what is rendered of it. -/
theorem toList_render (e : Expression) : e.render.toList = written e.lexemes := by
  rw [render, writePieces_eq, written_lexemes]
  simp [Piece.content]

/-- The lexemes of an expression list write what is rendered of it. -/
theorem toList_renderList (items : List Expression) :
    (renderList items).toList = written (lexemesAll items) := by
  rw [written_lexemesAll]
  match items with
  | [] => rfl
  | [only] =>
      simp [renderList, textAll, toList_render, written_lexemes]
  | first :: second :: others =>
      have rest := toList_renderList (second :: others)
      rw [written_lexemesAll] at rest
      simp only [renderList, List.map_cons, String.intercalate_cons_cons] at rest ⊢
      simp [textAll, toList_render, written_lexemes, rest]

/-! ### The lexemes are found again -/

/-- What may follow an operand directly: a break or an operator. -/
def EndsOperand (text : List Char) : Prop :=
  ∀ c ∈ text.head?, c ∈ breaks ∨ c ∈ ['+', '-', '*', '/', '%']

theorem endsOperand_of_opensBreak {text : List Char} (h : OpensBreak text) : EndsOperand text :=
  fun c hc => .inl (h c hc)

/-- A leaf stands before what may follow an operand. -/
theorem stands_leaf {t : Terminal} (h : t.IsLexeme) (leaf : t.kind.isLeaf = true)
    {after : List Char} (hafter : EndsOperand after) :
    Segment.Stands t.text.toList (.token t.kind.tokenKind) after := by
  have isLeaf : t.kind.tokenKind.leaf?.isSome = true := by
    revert leaf
    cases t.kind <;> decide
  cases after with
  | nil => exact stands_before_break h opensBreak_nil
  | cons c after =>
      rcases hafter c (by simp) with hbreak | hop
      · exact stands_before_break h (opensBreak_cons hbreak)
      · exact stands_operand h isLeaf hop after

/-- The text of an operator or sign is that of its mark. -/
theorem exists_mark {t : Terminal} (h : t.IsLexeme)
    (role : 0 < t.kind.operatorLevel ∨ t.kind.isSign = true) :
    ∃ m, t.kind.tokenKind = .mark m ∧ t.text = m.text ∧
      ∃ c u, m.text.toList = c :: u ∧ c ∉ ['=', '>'] ∧
        (0 < t.kind.operatorLevel → c ∈ ['+', '-', '*', '/', '%']) ∧
        (t.kind.isSign = true → c ∉ ['=', '>', '*', '/']) := by
  have isMark : ∃ m, t.kind.tokenKind = .mark m := by
    revert role
    cases t.kind <;> simp [TerminalKind.operatorLevel, TerminalKind.isSign,
      TerminalKind.tokenKind]
  obtain ⟨m, hm⟩ := isMark
  refine ⟨m, hm, text_of_mark (l := t.lexeme) h hm, ?_⟩
  revert role hm
  cases t.kind <;> simp only [TerminalKind.tokenKind, TokenKind.mark.injEq, reduceCtorEq,
    false_implies, implies_true] <;> rintro role rfl
  all_goals first
    | exact ⟨_, _, rfl, by decide, by decide, by decide⟩
    | simp [TerminalKind.operatorLevel, TerminalKind.isSign] at role

/-- What starts a name or number does not lengthen an operator before it. -/
theorem not_lengthens_of_start {c : Char}
    (start : CharSet.nameStart.contains c = true ∨ numberStart.contains c = true) :
    c ∉ ['=', '>', '*', '/'] := by
  intro hmem
  have starts : CharSet.avoids [.nameStart, numberStart] ['=', '>', '*', '/'] = true := by decide
  rcases start with name | number
  · rw [CharSet.not_contains_of_avoids starts (by simp) hmem] at name
    simp at name
  · rw [CharSet.not_contains_of_avoids starts (by simp) hmem] at number
    simp at number

/-- The first character of an expression does not lengthen an operator before it. -/
theorem head_text {e : Expression} (h : e.Canonical) {rest : List Char} :
    ∀ c ∈ (written e.lexemes ++ rest).head?, c ∉ ['=', '>', '*', '/'] := by
  cases e with
  | binary lhs op rhs =>
      rw [Canonical] at h
      rw [lexemes, written_append, List.append_assoc]
      exact head_text h.2.2.1
  | literal leaf =>
      rw [Canonical] at h
      have isLeaf : leaf.kind.tokenKind.leaf?.isSome = true := by
        have := h.2
        revert this
        cases leaf.kind <;> decide
      obtain ⟨c, t, htext, start⟩ := leaf_head h.1 isLeaf
      simp only [lexemes, Terminal.lexeme, written_cons, htext]
      intro d hd
      have : d = c := by simpa [eq_comm] using hd
      exact this ▸ not_lengthens_of_start start
  | paren inner =>
      simp [lexemes, ofMark, Mark.text]
  | unary op operand =>
      rw [Canonical] at h
      obtain ⟨m, _, htext, c, u, hchars, _, _, hsign⟩ := exists_mark h.1 (.inr h.2.1)
      simp only [lexemes, Terminal.lexeme, written_cons, htext, hchars]
      intro d hd
      have : d = c := by simpa [eq_comm] using hd
      exact this ▸ hsign h.2.1
  | call name arguments =>
      rw [Canonical] at h
      obtain ⟨c, t, htext, start⟩ := leaf_head h.1 rfl
      simp only [lexemes, written_cons, htext]
      intro d hd
      have : d = c := by simpa [eq_comm] using hd
      exact this ▸ not_lengthens_of_start start

/-- An operator or sign before an operand is found again. -/
theorem spelled_operator {op : Terminal} (hop : op.IsLexeme)
    (role : 0 < op.kind.operatorLevel ∨ op.kind.isSign = true) {e : Expression}
    (h : e.Canonical) {after : List Char} (spelled : Spelled e.lexemes after) :
    Spelled (op.lexeme :: e.lexemes) after := by
  obtain ⟨m, hkind, htext, _⟩ := exists_mark hop role
  refine ⟨.nil, ?_, spelled⟩
  simp only [Terminal.lexeme, hkind, htext]
  exact stands_mark m (head_text h)

mutual

/-- The lexemes of a canonical expression are found again before what may follow an operand. -/
theorem spelled_lexemes {e : Expression} (h : e.Canonical) {after : List Char}
    (hafter : EndsOperand after) : Spelled e.lexemes after := by
  cases e with
  | binary lhs op rhs =>
      rw [Canonical] at h
      obtain ⟨hop, role, hlhs, hrhs, _, _⟩ := h
      rw [lexemes, spelled_append]
      refine ⟨spelled_lexemes hlhs ?_, spelled_operator hop (.inl role) hrhs
        (spelled_lexemes hrhs hafter)⟩
      obtain ⟨m, _, htext, c, u, hchars, _, hbinary, _⟩ := exists_mark hop (.inl role)
      intro d hd
      simp only [written_cons, Terminal.lexeme, htext, hchars] at hd
      have : d = c := by simpa [eq_comm] using hd
      exact .inr (this ▸ hbinary role)
  | literal leaf =>
      rw [Canonical] at h
      rw [lexemes]
      exact ⟨.nil, stands_leaf h.1 h.2 hafter, trivial⟩
  | paren inner =>
      rw [Canonical] at h
      rw [lexemes]
      refine ⟨.nil, stands_bracket (by decide) _, ?_⟩
      rw [spelled_append]
      refine ⟨spelled_lexemes h (endsOperand_of_opensBreak ?_), .nil, stands_bracket (by decide) _,
        trivial⟩
      exact opensBreak_cons (by decide)
  | unary op operand =>
      rw [Canonical] at h
      exact spelled_operator h.1 (.inr h.2.1) h.2.2.2 (spelled_lexemes h.2.2.2 hafter)
  | call name arguments =>
      rw [Canonical] at h
      rw [lexemes]
      refine ⟨.nil, stands_before_break h.1 ?_, .nil, stands_bracket (by decide) _, ?_⟩
      · exact opensBreak_cons (by decide)
      · rw [spelled_append]
        refine ⟨spelled_lexemesAll h.2 ?_, .nil, stands_bracket (by decide) _, trivial⟩
        exact opensBreak_cons (by decide)

/-- The lexemes of a list of canonical expressions are found again before a break. -/
theorem spelled_lexemesAll {items : List Expression} (h : CanonicalAll items) {after : List Char}
    (hafter : OpensBreak after) : Spelled (lexemesAll items) after := by
  match items with
  | [] => trivial
  | [only] =>
      rw [CanonicalAll] at h
      exact spelled_lexemes h.1 (endsOperand_of_opensBreak hafter)
  | first :: second :: others =>
      rw [CanonicalAll] at h
      rw [lexemesAll_cons_cons, spelled_append]
      refine ⟨spelled_lexemes h.1 (endsOperand_of_opensBreak ?_), .nil, stands_bracket (by decide) _,
        ?_⟩
      · exact opensBreak_cons (by decide)
      · have rest := spelled_lexemesAll h.2 hafter
        rw [← relead_lexemesAll] at rest
        exact rest.relead (by decide)

end

end Expression

end QasmDiagram
