/-
Module: QasmDiagram.Proofs.Program.Occurrences
Purpose: Where the expressions of a program stand: the tokens of each, and of everything inside it,
  are a stretch of the tokens of the source.
Trusted boundary: none
Main exports: Expression.tokens, Expression.tokens_infix_of_mem_parts, Reader.Locates,
  Reader.Locates.andThen, Reader.Locates.many, Program.tokens_infix_of_mem_expressions
-/
import QasmDiagram.Proofs.Program.RoundTrip

namespace QasmDiagram

open Lexeme Cursor

namespace Expression

/-- The tokens that write an expression, in order. -/
def tokens (e : Expression) : List (TokenKind × String) :=
  e.lexemes.map token

theorem lexemesAll_tokens_cons (first : Expression) (others : List Expression) :
    ∃ behind, (lexemesAll (first :: others)).map token = first.tokens ++ behind ∧
      (lexemesAll others).map token <:+: behind := by
  cases others with
  | nil => exact ⟨[], by simp [lexemesAll, tokens], List.infix_rfl⟩
  | cons second others =>
      refine ⟨token (ofMark .comma) :: (lexemesAll (second :: others)).map token, ?_, ?_⟩
      · rw [lexemesAll_cons_cons]
        simp [tokens]
      · exact (List.suffix_cons _ _).isInfix

mutual

/-- What stands inside an expression is written by a stretch of its tokens. -/
theorem tokens_infix_of_mem_parts {part : Expression} (e : Expression) (h : part ∈ e.parts) :
    part.tokens <:+: e.tokens := by
  cases e with
  | binary lhs op rhs =>
      rw [parts, List.mem_cons, List.mem_append] at h
      have whole : (binary lhs op rhs).tokens = lhs.tokens ++ op.lexeme.token :: rhs.tokens := by
        simp [tokens, lexemes]
      rcases h with rfl | left | right
      · exact List.infix_rfl
      · rw [whole]
        exact (tokens_infix_of_mem_parts lhs left).trans (List.prefix_append _ _).isInfix
      · rw [whole]
        apply (tokens_infix_of_mem_parts rhs right).trans
        exact ((List.suffix_cons _ _).trans (List.suffix_append _ _)).isInfix
  | literal leaf =>
      rw [parts, List.mem_singleton] at h
      exact h ▸ List.infix_rfl
  | paren inner =>
      rw [parts, List.mem_cons] at h
      rcases h with rfl | inside
      · exact List.infix_rfl
      · apply (tokens_infix_of_mem_parts inner inside).trans
        exact ⟨[(ofMark .leftParen).token], [(ofMark .rightParen).token], by simp [tokens, lexemes]⟩
  | unary op operand =>
      rw [parts, List.mem_cons] at h
      rcases h with rfl | inside
      · exact List.infix_rfl
      · apply (tokens_infix_of_mem_parts operand inside).trans
        exact ⟨[op.lexeme.token], [], by simp [tokens, lexemes]⟩
  | call name arguments =>
      rw [parts, List.mem_cons] at h
      rcases h with rfl | inside
      · exact List.infix_rfl
      · apply (tokens_infix_of_mem_partsAll arguments inside).trans
        exact ⟨[(.identifier, name), (ofMark .leftParen).token], [(ofMark .rightParen).token],
          by simp [tokens, lexemes, token]⟩

/-- What stands inside expressions of a list is written by a stretch of the tokens of the list. -/
theorem tokens_infix_of_mem_partsAll {part : Expression} (items : List Expression)
    (h : part ∈ partsAll items) : part.tokens <:+: (lexemesAll items).map token := by
  cases items with
  | nil => simp [partsAll] at h
  | cons first others =>
      obtain ⟨behind, whole, rest⟩ := lexemesAll_tokens_cons first others
      rw [partsAll, List.mem_append] at h
      rw [whole]
      rcases h with inside | inside
      · exact (tokens_infix_of_mem_parts first inside).trans (List.prefix_append _ _).isInfix
      · apply (tokens_infix_of_mem_partsAll others inside).trans
        exact rest.trans (List.suffix_append _ _).isInfix

end

/-- The expressions of a list are written by stretches of its tokens. -/
theorem tokens_infix_of_mem {e : Expression} {items : List Expression} (h : e ∈ items) :
    e.tokens <:+: (lexemesAll items).map token := by
  induction items with
  | nil => simp at h
  | cons first others ih =>
      obtain ⟨behind, whole, rest⟩ := lexemesAll_tokens_cons first others
      rw [whole]
      rcases List.mem_cons.mp h with rfl | later
      · exact (List.prefix_append _ _).isInfix
      · exact ((ih later).trans rest).trans (List.suffix_append _ _).isInfix

end Expression

/-! ### Readers and the expressions in what they read -/

namespace Reader

variable {α β : Type} {R R' : Reader α} {S : Reader β} {held : α → List Expression}
  {held' : β → List Expression}

/-- The expressions that a value holds are written by stretches of the tokens that were read. -/
def Locates (R : Reader α) (held : α → List Expression) : Prop :=
  ∀ ⦃ts n v d⦄, Sourced ts → R (facing ts n) = .ok (v, d) →
    (∃ rest, d = facing rest n ∧ rest <:+ ts) ∧ ∀ e ∈ held v, e.tokens <:+: ts.map token

/-- A reader whose values hold no expressions. -/
theorem Copies.locates {Good : α → List Lexeme → Prop} (h : R.Copies Good)
    (holds : ∀ v own, Good v own → held v = []) : R.Locates held := by
  intro ts n v d hts hread
  obtain ⟨own, rest, hd, copied, good⟩ := h hts hread
  exact ⟨⟨rest, hd, copied.suffix⟩, by simp [holds v own good]⟩

theorem locates_expect (kind : TokenKind) : (expect kind).Locates fun _ => [] :=
  (copies_expect kind).locates fun _ _ _ => rfl

theorem locates_pure (v : α) (holds : held v = []) : Locates (fun c => .ok (v, c)) held := by
  intro ts n w d _ hread
  cases hread
  exact ⟨⟨ts, rfl, List.suffix_refl ts⟩, by simp [holds]⟩

theorem Locates.congr (h : R.Locates held)
    (same : ∀ c v d, R' c = .ok (v, d) ↔ R c = .ok (v, d)) : R'.Locates held :=
  fun _ _ _ _ hts hread => h hts ((same _ _ _).mp hread)

theorem Locates.branch {more : Cursor → Bool} (hR : R.Locates held) (hR' : R'.Locates held) :
    (Reader.branch more R R').Locates held := by
  intro ts n v d hts hread
  unfold Reader.branch at hread
  split at hread
  · exact hR hts hread
  · exact hR' hts hread

theorem Locates.map (h : R.Locates held) {f : α → β}
    (holds : ∀ v, ∀ e ∈ held' (f v), e ∈ held v) : (R.map f).Locates held' := by
  intro ts n w d hts hmapped
  rcases map_eq_ok_iff.mp hmapped with ⟨v, rfl, hread⟩
  obtain ⟨behind, located⟩ := h hts hread
  exact ⟨behind, fun e he => located e (holds v e he)⟩

/-- What is located behind a part of the lexemes is located in the whole. -/
theorem infix_of_suffix {e : Expression} {ts rest : List Lexeme} (h : e.tokens <:+: rest.map token)
    (suffix : rest <:+ ts) : e.tokens <:+: ts.map token :=
  h.trans (suffix.map token).isInfix

theorem Locates.andThen (hR : R.Locates held) (hS : S.Locates held') :
    (Reader.andThen R S).Locates fun p => held p.1 ++ held' p.2 := by
  rintro ts n ⟨v, w⟩ d hts hread
  rcases andThen_eq_ok_iff.mp hread with ⟨c, hfirst, hsecond⟩
  obtain ⟨⟨mid, rfl, suffix⟩, located⟩ := hR hts hfirst
  obtain ⟨⟨rest, hd, suffix'⟩, located'⟩ := hS (hts.of_suffix suffix) hsecond
  refine ⟨⟨rest, hd, suffix'.trans suffix⟩, ?_⟩
  intro e he
  rcases List.mem_append.mp he with first | second
  · exact located e first
  · exact infix_of_suffix (located' e second) suffix

theorem Locates.behind {f : String → Reader α} (h : ∀ text, (f text).Locates held) :
    (Reader.behind f).Locates held := by
  intro ts n v d hts hread
  have next : (facing ts n).next = facing (ts.drop 1) n := skip_facing 1
  rw [Reader.behind, next] at hread
  have suffix := List.drop_suffix 1 ts
  obtain ⟨⟨rest, hd, suffix'⟩, located⟩ := h _ (hts.of_suffix suffix) hread
  exact ⟨⟨rest, hd, suffix'.trans suffix⟩, fun e he => infix_of_suffix (located e he) suffix⟩

/-- The items of a run hold what each of them holds. -/
theorem Locates.run {more : Cursor → Bool} (h : R.Locates held) {c d : Cursor} {vs : List α}
    (run : Run more R c vs d) : ∀ {ts n}, c = facing ts n → Sourced ts →
      (∃ rest, d = facing rest n ∧ rest <:+ ts) ∧
        ∀ v ∈ vs, ∀ e ∈ held v, e.tokens <:+: ts.map token := by
  induction run with
  | stop _ =>
      rintro ts n rfl _
      exact ⟨⟨ts, rfl, List.suffix_refl ts⟩, by simp⟩
  | stall _ hread _ =>
      rintro ts n rfl hts
      obtain ⟨behind, located⟩ := h hts hread
      exact ⟨behind, by simpa using located⟩
  | next _ hread _ _ ih =>
      rintro ts n rfl hts
      obtain ⟨⟨mid, rfl, suffix⟩, located⟩ := h hts hread
      obtain ⟨⟨rest, hd, suffix'⟩, others⟩ := ih rfl (hts.of_suffix suffix)
      refine ⟨⟨rest, hd, suffix'.trans suffix⟩, ?_⟩
      intro v hv e he
      rcases List.mem_cons.mp hv with rfl | later
      · exact located e he
      · exact infix_of_suffix (others v later e he) suffix

theorem Locates.many {more : Cursor → Bool} (h : R.Locates held) :
    (Reader.many more R).Locates (·.flatMap held) := by
  intro ts n vs d hts hread
  obtain ⟨behind, located⟩ := h.run (many_eq_ok_iff.mp hread) rfl hts
  refine ⟨behind, ?_⟩
  intro e he
  rcases List.mem_flatMap.mp he with ⟨v, hv, inside⟩
  exact located v hv e inside

theorem Locates.commaSeparated (h : R.Locates held) :
    (Reader.commaSeparated R).Locates (·.flatMap held) := by
  have afterComma : (Reader.afterComma R).Locates held := Locates.behind fun _ => h
  refine ((h.andThen afterComma.many).map ?_).congr fun _ _ _ => commaSeparated_iff
  rintro ⟨v, others⟩ e he
  simpa using he

theorem Locates.bracketed {m m' : Mark} (h : R.Locates held) :
    (Reader.bracketed m m' R).Locates fun v => v.elim [] held := by
  refine (Locates.branch (Locates.map (Locates.behind fun _ => h.andThen (locates_expect _)) ?_)
    (locates_pure none rfl)).congr fun _ _ _ => bracketed_iff
  rintro ⟨v, _⟩ e he
  simpa using he

end Reader

/-! ### The readers of programs -/

theorem Expression.reader_locates (levels : Nat) : (reader levels).Locates fun e => [e] := by
  intro ts n e d hts h
  obtain ⟨rest, hd, taken, _⟩ := reader_sound levels hts h
  refine ⟨⟨rest, hd, taken.suffix⟩, ?_⟩
  intro e' he'
  obtain rfl : e' = e := by simpa using he'
  rw [taken.tokens]
  exact (List.prefix_append _ _).isInfix

theorem Expression.listReader_locates (levels : Nat) :
    (listReader (reader levels)).Locates fun items => items := by
  intro ts n items d hts h
  obtain ⟨rest, hd, suffix, tokens, _⟩ := listReader_sound hts h
  refine ⟨⟨rest, hd, suffix⟩, ?_⟩
  intro e he
  rw [tokens]
  exact (tokens_infix_of_mem he).trans (List.prefix_append _ _).isInfix

theorem designatorReader_locates (levels : Nat) :
    (designatorReader levels).Locates Option.toList := by
  have bracketed : (Reader.bracketed .leftBracket .rightBracket (Expression.reader levels)).Locates
      fun size => size.elim [] fun e => [e] := (Expression.reader_locates levels).bracketed
  intro ts n size d hts h
  obtain ⟨behind, located⟩ := bracketed hts h
  refine ⟨behind, ?_⟩
  intro e he
  exact located e (by cases size <;> simp_all)

namespace Index

theorem itemsReader_locates (levels : Nat) : (itemsReader levels).Locates fun items => items := by
  intro ts n items d hts h
  exact Expression.listReader_locates levels hts (itemsReader_eq_ok_iff.mp h).2

theorem reader_locates (levels : Nat) : (reader levels).Locates held := by
  have content : ∀ plain, (contentReader levels plain).Locates held := by
    intro plain
    cases plain with
    | true =>
        rw [contentReader, if_pos rfl, plainReader]
        apply ((itemsReader_locates levels).andThen (Reader.locates_expect _)).map
        rintro ⟨items, _⟩ e he
        simpa [held] using he
    | false =>
        intro ts n index d hts h
        rcases verbatimReader_eq_ok_iff.mp h with ⟨used, r, rest, rfl, _, _, rfl, rfl⟩
        have behind : rest <:+ used ++ r :: rest :=
          (List.suffix_cons r rest).trans (List.suffix_append _ _)
        exact ⟨⟨rest, rfl, behind⟩, by simp [held]⟩
  intro ts n index d hts h
  rcases reader_eq_ok_iff.mp h with ⟨l, us, plain, rfl, _, _, hread⟩
  obtain ⟨⟨rest, hd, suffix⟩, located⟩ := content plain hts.tail hread
  have shorter := List.suffix_cons l us
  exact ⟨⟨rest, hd, suffix.trans shorter⟩,
    fun e he => Reader.infix_of_suffix (located e he) shorter⟩

end Index

theorem Indexed.reader_locates (levels : Nat) : (reader levels).Locates held := by
  rw [reader_eq]
  apply ((Reader.locates_expect _).andThen (Index.reader_locates levels).many).map
  rintro ⟨name, indices⟩ e he
  simpa [held] using he

theorem Operand.reader_locates (levels : Nat) : (reader levels).Locates held := by
  refine Reader.Locates.congr (.branch ?_ ?_) fun _ _ _ => reader_iff
  · exact (Reader.locates_expect _).map fun _ _ he => he
  · exact (Indexed.reader_locates levels).map fun _ _ he => he

namespace GateCall

theorem modifiersReader_locates (levels : Nat) :
    (Reader.many atModifier (modifierReader levels)).Locates fun _ => [] := by
  intro ts n modifiers d hts h
  obtain ⟨owns, rest, hd, _, copied⟩ :=
    (modifierReader_copies levels).many (fun _ _ good => good.1) onTokens_atModifier hts h
  exact ⟨⟨rest, hd, (copied owns (forall₂_alike_refl owns)).suffix⟩, by simp⟩

theorem reader_locates (levels : Nat) : (reader levels).Locates held := by
  have arguments : (argumentsReader levels).Locates fun items => items.elim [] id :=
    (Expression.listReader_locates levels).bracketed
  have operands : (operandsReader levels).Locates (·.flatMap Operand.held) :=
    Reader.Locates.branch (Reader.locates_pure [] rfl) (Operand.reader_locates levels).commaSeparated
  have named := (Reader.locates_expect .identifier).andThen <| arguments.andThen <|
    (designatorReader_locates levels).andThen <|
      operands.andThen (Reader.locates_expect (.mark .semicolon))
  rw [reader_eq]
  apply ((modifiersReader_locates levels).andThen named).map
  rintro ⟨modifiers, name, items, size, targets, _⟩ e he
  cases items <;> simpa [held] using he

end GateCall

theorem Declaration.reader_locates (levels : Nat) (kind : TerminalKind) :
    (reader levels kind).Locates (·.size.toList) := by
  have parts := (Reader.locates_expect .identifier).andThen
    ((designatorReader_locates levels).andThen (Reader.locates_expect (.mark .semicolon)))
  rw [reader_eq]
  apply Reader.Locates.behind
  intro text
  apply parts.map
  rintro ⟨name, size, _⟩ e he
  simpa using he

theorem Assignment.reader_locates (levels : Nat) : (reader levels).Locates held := by
  have semicolon := Reader.locates_expect (.mark .semicolon)
  have value : (AssignedValue.closedReader levels).Locates AssignedValue.held := by
    apply Reader.Locates.branch
    · refine Reader.Locates.map (.behind fun _ => (Operand.reader_locates levels).andThen semicolon) ?_
      rintro ⟨operand, _⟩ e he
      simpa [AssignedValue.held] using he
    · apply ((Expression.reader_locates levels).andThen semicolon).map
      rintro ⟨value, _⟩ e he
      simpa [AssignedValue.held] using he
  have operator : operatorReader.Locates fun _ => [] :=
    operatorReader_copies.locates fun _ _ _ => rfl
  rw [reader_eq]
  apply ((Indexed.reader_locates levels).andThen (operator.andThen value)).map
  rintro ⟨target, op, value⟩ e he
  simpa [held] using he

namespace Statement

theorem keptReader_locates (rule : KeptRule) : (keptReader rule).Locates held := by
  apply (keptReader_copies rule).locates
  rintro s own ⟨text, rfl, _⟩
  rfl

theorem declarationReader_locates (levels : Nat) (kind : TerminalKind) :
    (declarationReader levels kind).Locates held := by
  rw [declarationReader_eq]
  exact (Declaration.reader_locates levels kind).map fun _ _ he => he

theorem gateCallReader_locates (levels : Nat) : (gateCallReader levels).Locates held := by
  rw [gateCallReader_eq]
  exact (GateCall.reader_locates levels).map fun _ _ he => he

theorem inclusionReader_locates : inclusionReader.Locates held := by
  rw [inclusionReader_eq]
  apply (Reader.Locates.behind fun _ =>
    (Reader.locates_expect .string).andThen (Reader.locates_expect (.mark .semicolon))).map
  rintro ⟨path, _⟩ e he
  simp [held] at he

theorem namedReader_locates (levels : Nat) : (namedReader levels).Locates held := by
  intro ts n s d hts h
  unfold namedReader at h
  split at h
  · exact keptReader_locates _ hts h
  · split at h
    · have assignment : (Reader.map .assignment (Assignment.reader levels)).Locates held :=
        (Assignment.reader_locates levels).map fun _ _ he => he
      exact assignment hts h
    · exact gateCallReader_locates levels hts h

theorem reader_locates (levels : Nat) : (reader levels).Locates held := by
  intro ts n s d hts h
  unfold reader at h
  split at h
  case h_1 => exact inclusionReader_locates hts h
  case h_2 => exact declarationReader_locates levels .qreg hts h
  case h_3 => exact declarationReader_locates levels .creg hts h
  case h_4 => exact keptReader_locates _ hts h
  case h_9 => exact namedReader_locates levels hts h
  case h_10 => simp at h
  -- the four words that open a modifier
  all_goals exact gateCallReader_locates levels hts h

end Statement

namespace Item

/-- The expressions of an item, without the number of scopes around each. -/
def heldAnywhere (i : Item) : List Expression :=
  i.held.map Prod.snd

theorem readerWith_locates {statement : Reader Statement} {inner : Reader Item}
    (hstatement : statement.Locates Statement.held) (hinner : inner.Locates heldAnywhere) :
    (readerWith statement inner).Locates heldAnywhere := by
  refine Reader.Locates.congr (.branch ?_ ?_) fun _ _ _ => readerWith_iff
  · refine Reader.Locates.map
      (.behind fun _ => hinner.many.andThen (Reader.locates_expect (.mark .rightBrace))) ?_
    rintro ⟨body, _⟩ e he
    simp only [heldAnywhere, List.mem_map, Prod.exists, exists_eq_right, mem_held_scope] at he
    obtain ⟨_, k, _, i, hi, he⟩ := he
    simp only [List.append_nil, List.mem_flatMap, heldAnywhere, List.mem_map, Prod.exists,
      exists_eq_right]
    exact ⟨i, hi, k, he⟩
  · apply hstatement.map
    intro s e he
    simpa [heldAnywhere, held] using he

theorem reader_locates (levels : Nat) : (reader levels).Locates heldAnywhere := by
  induction levels with
  | zero =>
      apply readerWith_locates (Statement.reader_locates 0)
      intro ts n i d _ h
      simp [Reader.tooDeep] at h
  | succ levels ih => exact readerWith_locates (Statement.reader_locates (levels + 1)) ih

end Item

theorem Element.reader_locates (levels : Nat) :
    (reader levels).Locates fun element => element.held.map Prod.snd := by
  have version : versionReader.Locates fun element => element.held.map Prod.snd := by
    have number : specifierReader.Locates fun _ => [] :=
      .branch (Reader.locates_expect _) (Reader.locates_expect _)
    refine Reader.Locates.congr (.map (.behind fun _ =>
      number.andThen (Reader.locates_expect (.mark .semicolon))) ?_) fun _ _ _ => versionReader_iff
    rintro ⟨specifier, _⟩ e he
    simp [held] at he
  rw [reader_eq]
  exact version.branch ((Item.reader_locates levels).map fun _ _ he => he)

/-- The tokens of every expression of a program that is read are a stretch of those of the source. -/
theorem Program.tokens_infix_of_mem_expressions {source : String} {p : Program}
    (h : ofText source = .ok p) {scopes : Nat} {e : Expression} (he : (scopes, e) ∈ p.expressions) :
    ∃ tokens, Lexeme.tokensOf source = .ok tokens ∧ e.tokens <:+: tokens := by
  rcases ofText_eq_ok_iff.mp h with ⟨ts, n, hlexemes, hread⟩
  obtain ⟨trail, _, spelled, _⟩ := spelled_of_ofText hlexemes
  rcases ofCursor_eq_ok_iff.mp hread with ⟨elements, d, hmany, rfl⟩
  have located := ((Element.reader_locates nestingLimit).many ⟨trail, spelled⟩ hmany).2
  refine ⟨ts.map token, by rw [tokensOf, hlexemes]; rfl, ?_⟩
  rcases mem_expressions.mp he with ⟨element, helement, whole, hwhole, inside⟩
  apply (Expression.tokens_infix_of_mem_parts whole inside).trans
  rcases List.mem_append.mp helement with helement | ending
  · exact located whole (List.mem_flatMap.mpr ⟨element, helement, List.mem_map_of_mem hwhole⟩)
  · obtain rfl : element = .endOfInput := by simpa using ending
    simp [Element.held] at hwhole

end QasmDiagram
