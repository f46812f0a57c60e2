/-
Module: QasmDiagram.Proofs.Program.Locality
Purpose: No reader of the language looks further than it reads, but for the word `else`: a statement
  that is kept as text ends at a closing brace only if this word does not follow.
Trusted boundary: none
Main exports: Statement.unlessElse, Expression.not_foreign_of_mem, GateCall.not_assigns,
  Statement.reader_local, Item.reader_local, Element.reader_local
-/
import QasmDiagram.Proofs.Locality
import QasmDiagram.Proofs.Program.RoundTrip

namespace QasmDiagram

open Lexeme Cursor
open Reader (Local Inside LooksAtHead looksAtHead_isAt local_expect)

variable {seam : List Lexeme → List Lexeme → Prop}

/-! ### Indices and operands -/

namespace Index

/-- Once it is judged whether an index is plain, what follows does not matter. -/
theorem isPlain?_append {ts : List Lexeme} {depth : Nat} {plain : Bool}
    (h : isPlain? depth ts = some plain) (us : List Lexeme) :
    isPlain? depth (ts ++ us) = some plain := by
  fun_induction isPlain? depth ts <;> simp_all [isPlain?]

/-- Once the bracket is found that closes an index kept as text, what follows does not matter. -/
theorem verbatimLength?_append {ts : List Lexeme} {depth taken length : Nat}
    (h : verbatimLength? depth taken ts = some length) (us : List Lexeme) :
    verbatimLength? depth taken (ts ++ us) = some length := by
  fun_induction verbatimLength? depth taken ts <;> simp_all [verbatimLength?]

theorem contentReader_local (levels : Nat) (plain : Bool) : (contentReader levels plain).Local seam := by
  cases plain with
  | true =>
      rw [contentReader, if_pos rfl, plainReader]
      exact (itemsReader_delimited levels).isLocal.map
  | false =>
      intro ts n index d _ h
      rcases verbatimReader_eq_ok_iff.mp h with ⟨used, r, rest, rfl, hlength, hr, rfl, rfl⟩
      have suffix : rest <:+ used ++ r :: rest :=
        (List.suffix_cons r rest).trans (List.suffix_append _ _)
      refine ⟨rest, rfl, suffix, ?_⟩
      intro us m _
      refine ⟨by simp, verbatimReader_eq_ok_iff.mpr ⟨used, r, rest ++ us, by simp, ?_, hr, rfl, rfl⟩⟩
      exact verbatimLength?_append hlength us

theorem reader_local (levels : Nat) : (reader levels).Local seam := by
  intro ts n index d hts h
  rcases reader_eq_ok_iff.mp h with ⟨l, ts, plain, rfl, hl, hplain, hread⟩
  obtain ⟨rest, hd, suffix, again⟩ := contentReader_local levels plain hts.tail hread
  refine ⟨rest, hd, suffix.trans (List.suffix_cons l ts), ?_⟩
  intro us m allowed
  refine ⟨by simp, reader_eq_ok_iff.mpr ⟨l, ts ++ us, plain, rfl, hl, ?_, (again us m allowed).2⟩⟩
  exact isPlain?_append hplain us

end Index

theorem Indexed.reader_local (levels : Nat) : (reader levels).Local Inside := by
  rw [reader_eq]
  exact ((local_expect _).andThen ((Index.reader_local levels).many (looksAtHead_isAt _))).map

theorem Operand.reader_local (levels : Nat) : (reader levels).Local Inside :=
  Local.congr (.branch (looksAtHead_isAt _) (local_expect _).map (Indexed.reader_local levels).map)
    fun _ _ _ => reader_iff

theorem designatorReader_local (levels : Nat) : (designatorReader levels).Local Inside :=
  Local.bracketed (Expression.delimited levels (by decide)).isLocal

/-! ### Gate calls -/

namespace GateCall

variable {levels n : Nat} {ts : List Lexeme} {d : Cursor}

theorem looksAtHead_atModifier : LooksAtHead atModifier := by
  intro ts us n m nonempty
  cases ts with
  | nil => exact absurd rfl nonempty
  | cons l ts => simp [atModifier]

theorem modifierReader_local (levels : Nat) : (modifierReader levels).Local seam := by
  intro ts n modifier d hts h
  cases ts with
  | nil =>
      have next : (facing [] n).next = facing [] n := skip_facing 1
      simp [modifierReader, modifierEnd, next, Reader.expect, pure, Except.pure] at h
  | cons l ts =>
      rcases modifierReader_eq_ok_iff.mp h with ⟨c, t, hend, hat, rfl⟩
      obtain ⟨used, mid, rfl, rfl, again⟩ := modifierEnd_sound hts.tail hend
      rcases Reader.expect_eq_ok_iff.mp hat with ⟨a, rest, rfl, ha, rfl, rfl⟩
      have suffix : rest <:+ l :: (used ++ a :: rest) := ⟨l :: used ++ [a], by simp⟩
      refine ⟨rest, rfl, suffix, ?_⟩
      intro us m _
      have split : l :: (used ++ a :: rest) ++ us = l :: (used ++ a :: (rest ++ us)) := by simp
      have text : ∀ rest n, (facing (l :: (used ++ a :: rest)) n).textBetween
          (facing (a :: rest) n) = excerpt (l :: used) := by
        intro rest n
        rw [← List.cons_append, textBetween_facing]
      refine ⟨by simp, ?_⟩
      rw [split, text]
      exact modifierReader_eq_ok_iff.mpr ⟨facing (a :: (rest ++ us)) m, a.text,
        again used a (rest ++ us) m rfl ha, Reader.expect_facing_cons ha, (text _ _).symm⟩

theorem argumentsReader_local (levels : Nat) : (argumentsReader levels).Local Inside :=
  Local.bracketed (Expression.list_delimited levels (by decide)).isLocal

theorem operandsReader_local (levels : Nat) : (operandsReader levels).Local Inside :=
  .branch (looksAtHead_isAt _) (Reader.local_pure []) (Operand.reader_local levels).commaSeparated

theorem reader_local (levels : Nat) : (reader levels).Local seam := by
  have named : (namedReader levels).Local seam := (local_expect _).andThen <|
    (argumentsReader_local levels).andThen <| (designatorReader_local levels).andThen <|
      (operandsReader_local levels).andThen (local_expect _)
  rw [reader_eq]
  exact (((modifierReader_local levels).many looksAtHead_atModifier).andThen named).map

/-- The operands of a gate call, of which there may be none, start with one of three classes. -/
theorem operands_head {p : List Operand × String}
    (h : Reader.andThen (operandsReader levels) (Reader.expect (.mark .semicolon)) (facing ts n) =
      .ok (p, d)) :
    ∃ l rest, ts = l :: rest ∧ l.kind ∈ [TokenKind.mark .semicolon, .hardwareQubit, .identifier] := by
  have atHead : ∀ {kind}, kind ∈ [TokenKind.mark .semicolon, .hardwareQubit, .identifier] →
      (facing ts n).isAt kind = true → ∃ l rest, ts = l :: rest ∧
        l.kind ∈ [TokenKind.mark .semicolon, .hardwareQubit, .identifier] := by
    intro kind hkind here
    rcases isAt_facing_iff.mp here with ⟨l, rest, rfl, hl⟩
    exact ⟨l, rest, rfl, hl ▸ hkind⟩
  rcases Reader.andThen_eq_ok_iff.mp h with ⟨c, hoperands, _⟩
  unfold operandsReader Reader.branch at hoperands
  split at hoperands
  case isTrue here => exact atHead (by decide) here
  case isFalse =>
    rcases Reader.commaSeparated_eq_ok_iff.mp hoperands with ⟨operand, c', _, _, hfirst, _⟩
    unfold Operand.reader at hfirst
    split at hfirst
    case isTrue here => exact atHead (by decide) here
    case isFalse =>
      split at hfirst
      case isTrue here => exact atHead (by decide) here
      case isFalse => simp at hfirst

end GateCall

/-! ### Assignments and what is none -/

namespace Expression

/-- Marks that are part of no expression. -/
def foreign : List TokenKind :=
  [.mark .leftBracket, .mark .rightBracket, .mark .leftBrace, .mark .rightBrace, .mark .semicolon]

theorem not_foreign_terminal (leaf : Terminal) : (token leaf.lexeme).1 ∉ foreign := by
  have kinds : ∀ kind : TerminalKind, kind.tokenKind ∉ foreign := by
    intro kind
    cases kind <;> decide
  exact kinds leaf.kind

theorem not_foreign_marks :
    ∀ m ∈ [Mark.leftParen, .rightParen, .comma], TokenKind.mark m ∉ foreign := by
  decide

mutual

/-- An expression is written without brackets, braces and semicolons. -/
theorem not_foreign_of_mem (e : Expression) : ∀ t ∈ e.lexemes.map token, t.1 ∉ foreign := by
  have marks := not_foreign_marks
  cases e with
  | binary lhs op rhs =>
      simp only [lexemes, List.map_append, List.map_cons, List.forall_mem_append,
        List.forall_mem_cons]
      exact ⟨not_foreign_of_mem lhs, not_foreign_terminal op, not_foreign_of_mem rhs⟩
  | literal leaf =>
      simp only [lexemes, List.map_singleton, List.forall_mem_singleton]
      exact not_foreign_terminal leaf
  | paren inner =>
      simp only [lexemes, List.map_append, List.map_cons, List.map_nil, List.forall_mem_append,
        List.forall_mem_cons, token_ofMark]
      exact ⟨marks _ (by simp), not_foreign_of_mem inner, marks _ (by simp), by simp⟩
  | unary op operand =>
      simp only [lexemes, List.map_cons, List.forall_mem_cons]
      exact ⟨not_foreign_terminal op, not_foreign_of_mem operand⟩
  | call name arguments =>
      simp only [lexemes, List.map_append, List.map_cons, List.map_nil, List.forall_mem_append,
        List.forall_mem_cons, token_ofMark]
      exact ⟨by simp [token, foreign], marks _ (by simp), not_foreign_of_mem_all arguments,
        marks _ (by simp), by simp⟩

/-- A list of expressions is written without brackets, braces and semicolons. -/
theorem not_foreign_of_mem_all (items : List Expression) :
    ∀ t ∈ (lexemesAll items).map token, t.1 ∉ foreign := by
  cases items with
  | nil => simp [lexemesAll]
  | cons first others =>
      cases others with
      | nil => exact not_foreign_of_mem first
      | cons second others =>
          simp only [lexemesAll_cons_cons, List.map_append, List.map_cons, List.forall_mem_append,
            List.forall_mem_cons, map_token_relead, token_ofMark]
          exact ⟨not_foreign_of_mem first, not_foreign_marks _ (by simp),
            not_foreign_of_mem_all (second :: others)⟩

end

end Expression

namespace Indexed

/-- What is judged to be an assignment stays one, whatever follows. -/
theorem assigns_append {ts : List Lexeme} {depth : Nat} (h : assigns depth ts = true)
    (us : List Lexeme) : assigns depth (ts ++ us) = true := by
  fun_induction assigns depth ts <;> simp_all [assigns]

/-- Inside brackets, what holds no bracket is passed over. -/
theorem assigns_inside {own : List Lexeme} (h : ∀ t ∈ own.map token, t.1 ∉ Expression.foreign)
    (depth : Nat) (rest : List Lexeme) :
    assigns (depth + 1) (own ++ rest) = assigns (depth + 1) rest := by
  induction own with
  | nil => rfl
  | cons l own ih =>
      rw [List.map_cons, List.forall_mem_cons] at h
      have here : l.kind ∉ Expression.foreign := h.1
      obtain ⟨noLeft, noRight⟩ : l.kind ≠ .mark .leftBracket ∧ l.kind ≠ .mark .rightBracket := by
        simp_all [Expression.foreign]
      rw [List.cons_append, assigns]
      split <;> simp_all

/-- Brackets around what holds none are passed over. -/
theorem assigns_bracketed {b r : Lexeme} {own : List Lexeme} (hb : b.kind = .mark .leftBracket)
    (h : ∀ t ∈ own.map token, t.1 ∉ Expression.foreign) (hr : r.kind = .mark .rightBracket)
    (rest : List Lexeme) : assigns 0 (b :: (own ++ r :: rest)) = assigns 0 rest := by
  calc assigns 0 (b :: (own ++ r :: rest))
      = assigns 1 (own ++ r :: rest) := by simp [assigns, hb]
    _ = assigns 1 (r :: rest) := assigns_inside h 0 _
    _ = assigns 0 rest := by simp [assigns, hr]

/-- A size behind a name is passed over. -/
theorem assigns_designator {levels n : Nat} {ts : List Lexeme} {size : Option Expression} {d : Cursor}
    (hts : Sourced ts) (h : designatorReader levels (facing ts n) = .ok (size, d)) :
    ∃ rest, d = facing rest n ∧ ∀ us, assigns 0 (ts ++ us) = assigns 0 (rest ++ us) := by
  rw [designatorReader_eq] at h
  unfold Reader.bracketed at h
  split at h
  case isFalse =>
    cases h
    exact ⟨ts, rfl, fun _ => rfl⟩
  case isTrue opens =>
    rcases isAt_facing_iff.mp opens with ⟨b, inside, rfl, hb⟩
    rw [next_facing_cons] at h
    rcases Except.bind_eq_ok_iff.mp h with ⟨⟨e, c⟩, he, h⟩
    rcases Except.bind_eq_ok_iff.mp h with ⟨⟨t, c'⟩, hclose, h⟩
    cases h
    obtain ⟨mid, rfl, taken, _⟩ := Expression.reader_sound levels hts.tail he
    rcases Reader.expect_eq_ok_iff.mp hclose with ⟨r, rest, rfl, hr, _, rfl⟩
    obtain ⟨own, rfl⟩ := taken.suffix
    have tokens := taken.tokens
    rw [List.map_append, List.append_cancel_right_eq] at tokens
    have plain : ∀ t ∈ own.map token, t.1 ∉ Expression.foreign :=
      tokens ▸ Expression.not_foreign_of_mem e
    refine ⟨rest, rfl, ?_⟩
    intro us
    have split : b :: (own ++ r :: rest) ++ us = b :: (own ++ r :: (rest ++ us)) := by simp
    rw [split, assigns_bracketed hb plain hr]

end Indexed

/-- A gate call is not judged to be an assignment, whatever follows it: brackets behind its name hold
a size, and an operand or the semicolon comes next. -/
theorem GateCall.not_assigns {levels n : Nat} {l : Lexeme} {ts : List Lexeme} {call : GateCall}
    {d : Cursor} (hts : Sourced (l :: ts)) (hl : l.kind = .identifier)
    (h : reader levels (facing (l :: ts) n) = .ok (call, d)) (us : List Lexeme) :
    Indexed.assigns 0 (ts ++ us) = false := by
  rw [reader_eq] at h
  rcases Reader.map_eq_ok_iff.mp h with ⟨⟨modifiers, name, items, size, operands⟩, _, h⟩
  rcases Reader.andThen_eq_ok_iff.mp h with ⟨c, hmodifiers, h⟩
  obtain rfl : c = facing (l :: ts) n := by
    cases Reader.many_eq_ok_iff.mp hmodifiers with
    | stop _ => rfl
    | stall opens _ _ => simp [atModifier, hl, opensModifier] at opens
    | next opens _ _ _ => simp [atModifier, hl, opensModifier] at opens
  rcases Reader.andThen_eq_ok_iff.mp h with ⟨c, hname, h⟩
  rw [Reader.expect_facing_cons hl] at hname
  cases hname
  rcases Reader.andThen_eq_ok_iff.mp h with ⟨c, hitems, h⟩
  rcases Reader.andThen_eq_ok_iff.mp h with ⟨c', hsize, hoperands⟩
  rw [argumentsReader_eq] at hitems
  unfold Reader.bracketed at hitems
  split at hitems
  case isTrue opens =>
    rcases isAt_facing_iff.mp opens with ⟨p, rest, rfl, hp⟩
    simp [Indexed.assigns, hp]
  case isFalse =>
    cases hitems
    obtain ⟨mid, rfl, passed⟩ := Indexed.assigns_designator hts.tail hsize
    obtain ⟨o, rest, rfl, ho⟩ := operands_head hoperands
    rw [passed]
    simp only [List.mem_cons, List.not_mem_nil, or_false] at ho
    rcases ho with ho | ho | ho <;> simp [Indexed.assigns, ho]

/-! ### Statements -/

theorem Declaration.reader_local (levels : Nat) (kind : TerminalKind) :
    (reader levels kind).Local seam := by
  have parts : (behindKeyword levels).Local seam :=
    (local_expect _).andThen ((designatorReader_local levels).andThen (local_expect _))
  rw [reader_eq]
  exact Local.behind fun _ => parts.map

theorem AssignedValue.closedReader_local (levels : Nat) : (closedReader levels).Local seam := by
  have measured : (Reader.behind fun _ => Reader.andThen (Operand.reader levels)
      (Reader.expect (.mark .semicolon))).Local seam :=
    Local.behind fun _ => (Operand.reader_local levels).andThen (local_expect _)
  have computed : (Reader.andThen (Expression.reader levels)
      (Reader.expect (.mark .semicolon))).Local seam :=
    (Expression.delimited levels (by decide)).isLocal
  exact .branch (looksAtHead_isAt _) measured.map computed.map

namespace Assignment

theorem operatorReader_local : operatorReader.Local seam := by
  intro ts n op d _ h
  unfold operatorReader at h
  split at h
  case h_1 => simp [throw, throwThe, MonadExceptOf.throw] at h
  case h_2 op hop =>
    cases h
    rcases Cursor.terminal?_facing.mp hop with ⟨l, rest, rfl, hrole, htext⟩
    rw [next_facing_cons]
    refine ⟨rest, rfl, List.suffix_cons l rest, ?_⟩
    intro us m _
    have here : (facing (l :: rest ++ us) m).terminal? TokenKind.assignmentOperator? = some op :=
      Cursor.terminal?_facing.mpr ⟨l, rest ++ us, rfl, hrole, htext⟩
    refine ⟨by simp, ?_⟩
    unfold operatorReader
    rw [here]
    simp [pure, Except.pure]

theorem reader_local (levels : Nat) : (reader levels).Local seam := by
  rw [reader_eq]
  exact ((Indexed.reader_local levels).andThen
    (operatorReader_local.andThen (AssignedValue.closedReader_local levels))).map

end Assignment

namespace Statement

/-- The seam behind a statement: if nothing is left, then `else` must not follow. -/
def unlessElse (rest us : List Lexeme) : Prop :=
  rest = [] → elseFollows us = false

/-- Only where nothing is left, what is put behind decides whether `else` follows. -/
theorem elseFollows_append {ts us : List Lexeme} (h : unlessElse ts us) :
    elseFollows (ts ++ us) = elseFollows ts := by
  cases ts with
  | nil => exact h rfl
  | cons l ts => rfl

/-- Once the end of a statement kept as text is found, what follows does not matter, unless the
statement takes all there was. -/
theorem keptEnd_append {ts us : List Lexeme} {depth taken length : Nat}
    (h : keptEnd depth taken ts = .ends length)
    (noElse : length = taken + ts.length → elseFollows us = false) :
    keptEnd depth taken (ts ++ us) = .ends length := by
  have behind : ∀ {taken l} {rest : List Lexeme},
      (length = taken + (l :: rest).length → elseFollows us = false) →
        length = taken + 1 + rest.length → elseFollows us = false := by
    intro taken l rest noElse whole
    apply noElse
    rw [whole, List.length_cons]
    omega
  fun_induction keptEnd depth taken ts with
  | case1 => simp at h
  | case2 depth taken l rest hl ih =>
      have read := ih h (behind noElse)
      simp [keptEnd, hl, read]
  | case3 => simp at h
  | case4 depth taken l rest hl inside ends =>
      have follows : elseFollows (rest ++ us) = elseFollows rest := by
        apply elseFollows_append
        rintro rfl
        exact noElse (KeptEnd.ends.inj h).symm
      rw [List.cons_append, keptEnd, hl]
      simp only [inside, follows, ends, if_true, if_false, h]
  | case5 depth taken l rest hl inside goesOn ih =>
      have follows : elseFollows (rest ++ us) = elseFollows rest := by
        apply elseFollows_append
        rintro rfl
        simp [keptEnd] at h
      have read := ih h (behind noElse)
      rw [List.cons_append, keptEnd, hl]
      simp only [inside, follows, goesOn, if_false, read, Bool.false_eq_true]
  | case6 taken l rest hl => simpa [keptEnd, hl] using h
  | case7 depth taken l rest hl inside ih =>
      have read := ih h (behind noElse)
      simp [keptEnd, hl, inside, read]
  | case8 depth taken l rest _ _ _ ih =>
      have read := ih h (behind noElse)
      simp [keptEnd, read]

theorem keptReader_local (rule : KeptRule) : (keptReader rule).Local unlessElse := by
  intro ts n s d _ h
  rcases keptReader_eq_ok_iff.mp h with ⟨used, rest, rfl, hend, rfl, rfl⟩
  refine ⟨rest, rfl, List.suffix_append used rest, ?_⟩
  intro us m allowed
  have nonempty : used ≠ [] := List.length_pos_iff.mp (keptEnd_bounds hend).1
  refine ⟨by simp [nonempty], keptReader_eq_ok_iff.mpr ⟨used, rest ++ us, by simp, ?_, rfl, rfl⟩⟩
  apply keptEnd_append hend
  intro whole
  apply allowed
  apply List.eq_nil_of_length_eq_zero
  rw [List.length_append] at whole
  omega

theorem inclusionReader_local : inclusionReader.Local seam := by
  rw [inclusionReader_eq]
  exact (Local.behind fun _ => (local_expect _).andThen (local_expect _)).map

theorem declarationReader_local (levels : Nat) (kind : TerminalKind) :
    (declarationReader levels kind).Local seam := by
  rw [declarationReader_eq]
  exact (Declaration.reader_local levels kind).map

theorem gateCallReader_local (levels : Nat) : (gateCallReader levels).Local seam := by
  rw [gateCallReader_eq]
  exact (GateCall.reader_local levels).map

/-- What kind of statement opens with a name is judged alike, whatever follows the statement. -/
theorem namedReader_local (levels : Nat) {l : Lexeme} {ts : List Lexeme} {n : Nat} {s : Statement}
    {d : Cursor} (hts : Sourced (l :: ts)) (hl : l.kind = .identifier)
    (h : namedReader levels (facing (l :: ts) n) = .ok (s, d)) :
    ∃ rest, d = facing rest n ∧ rest <:+ l :: ts ∧ ∀ us m, unlessElse rest us → l :: ts ≠ [] ∧
      namedReader levels (facing (l :: ts ++ us) m) = .ok (s, facing (rest ++ us) m) := by
  unfold namedReader at h
  rw [text_facing_cons, next_facing_cons, ahead_facing] at h
  split at h
  case h_1 rule hrule =>
    apply (keptReader_local rule).of_eq hts h
    intro us m _
    simp [namedReader, hrule]
  case h_2 hrule =>
    split at h
    case isTrue assigned =>
      have assignment : (Reader.map assignment (Assignment.reader levels)).Local unlessElse :=
        (Assignment.reader_local levels).map
      apply assignment.of_eq hts h
      intro us m _
      simp only [namedReader, List.cons_append, text_facing_cons, hrule, next_facing_cons,
        ahead_facing, Indexed.assigns_append assigned us, if_true]
      rfl
    case isFalse =>
      rw [gateCallReader_eq] at h
      rcases Reader.map_eq_ok_iff.mp h with ⟨call, _, hcall⟩
      apply (gateCallReader_local levels).of_eq hts h
      intro us m _
      simp [namedReader, hrule, GateCall.not_assigns hts hl hcall us]

theorem reader_local (levels : Nat) : (reader levels).Local unlessElse := by
  intro ts n s d hts h
  cases ts with
  | nil => simp [reader] at h
  | cons l ts =>
      unfold reader at h
      rw [kind?_facing_cons] at h
      split at h
      case h_1 hkind =>
        apply inclusionReader_local.of_eq hts h
        intro us m _
        simp [reader, Option.some.inj hkind]
      case h_2 hkind =>
        apply (declarationReader_local levels .qreg).of_eq hts h
        intro us m _
        simp [reader, Option.some.inj hkind]
      case h_3 hkind =>
        apply (declarationReader_local levels .creg).of_eq hts h
        intro us m _
        simp [reader, Option.some.inj hkind]
      case h_4 hkind =>
        apply (keptReader_local .measureArrowAssignment).of_eq hts h
        intro us m _
        simp [reader, Option.some.inj hkind]
      case h_9 hkind =>
        have hl := Option.some.inj hkind
        obtain ⟨rest, hd, suffix, again⟩ := namedReader_local levels hts hl h
        refine ⟨rest, hd, suffix, ?_⟩
        intro us m allowed
        refine ⟨by simp, ?_⟩
        rw [← (again us m allowed).2]
        simp [reader, hl]
      case h_10 => simp at h
      -- the four words that open a modifier
      all_goals
        rename_i hkind
        apply (gateCallReader_local levels).of_eq hts h
        intro us m _
        simp [reader, Option.some.inj hkind]

end Statement

/-! ### Items and elements -/

namespace Item

open Statement (unlessElse)

theorem looksAtHead_atItem : LooksAtHead atItem := by
  intro ts us n m nonempty
  cases ts with
  | nil => exact absurd rfl nonempty
  | cons l ts => simp [atItem]

/-- The items of a scope are followed at least by its closing brace. -/
theorem readerWith_local {statement : Reader Statement} {inner : Reader Item}
    (hstatement : statement.Local unlessElse) (hinner : inner.Local unlessElse) :
    (readerWith statement inner).Local unlessElse := by
  have inScope : inner.Local Inside := hinner.imp fun _ _ left empty => absurd empty left
  have scopes : (scopeReader inner).Local unlessElse :=
    (Local.behind fun _ => (inScope.many looksAtHead_atItem).andThen (local_expect _)).map
  exact Local.congr (.branch (looksAtHead_isAt _) scopes hstatement.map) fun _ _ _ => readerWith_iff

theorem reader_local (levels : Nat) : (reader levels).Local unlessElse := by
  induction levels with
  | zero => exact readerWith_local (Statement.reader_local 0) Reader.local_tooDeep
  | succ levels ih => exact readerWith_local (Statement.reader_local (levels + 1)) ih

end Item

theorem Element.reader_local (levels : Nat) : (reader levels).Local Statement.unlessElse := by
  have number : specifierReader.Local Inside :=
    .branch (looksAtHead_isAt _) (local_expect _) (local_expect _)
  have version : versionReader.Local Statement.unlessElse :=
    Local.congr (Local.map (.behind fun _ => number.andThen (local_expect _)))
      fun _ _ _ => versionReader_iff
  rw [reader_eq]
  exact version.branch (looksAtHead_isAt _) (Item.reader_local levels).map

end QasmDiagram
