/-
Module: QasmDiagram.Proofs.Program.Nesting
Purpose: The expressions that programs hold are those of the precedence grammar within the limit on
  nesting: every expression read is canonical and nests within the limit, counting the scopes around
  it, and every canonical expression is read back if it does, and is refused for its depth if not.
Trusted boundary: none
Main exports: Expression.parts, Program.expressions, Item.enclosed,
  Program.reads_precedence_grammar
-/
import QasmDiagram.Proofs.Program.Elements

namespace QasmDiagram

open Lexeme Cursor Rule

/-! ### Every expression of a program -/

namespace Expression

mutual

/-- An expression and all expressions inside it. -/
def parts : Expression → List Expression
  | .binary lhs op rhs => .binary lhs op rhs :: (lhs.parts ++ rhs.parts)
  | .literal leaf => [.literal leaf]
  | .paren inner => .paren inner :: inner.parts
  | .unary op operand => .unary op operand :: operand.parts
  | .call name arguments => .call name arguments :: partsAll arguments

/-- The expressions of a list and all expressions inside them. -/
def partsAll : List Expression → List Expression
  | [] => []
  | first :: others => first.parts ++ partsAll others

end

mutual

/-- What stands inside an admitted expression is admitted. -/
theorem admitted_parts {levels : Nat} (e : Expression) (h : e.Admitted levels) :
    ∀ part ∈ e.parts, part.Admitted levels := by
  intro part hpart
  cases e with
  | binary lhs op rhs =>
      obtain ⟨canonical, fits⟩ := id h
      rw [Canonical] at canonical
      rw [nesting, nestingBelow] at fits
      rw [parts, List.mem_cons, List.mem_append] at hpart
      rcases hpart with rfl | hpart | hpart
      · exact h
      · exact admitted_parts lhs ⟨canonical.2.2.1, by rw [nesting]; omega⟩ part hpart
      · exact admitted_parts rhs ⟨canonical.2.2.2.1, by rw [nesting]; omega⟩ part hpart
  | literal leaf =>
      rw [parts, List.mem_singleton] at hpart
      exact hpart ▸ h
  | paren inner =>
      obtain ⟨canonical, fits⟩ := id h
      rw [Canonical] at canonical
      rw [nesting, nestingBelow] at fits
      rw [parts, List.mem_cons] at hpart
      rcases hpart with rfl | hpart
      · exact h
      · exact admitted_parts inner ⟨canonical, by rw [nesting]; omega⟩ part hpart
  | unary op operand =>
      obtain ⟨canonical, fits⟩ := id h
      rw [Canonical] at canonical
      rw [nesting, nestingBelow] at fits
      rw [parts, List.mem_cons] at hpart
      rcases hpart with rfl | hpart
      · exact h
      · exact admitted_parts operand ⟨canonical.2.2.2, by rw [nesting]; omega⟩ part hpart
  | call name arguments =>
      obtain ⟨canonical, fits⟩ := id h
      rw [Canonical] at canonical
      rw [nesting, nestingBelow] at fits
      rw [parts, List.mem_cons] at hpart
      rcases hpart with rfl | hpart
      · exact h
      · exact admitted_partsAll arguments canonical.2 (by omega) part hpart

/-- What stands inside admitted expressions is admitted. -/
theorem admitted_partsAll {levels : Nat} (items : List Expression) (canonical : CanonicalAll items)
    (fits : nestingAll items ≤ levels) : ∀ part ∈ partsAll items, part.Admitted levels := by
  intro part hpart
  cases items with
  | nil => simp [partsAll] at hpart
  | cons first others =>
      rw [CanonicalAll] at canonical
      rw [nestingAll] at fits
      rw [partsAll, List.mem_append] at hpart
      rcases hpart with hpart | hpart
      · exact admitted_parts first ⟨canonical.1, by rw [nesting]; omega⟩ part hpart
      · exact admitted_partsAll others canonical.2 (by omega) part hpart

end

end Expression

namespace Program

/-- All expressions of a program, each with the number of scopes around it. -/
def expressions (p : Program) : List (Nat × Expression) :=
  p.children.flatMap fun element =>
    element.held.flatMap fun (scopes, e) => e.parts.map fun part => (scopes, part)

theorem mem_expressions {p : Program} {scopes : Nat} {part : Expression} :
    (scopes, part) ∈ p.expressions ↔
      ∃ element ∈ p.children, ∃ e, (scopes, e) ∈ element.held ∧ part ∈ e.parts := by
  simp only [expressions, List.mem_flatMap, List.mem_map, Prod.mk.injEq]
  constructor
  · rintro ⟨element, helement, ⟨k, e⟩, he, part', hpart, rfl, rfl⟩
    exact ⟨element, helement, e, he, hpart⟩
  · rintro ⟨element, helement, e, he, hpart⟩
    exact ⟨element, helement, (scopes, e), he, part, hpart, rfl, rfl⟩

/-- Every expression of a program that is read is canonical and nests within the limit, counting the
scopes around it. -/
theorem canonical_of_ofText {source : String} {p : Program} (h : ofText source = .ok p)
    {scopes : Nat} {part : Expression} (hpart : (scopes, part) ∈ p.expressions) :
    part.Canonical ∧ scopes + part.nesting ≤ nestingLimit := by
  obtain ⟨_, _, elements, owns, _, rfl, goods, _⟩ := exists_owns h
  rcases mem_expressions.mp hpart with ⟨element, helement, e, he, hpart⟩
  rcases List.mem_append.mp helement with helement | helement
  · obtain ⟨_, _, _, admitted⟩ := exists_of_forall₂ goods helement
    obtain ⟨canonical, fits⟩ := admitted scopes e he
    have inside : e.Admitted (nestingLimit - scopes) := ⟨canonical, by omega⟩
    obtain ⟨canonical, fits⟩ := Expression.admitted_parts e inside part hpart
    have positive : 0 < part.nesting := by
      rw [Expression.nesting]
      omega
    exact ⟨canonical, by omega⟩
  · obtain rfl : element = .endOfInput := by simpa using helement
    simp [Element.held] at he

end Program

/-! ### A call within scopes -/

/-- The call that rotates `q` by the value of an expression. -/
def GateCall.rotationBy (e : Expression) : GateCall :=
  ⟨[], "rz", some [e], none, [.indexed ⟨"q", []⟩]⟩

/-- An item within a number of scopes that hold nothing else. -/
def Item.enclosed : Nat → Item → Item
  | 0, i => i
  | scopes + 1, i => .scope [enclosed scopes i]

/-- The program that holds nothing but the call within scopes. -/
def Program.enclosedRotation (scopes : Nat) (e : Expression) : Program :=
  ⟨[.item (.enclosed scopes (.statement (.gateCall (.rotationBy e)))), .endOfInput]⟩

/-- The source text of such a call behind opening braces, with as many closing braces behind it. -/
def rotationSource (scopes : Nat) (e : Expression) : String :=
  String.ofList (List.replicate scopes '\x7b') ++ ("rz(" ++ e.render ++ ") q;") ++
    String.ofList (List.replicate scopes '\x7d')

/-- The lexemes of the call. -/
def rotationLexemes (e : Expression) : List Lexeme :=
  ⟨.identifier, "rz", "", 0⟩ :: ofMark .leftParen ::
    (e.lexemes ++ [ofMark .rightParen, ⟨.identifier, "q", " ", 0⟩, ofMark .semicolon])

/-- The lexemes of the call within scopes. -/
def enclosedLexemes (scopes : Nat) (e : Expression) : List Lexeme :=
  List.replicate scopes (ofMark .leftBrace) ++ rotationLexemes e ++
    List.replicate scopes (ofMark .rightBrace)

theorem enclosedLexemes_succ (scopes : Nat) (e : Expression) : enclosedLexemes (scopes + 1) e =
    ofMark .leftBrace :: (enclosedLexemes scopes e ++ [ofMark .rightBrace]) := by
  rw [enclosedLexemes, List.replicate_succ, List.replicate_succ', enclosedLexemes]
  simp only [List.cons_append, List.append_assoc]

/-- The lexemes of the call within scopes open a scope or the call. -/
theorem exists_enclosedLexemes_cons (scopes : Nat) (e : Expression) :
    ∃ m ms, enclosedLexemes scopes e = m :: ms ∧ m.kind ≠ .mark .rightBrace ∧
      m.kind ≠ .keyword .version := by
  cases scopes with
  | zero => exact ⟨⟨.identifier, "rz", "", 0⟩, _, rfl, by decide, by decide⟩
  | succ scopes => exact ⟨ofMark .leftBrace, _, enclosedLexemes_succ scopes e, by decide, by decide⟩

theorem spelled_replicate {m : Mark} (hm : m ∈ brackets) (count : Nat) (after : List Char) :
    Spelled (List.replicate count (ofMark m)) after := by
  induction count with
  | zero => trivial
  | succ count ih => exact ⟨.nil, stands_bracket hm _, ih⟩

theorem written_replicate {m : Mark} {c : Char} (hm : m.text.toList = [c]) (count : Nat) :
    written (List.replicate count (ofMark m)) = List.replicate count c := by
  induction count with
  | zero => rfl
  | succ count ih =>
      rw [List.replicate_succ, List.replicate_succ, written_cons, ih]
      simp [ofMark, hm]

/-- The lexemes of the call are found in its text. -/
theorem exists_rotation_lexemes {e : Expression} (h : e.Canonical) (scopes : Nat) :
    ∃ us m, Lexeme.ofText (rotationSource scopes e) = .ok (us, m) ∧
      us.map token = (enclosedLexemes scopes e).map token := by
  have isBreak : .leftParen ∈ breakMarks ∧ .rightParen ∈ breakMarks := by decide
  have braces : .leftBrace ∈ brackets ∧ .rightBrace ∈ brackets ∧ .semicolon ∈ brackets := by decide
  have gate : Prints "rz" [⟨.identifier, "rz", "", 0⟩] :=
    Prints.single (l := ⟨.identifier, "rz", "", 0⟩) (by decide)
  have qubit : Prints "q" [⟨.identifier, "q", "", 0⟩] :=
    Prints.single (l := ⟨.identifier, "q", "", 0⟩) (by decide)
  have front := gate.append_trails (h.prints.spells.between isBreak.1 isBreak.2)
  have call := front.append_blank qubit
  have lexemes : rotationLexemes e = relead "" ([⟨.identifier, "rz", "", 0⟩] ++
      ofMark .leftParen :: (relead "" e.lexemes ++ [ofMark .rightParen]) ++
      relead " " [⟨.identifier, "q", "", 0⟩]) ++ [ofMark .semicolon] := by
    simp [rotationLexemes]
  have text : (rotationSource scopes e).toList = written (enclosedLexemes scopes e) ++ [] := by
    rw [rotationSource, enclosedLexemes, lexemes, written_append, written_append, written_append,
      call.written_eq, written_replicate (c := '\x7b') rfl, written_replicate (c := '\x7d') rfl]
    simp [ofMark, Mark.text]
  have spelled : Spelled (enclosedLexemes scopes e) [] := by
    rw [enclosedLexemes, lexemes, spelled_append, spelled_append, spelled_append]
    refine ⟨⟨spelled_replicate braces.1 _ _, call.spelled _ ?_, .nil, stands_bracket braces.2.2 _,
      trivial⟩, spelled_replicate braces.2.1 _ _⟩
    exact opensBreak_mark (m := .semicolon) (by decide) _
  obtain ⟨us, m, found, faces⟩ := ofText_of_spelled text spelled .nil
  exact ⟨us, m, found, map_token_of_map_face faces⟩

/-! ### Reading the call -/

open Reader (Fits)

/-- The operand of the call is read up to the semicolon. -/
theorem operandsReader_qubit {levels n : Nat} {q r : Lexeme} {rest : List Lexeme}
    (hq : q.kind = .identifier) (hr : r.kind = .mark .semicolon) :
    GateCall.operandsReader levels (facing (q :: r :: rest) n) =
      .ok ([.indexed ⟨q.text, []⟩], facing (r :: rest) n) := by
  have indices : Reader.many Indexed.atBracket (Index.reader levels) (facing (r :: rest) n) =
      .ok ([], facing (r :: rest) n) :=
    Reader.many_eq_ok_iff.mpr (.stop (by simp [Indexed.atBracket, hr]))
  have name : Indexed.reader levels (facing (q :: r :: rest) n) =
      .ok (⟨q.text, []⟩, facing (r :: rest) n) := by
    rw [Indexed.reader_eq]
    exact Reader.map_eq_ok_iff.mpr ⟨(q.text, []), rfl,
      Reader.andThen_eq_ok_iff.mpr ⟨_, Reader.expect_facing_cons hq, indices⟩⟩
  have target : Operand.reader levels (facing (q :: r :: rest) n) =
      .ok (.indexed ⟨q.text, []⟩, facing (r :: rest) n) := by
    simp [Operand.reader, hq, name, pure, Except.pure]
  have operands : Reader.commaSeparated (Operand.reader levels) (facing (q :: r :: rest) n) =
      .ok ([.indexed ⟨q.text, []⟩], facing (r :: rest) n) := by
    refine Reader.commaSeparated_eq_ok_iff.mpr ⟨_, _, [], rfl, target, .stop ?_⟩
    simp [Reader.atComma, hr]
  simp [GateCall.operandsReader, Reader.branch, hq, operands]

/-- The call is read if as many levels are left as its expression takes. -/
theorem statementReader_rotation {e : Expression} (h : e.Canonical) (levels : Nat)
    {us rest : List Lexeme} {n : Nat} (htokens : us.map token = (rotationLexemes e).map token) :
    Fits levels e.nesting (Statement.reader levels (facing (us ++ rest) n))
      (.ok (.gateCall (.rotationBy e), facing rest n)) := by
  obtain ⟨g, us, rfl, hg, htext, hus⟩ := exists_cons_of_map_token htokens
  obtain ⟨p, us, rfl, hp, _, hus⟩ := exists_cons_of_map_token hus
  obtain ⟨vs, ws, rfl, hvs, hws⟩ := exists_append_of_map_token hus
  obtain ⟨c, ws, rfl, hc, _, hws⟩ := exists_cons_of_map_token hws
  obtain ⟨q, ws, rfl, hq, hname, hws⟩ := exists_cons_of_map_token hws
  obtain ⟨r, ws, rfl, hr, _, hws⟩ := exists_cons_of_map_token hws
  obtain rfl : ws = [] := by simpa using hws
  have cursor : g :: p :: (vs ++ [c, q, r]) ++ rest = g :: p :: (vs ++ c :: q :: r :: rest) := by simp
  have gate : g.kind = .identifier := hg
  have opening : p.kind = .mark .leftParen := hp
  have closing : c.kind = .mark .rightParen := hc
  have qubit : q.kind = .identifier := hq
  have ending : r.kind = .mark .semicolon := hr
  have named : Statement.reader levels (facing (g :: p :: (vs ++ c :: q :: r :: rest)) n) =
      Statement.gateCallReader levels (facing (g :: p :: (vs ++ c :: q :: r :: rest)) n) := by
    simp [Statement.reader, Statement.namedReader, gate, htext, opening, KeptRule.ofWord?,
      Indexed.assigns]
  have modifiers : Reader.many GateCall.atModifier (GateCall.modifierReader levels)
      (facing (g :: p :: (vs ++ c :: q :: r :: rest)) n) =
      .ok ([], facing (g :: p :: (vs ++ c :: q :: r :: rest)) n) :=
    Reader.many_eq_ok_iff.mpr (.stop (by simp [GateCall.atModifier, gate, GateCall.opensModifier]))
  have single : Expression.CanonicalAll [e] := Expression.canonicalAll_iff.mpr (by simpa using h)
  have list : Fits levels (Expression.nestingAll [e])
      (Expression.listReader (Expression.reader levels) (facing (vs ++ c :: q :: r :: rest) n))
      (.ok ([e], facing (c :: q :: r :: rest) n)) :=
    Expression.listReader_complete single levels hvs ⟨c, _, rfl, by simp [closing]⟩
  have items : Fits levels e.nesting
      (GateCall.argumentsReader levels (facing (p :: (vs ++ c :: q :: r :: rest)) n))
      (.ok (some [e], facing (q :: r :: rest) n)) := by
    have depth : Expression.nestingAll [e] = e.nesting := by
      simp [Expression.nestingAll, Expression.nesting]
    rw [← depth]
    simp only [GateCall.argumentsReader, isAt_facing_cons, opening, decide_true, if_true,
      next_facing_cons]
    apply (list.bind _).trans_eq
    simp [Reader.expect_facing_cons closing, pure, Except.pure]
  have size : designatorReader levels (facing (q :: r :: rest) n) =
      .ok (none, facing (q :: r :: rest) n) := by
    simp [designatorReader, qubit, pure, Except.pure]
  rw [cursor, named, Statement.gateCallReader_eq, GateCall.reader_eq]
  simp only [Reader.map, Reader.andThen, GateCall.namedReader, modifiers,
    Reader.expect_facing_cons gate, Except.ok_bind, bind_assoc, pure_bind]
  apply (items.bind _).trans_eq
  simp [size, operandsReader_qubit qubit ending, Reader.expect_facing_cons ending, pure, Except.pure,
    GateCall.rotationBy, htext, hname]

/-! ### Reading the scopes around it -/

namespace Item

/-- The reader of the items of a scope. -/
def innerReader : Nat → Reader Item
  | 0 => Reader.tooDeep
  | levels + 1 => reader levels

theorem reader_eq (levels : Nat) :
    reader levels = readerWith (Statement.reader levels) (innerReader levels) := by
  cases levels <;> rfl

/-- An item in a scope needs one level more than outside of it. -/
theorem fits_innerReader {needed : Nat} {c : Cursor} {y : Except ParseError (Item × Cursor)}
    (h : ∀ levels, Fits levels needed (reader levels c) y) (levels : Nat) :
    Fits levels (1 + needed) (innerReader levels c) y := by
  cases levels with
  | zero => exact Fits.tooDeep c
  | succ levels => exact (h levels).succ

/-- A scope with one item fits if the item does. -/
theorem fits_scope {levels needed n : Nat} {l m r : Lexeme} {vs rest : List Lexeme} {i : Item}
    (hl : l.kind = .mark .leftBrace) (hr : r.kind = .mark .rightBrace)
    (hm : m.kind ≠ .mark .rightBrace)
    (h : Fits levels needed (innerReader levels (facing (m :: vs ++ r :: rest) n))
      (.ok (i, facing (r :: rest) n))) :
    Fits levels needed (reader levels (facing (l :: (m :: vs ++ r :: rest)) n))
      (.ok (.scope [i], facing rest n)) := by
  have step : Fits levels needed
      (scopeStep (innerReader levels) [] (facing (m :: vs ++ r :: rest) n))
      (.ok (some ([i], facing (r :: rest) n))) := by
    simp only [scopeStep, List.cons_append, head?_facing_cons, Option.isNone_some, Bool.false_or,
      isAt_facing_cons, hm, decide_false, Bool.false_eq_true, if_false]
    exact h.bind _
  have shorter : (r :: rest).length < (m :: vs ++ r :: rest).length := by
    simp only [List.cons_append, List.length_cons, List.length_append]
    omega
  have stops : Reader.repeatFrom (scopeStep (innerReader levels)) [i] (facing (r :: rest) n) =
      .ok ([i], facing (r :: rest) n) :=
    Reader.repeatFrom_of_none (by simp [scopeStep, hr])
  have items := (step.repeatFrom shorter).trans_eq stops
  rw [reader_eq]
  simp only [readerWith, isAt_facing_cons, hl, decide_true, if_true, next_facing_cons]
  apply (items.bind _).trans_eq
  simp [hr, pure, Except.pure]

/-- A scoped call is read if as many levels are left as its scopes and its expression take. -/
theorem reader_enclosed {e : Expression} (h : e.Canonical) (scopes levels : Nat)
    {us rest : List Lexeme} {n : Nat}
    (htokens : us.map token = (enclosedLexemes scopes e).map token) :
    Fits levels (scopes + e.nesting) (reader levels (facing (us ++ rest) n))
      (.ok (enclosed scopes (.statement (.gateCall (.rotationBy e))), facing rest n)) := by
  induction scopes generalizing levels us rest with
  | zero =>
      have bare : us.map token = (rotationLexemes e).map token := by
        simpa [enclosedLexemes] using htokens
      obtain ⟨g, us, rfl, hg, _, _⟩ := exists_cons_of_map_token bare
      have gate : g.kind = .identifier := hg
      rw [reader_eq, Nat.zero_add]
      simp only [readerWith, List.cons_append, isAt_facing_cons, gate, reduceCtorEq, decide_false,
        Bool.false_eq_true, if_false]
      exact (statementReader_rotation h levels bare).bind _
  | succ scopes ih =>
      rw [enclosedLexemes_succ] at htokens
      obtain ⟨l, us, rfl, hl, _, hus⟩ := exists_cons_of_map_token htokens
      obtain ⟨vs, ws, rfl, hvs, hws⟩ := exists_append_of_map_token hus
      obtain ⟨r, ws, rfl, hr, _, hnil⟩ := exists_cons_of_map_token hws
      obtain rfl : ws = [] := by simpa using hnil
      have nested : ∀ levels, Fits levels (scopes + e.nesting)
          (reader levels (facing (vs ++ r :: rest) n))
          (.ok (enclosed scopes (.statement (.gateCall (.rotationBy e))), facing (r :: rest) n)) :=
        fun levels => ih levels hvs
      have inside := fits_innerReader nested levels
      obtain ⟨m, ms, hfirst, noBrace, _⟩ := exists_enclosedLexemes_cons scopes e
      rw [hfirst] at hvs
      obtain ⟨m', vs, rfl, hm, _, _⟩ := exists_cons_of_map_token hvs
      have scope := fits_scope hl hr (hm ▸ noBrace) inside
      have cursor : l :: (m' :: vs ++ [r]) ++ rest = l :: (m' :: vs ++ r :: rest) := by simp
      have needed : scopes + 1 + e.nesting = 1 + (scopes + e.nesting) := by omega
      rw [cursor, needed]
      exact scope

end Item

namespace Program

/-- The call within scopes is read as a whole program. -/
theorem ofText_rotationSource {e : Expression} (h : e.Canonical) (scopes : Nat) :
    Fits nestingLimit (scopes + e.nesting) (ofText (rotationSource scopes e))
      (.ok (enclosedRotation scopes e)) := by
  obtain ⟨us, n, found, htokens⟩ := exists_rotation_lexemes h scopes
  have source : ofText (rotationSource scopes e) = ofCursor (facing us n) := by
    simp only [ofText, found, Except.ok_bind]
    rfl
  obtain ⟨m, ms, hfirst, _, noVersion⟩ := exists_enclosedLexemes_cons scopes e
  obtain ⟨l, us', hus, hl, _⟩ := exists_cons_of_map_token (hfirst ▸ htokens)
  have other : l.kind ≠ .keyword .version := hl ▸ noVersion
  have read : Fits nestingLimit (scopes + e.nesting) (Item.reader nestingLimit (facing us n))
      (.ok (.enclosed scopes (.statement (.gateCall (.rotationBy e))), facing [] n)) := by
    rw [← List.append_nil us]
    exact Item.reader_enclosed h scopes nestingLimit htokens
  have step : Fits nestingLimit (scopes + e.nesting) (elementStep nestingLimit [] (facing us n))
      (.ok (some ([.item (.enclosed scopes (.statement (.gateCall (.rotationBy e))))],
        facing [] n))) := by
    rw [hus] at read ⊢
    simp only [elementStep, Element.reader, head?_facing_cons, Option.isNone_some,
      Bool.false_eq_true, if_false, isAt_facing_cons, other, decide_false, bind_assoc]
    exact read.bind _
  have shorter : ([] : List Lexeme).length < us.length := by simp [hus]
  have ends : ∀ elements, Reader.repeatFrom (elementStep nestingLimit) elements (facing [] n) =
      .ok (elements, facing [] n) := fun elements => Reader.repeatFrom_of_none rfl
  have elements := (step.repeatFrom shorter).trans_eq (ends _)
  rw [source]
  exact elements.bind _

/-- The name `a` over the negative of the name `b`. -/
def quotient : Expression :=
  .binary (.literal ⟨.identifier, "a"⟩) ⟨.slash, "/"⟩
    (.unary ⟨.minus, "-"⟩ (.literal ⟨.identifier, "b"⟩))

theorem canonical_quotient : quotient.Canonical := by
  decide

/-- Programs hold the expressions of the precedence grammar within the limit, and no others: each
that is read is canonical and nests within the limit, counting the scopes around it, and each that is
canonical is read back from its text within any number of scopes if it nests within the limit there,
and is refused for its depth if it does not. -/
theorem reads_precedence_grammar :
    (∀ source p, ofText source = .ok p → ∀ scopes e, (scopes, e) ∈ p.expressions →
      e.Canonical ∧ scopes + e.nesting ≤ 256) ∧
    ∀ e : Expression, e.Canonical → ∀ scopes,
      (scopes + e.nesting ≤ 256 →
        ofText (rotationSource scopes e) = .ok (enclosedRotation scopes e)) ∧
      (256 < scopes + e.nesting →
        ∃ line, ofText (rotationSource scopes e) = .error (.nestingTooDeep line)) :=
  ⟨fun _ _ h _ _ he => canonical_of_ofText h he, fun _ h scopes => ofText_rotationSource h scopes⟩

theorem reads_precedence_grammar_quotient :
    (253 + quotient.nesting ≤ 256 ∧
      ofText (rotationSource 253 quotient) = .ok (enclosedRotation 253 quotient)) ∧
    (256 < 254 + quotient.nesting ∧
      ∃ line, ofText (rotationSource 254 quotient) = .error (.nestingTooDeep line)) ∧
    (2, quotient) ∈ (enclosedRotation 2 quotient).expressions ∧
      quotient.Canonical ∧ 2 + quotient.nesting ≤ 256 := by
  have reads := reads_precedence_grammar.2 quotient canonical_quotient
  have held : (2, quotient) ∈ (enclosedRotation 2 quotient).expressions := by decide
  have source := (reads 2).1 (by decide)
  exact ⟨⟨by decide, (reads 253).1 (by decide)⟩, ⟨by decide, (reads 254).2 (by decide)⟩, held,
    reads_precedence_grammar.1 _ _ source 2 quotient held⟩

end Program

end QasmDiagram
