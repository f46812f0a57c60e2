/-
Module: QasmDiagram.Proofs.Program.MeasuredTargets
Purpose: The registers that a measurement can be assigned to. Expressions in brackets are read behind
  every name as they are behind the operand of a gate call, and no bracket hides the sign of the
  assignment. So every register that is declared receives a measurement, but for those named by a
  word that opens a statement kept as text.
Trusted boundary: none
Main exports: Reader.Gives, Index.isPlain?_lexemes, Index.reader_list, Indexed.reader_lists,
  Indexed.assigns_lists, Program.measurement_assigned_unless_kept
-/
import QasmDiagram.Proofs.Program.KeptOperands
import QasmDiagram.Proofs.Program.Nesting

namespace QasmDiagram

open Lexeme Cursor Rule Expression

/-! ### What holds of every value that is read -/

namespace Reader

variable {α β : Type} {R R' : Reader α} {S : Reader β} {P : α → Prop} {Q : β → Prop}

/-- Every value that is read has the property. -/
def Gives (R : Reader α) (P : α → Prop) : Prop :=
  ∀ ⦃c v d⦄, R c = .ok (v, d) → P v

theorem gives_any (R : Reader α) : R.Gives fun _ => True :=
  fun _ _ _ _ => trivial

theorem Gives.map {f : α → β} (h : R.Gives fun v => Q (f v)) : (R.map f).Gives Q := by
  intro c w d hread
  rcases map_eq_ok_iff.mp hread with ⟨v, rfl, hv⟩
  exact h hv

theorem Gives.andThen (hR : R.Gives P) (hS : S.Gives Q) :
    (Reader.andThen R S).Gives fun p => P p.1 ∧ Q p.2 := by
  rintro c ⟨v, w⟩ d hread
  rcases andThen_eq_ok_iff.mp hread with ⟨c', hfirst, hsecond⟩
  exact ⟨hR hfirst, hS hsecond⟩

theorem Gives.branch {more : Cursor → Bool} (hR : R.Gives P) (hR' : R'.Gives P) :
    (Reader.branch more R R').Gives P := by
  intro c v d hread
  unfold Reader.branch at hread
  split at hread
  case isTrue => exact hR hread
  case isFalse => exact hR' hread

theorem Gives.many {more : Cursor → Bool} (h : R.Gives P) :
    (Reader.many more R).Gives fun vs => ∀ v ∈ vs, P v := by
  intro c vs d hread
  have run := many_eq_ok_iff.mp hread
  clear hread
  induction run with
  | stop _ => simp
  | stall _ hitem _ => simpa using h hitem
  | next _ hitem _ _ ih => exact List.forall_mem_cons.mpr ⟨h hitem, ih⟩

theorem Gives.commaSeparated (h : R.Gives P) :
    (Reader.commaSeparated R).Gives fun vs => ∀ v ∈ vs, P v := by
  intro c vs d hread
  have others : (Reader.many atComma (afterComma R)).Gives fun vs => ∀ v ∈ vs, P v :=
    Gives.many fun _ _ _ hitem => h hitem
  rcases map_eq_ok_iff.mp (commaSeparated_iff.mp hread) with ⟨p, rfl, hparts⟩
  exact List.forall_mem_cons.mpr (h.andThen others hparts)

end Reader

/-- The index holds an expression, unless it is kept as text. -/
def Index.Filled : Index → Prop
  | .expressions items => items ≠ []
  | .verbatim _ => True

/-- The indices of an operand are filled. -/
def Operand.Filled : Operand → Prop
  | .indexed target => ∀ index ∈ target.indices, index.Filled
  | .hardware _ => True

theorem Index.reader_gives (levels : Nat) : (reader levels).Gives Filled := by
  intro c index d hread
  rw [eq_facing c] at hread
  rcases reader_eq_ok_iff.mp hread with ⟨_, _, plain, _, _, _, hcontent⟩
  cases plain with
  | true =>
      rw [contentReader, if_pos rfl, plainReader] at hcontent
      rcases Reader.map_eq_ok_iff.mp hcontent with ⟨⟨items, _⟩, rfl, hparts⟩
      rcases Reader.andThen_eq_ok_iff.mp hparts with ⟨_, hitems, _⟩
      exact (itemsReader_eq_ok_iff.mp hitems).1
  | false =>
      rcases verbatimReader_eq_ok_iff.mp hcontent with ⟨_, _, _, _, _, _, rfl, _⟩
      trivial

theorem Operand.reader_gives (levels : Nat) : (reader levels).Gives Filled := by
  have target : (Indexed.reader levels).Gives fun target => ∀ index ∈ target.indices, index.Filled := by
    rw [Indexed.reader_eq]
    apply Reader.Gives.map
    intro c p d hread
    exact ((Reader.gives_any _).andThen (Index.reader_gives levels).many hread).2
  intro c operand d hread
  exact Reader.Gives.branch (Reader.Gives.map fun _ _ _ _ => trivial) target.map (reader_iff.mp hread)

/-- A gate call has no empty brackets behind its operands. -/
theorem GateCall.reader_gives (levels : Nat) :
    (reader levels).Gives fun call => ∀ operand ∈ call.operands, operand.Filled := by
  have operands : (operandsReader levels).Gives fun operands =>
      ∀ operand ∈ operands, operand.Filled := by
    refine .branch ?_ (Operand.reader_gives levels).commaSeparated
    intro c operands d hread
    cases hread
    simp
  rw [reader_eq]
  apply Reader.Gives.map
  intro c p d hread
  have parts := (Reader.gives_any _).andThen ((Reader.gives_any _).andThen <|
    (Reader.gives_any _).andThen <| (Reader.gives_any _).andThen <|
      operands.andThen (Reader.gives_any _)) hread
  exact parts.2.2.2.2.1

/-! ### Brackets with expressions -/

namespace Index

variable {levels n : Nat} {items : List Expression} {us rest : List Lexeme}

/-- Neither an operator nor a leaf matters to whether an index is plain. -/
theorem isPlain?_terminal (t : Terminal) (depth : Nat) (rest : List Lexeme) :
    isPlain? depth (t.lexeme :: rest) = isPlain? depth rest := by
  have kind : t.lexeme.kind = t.kind.tokenKind := rfl
  rw [isPlain?, kind]
  cases t.kind <;> rfl

mutual

/-- An expression is passed over: its parentheses are closed, and it has no colon, brace or bracket. -/
theorem isPlain?_lexemes (e : Expression) (depth : Nat) (rest : List Lexeme) :
    isPlain? depth (e.lexemes ++ rest) = isPlain? depth rest := by
  cases e with
  | binary lhs op rhs =>
      rw [lexemes, List.append_assoc, List.cons_append, isPlain?_lexemes lhs, isPlain?_terminal,
        isPlain?_lexemes rhs]
  | literal leaf => exact isPlain?_terminal leaf depth rest
  | paren inner =>
      have inside := isPlain?_lexemes inner (depth + 1) (ofMark .rightParen :: rest)
      rw [lexemes, List.cons_append, List.append_assoc, List.singleton_append]
      simpa [isPlain?, ofMark] using inside
  | unary op operand =>
      rw [lexemes, List.cons_append, isPlain?_terminal, isPlain?_lexemes operand]
  | call name arguments =>
      have inside := isPlain?_lexemesAll arguments (depth + 1) (ofMark .rightParen :: rest)
      rw [lexemes, List.cons_append, List.cons_append, List.append_assoc, List.singleton_append]
      simpa [isPlain?, ofMark] using inside

/-- Expressions with commas between them are passed over. -/
theorem isPlain?_lexemesAll (items : List Expression) (depth : Nat) (rest : List Lexeme) :
    isPlain? depth (lexemesAll items ++ rest) = isPlain? depth rest := by
  match items with
  | [] => rfl
  | [only] => exact isPlain?_lexemes only depth rest
  | first :: second :: others =>
      have behind : isPlain? depth (relead " " (lexemesAll (second :: others)) ++ rest) =
          isPlain? depth (lexemesAll (second :: others) ++ rest) :=
        isPlain?_congr (by simp) depth
      rw [lexemesAll_cons_cons, List.append_assoc, List.cons_append, isPlain?_lexemes first]
      simpa [isPlain?, ofMark] using behind.trans (isPlain?_lexemesAll (second :: others) depth rest)

end

/-- The lexemes of expressions in brackets. -/
theorem exists_of_list_tokens (htokens : us.map token = IndexForm.tokens (.list items)) :
    ∃ l own r, us = l :: (own ++ [r]) ∧ l.kind = .mark .leftBracket ∧
      own.map token = (lexemesAll items).map token ∧ r.kind = .mark .rightBracket := by
  obtain ⟨l, us, rfl, hl, hus⟩ := List.map_eq_cons_iff.mp htokens
  obtain ⟨own, closing, rfl, hown, hclosing⟩ := List.map_eq_append_iff.mp hus
  obtain ⟨r, rfl, hr⟩ := List.map_eq_singleton_iff.mp hclosing
  exact ⟨l, own, r, rfl, congrArg Prod.fst hl, hown, congrArg Prod.fst hr⟩

/-- Expressions in brackets are read back, whatever stands behind. -/
theorem reader_list (nonempty : items ≠ []) (admitted : ∀ e ∈ items, e.Admitted levels)
    (htokens : us.map token = IndexForm.tokens (.list items)) :
    reader levels (facing (us ++ rest) n) = .ok (.expressions items, facing rest n) := by
  obtain ⟨l, own, r, rfl, opens, hown, closes⟩ := exists_of_list_tokens htokens
  have plain : isPlain? 0 (own ++ r :: rest) = some true := by
    have same : (own ++ r :: rest).map token = (lexemesAll items ++ r :: rest).map token := by
      rw [List.map_append, hown, List.map_append]
    rw [isPlain?_congr same, isPlain?_lexemesAll]
    simp [isPlain?, closes]
  refine reader_eq_ok_iff.mpr ⟨l, own ++ r :: rest, true, by simp, opens, plain, ?_⟩
  rw [contentReader, if_pos rfl, plainReader]
  exact Reader.map_eq_ok_iff.mpr ⟨(items, r.text), rfl, Reader.andThen_eq_ok_iff.mpr
    ⟨_, (itemsReader_delimited levels).again ⟨nonempty, admitted⟩ closes hown,
      Reader.expect_facing_cons closes⟩⟩

end Index

/-- No list is empty, and all of their expressions are admitted. -/
def Expression.AdmittedLists (levels : Nat) (lists : List (List Expression)) : Prop :=
  ∀ items ∈ lists, items ≠ [] ∧ ∀ e ∈ items, e.Admitted levels

/-- The tokens of lists of expressions, each in brackets. -/
def IndexForm.listTokens (lists : List (List Expression)) : List (TokenKind × String) :=
  lists.flatMap fun items => IndexForm.tokens (.list items)

namespace Indexed

variable {levels n : Nat} {lists : List (List Expression)} {us rest : List Lexeme}

/-- Lists of expressions in brackets are a run of indices. -/
theorem run_lists (h : AdmittedLists levels lists)
    (htokens : us.map token = IndexForm.listTokens lists)
    (ends : atBracket (facing rest n) = false) :
    Reader.Run atBracket (Index.reader levels) (facing (us ++ rest) n) (lists.map .expressions)
      (facing rest n) := by
  induction lists generalizing us with
  | nil =>
      obtain rfl : us = [] := by simpa [IndexForm.listTokens] using htokens
      exact .stop ends
  | cons items lists ih =>
      rw [IndexForm.listTokens, List.flatMap_cons] at htokens
      obtain ⟨own, behind, rfl, hown, hbehind⟩ := List.map_eq_append_iff.mp htokens
      obtain ⟨nonempty, admitted⟩ := h items (by simp)
      have others : AdmittedLists levels lists :=
        fun items hitems => h items (List.mem_cons_of_mem _ hitems)
      obtain ⟨opens, shorter⟩ : atBracket (facing (own ++ (behind ++ rest)) n) = true ∧
          (behind ++ rest).length < (own ++ (behind ++ rest)).length := by
        obtain ⟨l, own, r, rfl, opens, _⟩ := Index.exists_of_list_tokens hown
        refine ⟨decide_eq_true opens, ?_⟩
        simp only [List.length_append, List.length_cons]
        omega
      rw [List.append_assoc]
      exact .next opens (Index.reader_list nonempty admitted hown) (by simpa using shorter)
        (ih others hbehind)

/-- A name with lists of expressions behind it is read back. -/
theorem reader_lists (h : AdmittedLists levels lists) {l : Lexeme}
    (hl : l.kind = .identifier) (htokens : us.map token = IndexForm.listTokens lists)
    (ends : atBracket (facing rest n) = false) :
    reader levels (facing (l :: us ++ rest) n) =
      .ok (⟨l.text, lists.map .expressions⟩, facing rest n) := by
  rw [reader_eq]
  exact Reader.map_eq_ok_iff.mpr ⟨(l.text, lists.map .expressions), rfl,
    Reader.andThen_eq_ok_iff.mpr ⟨_, Reader.expect_facing_cons hl,
      Reader.many_eq_ok_iff.mpr (run_lists h htokens ends)⟩⟩

/-- Lists of expressions in brackets are passed over in search for the sign of an assignment. -/
theorem assigns_lists (htokens : us.map token = IndexForm.listTokens lists) (rest : List Lexeme) :
    assigns 0 (us ++ rest) = assigns 0 rest := by
  induction lists generalizing us with
  | nil =>
      obtain rfl : us = [] := by simpa [IndexForm.listTokens] using htokens
      rfl
  | cons items lists ih =>
      rw [IndexForm.listTokens, List.flatMap_cons] at htokens
      obtain ⟨own, behind, rfl, hown, hbehind⟩ := List.map_eq_append_iff.mp htokens
      obtain ⟨l, inside, r, rfl, opens, hinside, closes⟩ := Index.exists_of_list_tokens hown
      have plain : ∀ t ∈ inside.map token, t.1 ∉ foreign := hinside ▸ not_foreign_of_mem_all items
      have passed := assigns_bracketed opens plain closes (behind ++ rest)
      have split : l :: (inside ++ [r]) ++ behind ++ rest = l :: (inside ++ r :: (behind ++ rest)) := by
        simp
      rw [split, passed, ih hbehind]

end Indexed

/-! ### The statement that assigns a measurement -/

/-- The number of the first qubit of a register. -/
def Expression.zero : Expression :=
  .literal ⟨.decimalInteger, "0"⟩

/-- The assignment of the measured first qubit of `q` to a name with lists of expressions behind it. -/
def Assignment.measuring (name : String) (lists : List (List Expression)) : Assignment :=
  ⟨⟨name, lists.map .expressions⟩, ⟨.equals, "="⟩, .measure (.indexed ⟨"q", [.expressions [zero]]⟩)⟩

/-- The tokens of the sign of the assignment and of the measurement behind it. -/
def Assignment.measureTokens : List (TokenKind × String) :=
  Mark.equals.token :: (.keyword .measure, "measure") :: (.identifier, "q") ::
    IndexForm.listTokens [[zero]]

theorem Assignment.whole_measure :
    Whole " = measure q[0];" (measureTokens ++ [Mark.semicolon.token]) :=
  ⟨[⟨.mark .equals, "=", " ", 1⟩, ⟨.keyword .measure, "measure", " ", 1⟩,
    ⟨.identifier, "q", " ", 1⟩, ⟨.mark .leftBracket, "[", "", 1⟩, ⟨.integer .decimal, "0", "", 1⟩,
    ⟨.mark .rightBracket, "]", "", 1⟩, ⟨.mark .semicolon, ";", "", 1⟩], 1, by decide +kernel, rfl, rfl⟩

section Measuring

variable {levels n : Nat} {lists : List (List Expression)} {l : Lexeme} {us vs rest : List Lexeme}

/-- A name with lists of expressions behind it is an operand. -/
theorem Operand.reader_lists (h : AdmittedLists levels lists) (hl : l.kind = .identifier)
    (htokens : us.map token = IndexForm.listTokens lists)
    (ends : Indexed.atBracket (facing rest n) = false) :
    reader levels (facing (l :: us ++ rest) n) =
      .ok (.indexed ⟨l.text, lists.map .expressions⟩, facing rest n) := by
  have target := Indexed.reader_lists h hl htokens ends
  rw [List.cons_append] at target ⊢
  simp [reader, hl, target, pure, Except.pure]

/-- The measurement of the first qubit of `q` is read back. -/
theorem AssignedValue.reader_measure (admitted : Expression.zero.Admitted levels)
    (htokens : (l :: vs).map token =
      (.keyword .measure, "measure") :: (.identifier, "q") ::
        (IndexForm.listTokens [[zero]] ++ [Mark.semicolon.token])) :
    closedReader levels (facing (l :: vs) n) =
      .ok (.measure (.indexed ⟨"q", [.expressions [zero]]⟩), facing [] n) := by
  obtain ⟨hl, htokens⟩ := List.cons.inj htokens
  obtain ⟨q, vs, rfl, hq, hvs⟩ := List.map_eq_cons_iff.mp htokens
  obtain ⟨us, closing, rfl, hus, hclosing⟩ := List.map_eq_append_iff.mp hvs
  obtain ⟨r, rfl, hr⟩ := List.map_eq_singleton_iff.mp hclosing
  obtain ⟨name, htext⟩ := Prod.mk.inj hq
  have measures : l.kind = .keyword .measure := congrArg Prod.fst hl
  have closes : r.kind = .mark .semicolon := congrArg Prod.fst hr
  have one : AdmittedLists levels [[zero]] := by simpa [AdmittedLists] using admitted
  have operand := Operand.reader_lists (n := n) one name hus
    (by simp [Indexed.atBracket, closes] : Indexed.atBracket (facing [r] n) = false)
  rw [closedReader, Reader.branch, if_pos (by simp [measures])]
  refine Reader.map_eq_ok_iff.mpr
    ⟨(.indexed ⟨q.text, [.expressions [zero]]⟩, r.text), by rw [htext], ?_⟩
  rw [Reader.behind, next_facing_cons]
  exact Reader.andThen_eq_ok_iff.mpr ⟨_, operand, Reader.expect_facing_cons closes⟩

/-- The assignment of a measurement is read back. -/
theorem Assignment.reader_measuring
    (h : AdmittedLists levels lists) (admitted : Expression.zero.Admitted levels)
    (hl : l.kind = .identifier)
    (hus : us.map token = IndexForm.listTokens lists)
    (hvs : vs.map token = measureTokens ++ [Mark.semicolon.token]) :
    reader levels (facing (l :: us ++ vs) n) = .ok (measuring l.text lists, facing [] n) := by
  obtain ⟨e, vs, rfl, he, hvs⟩ := List.map_eq_cons_iff.mp hvs
  obtain ⟨m, vs, rfl, hm, hvs⟩ := List.map_eq_cons_iff.mp hvs
  obtain ⟨sign, htext⟩ := Prod.mk.inj he
  have target := Indexed.reader_lists (n := n) h hl hus
    (by simp [Indexed.atBracket, sign] : Indexed.atBracket (facing (e :: m :: vs) n) = false)
  have operator : operatorReader (facing (e :: m :: vs) n) =
      .ok (⟨.equals, "="⟩, facing (m :: vs) n) := by
    have role : (facing (e :: m :: vs) n).terminal? TokenKind.assignmentOperator? =
        some ⟨.equals, "="⟩ :=
      Cursor.terminal?_facing.mpr ⟨e, m :: vs, rfl, by rw [sign]; rfl, htext.symm⟩
    rw [operatorReader, role, next_facing_cons]
    rfl
  have value : AssignedValue.closedReader levels (facing (m :: vs) n) = _ :=
    AssignedValue.reader_measure admitted (by rw [List.map_cons, hm, hvs]; rfl)
  rw [reader_eq]
  exact Reader.map_eq_ok_iff.mpr ⟨_, rfl, Reader.andThen_eq_ok_iff.mpr
    ⟨_, target, Reader.andThen_eq_ok_iff.mpr ⟨_, operator, value⟩⟩⟩

/-- Such a statement is read as an assignment, unless its name opens one that is kept as text. -/
theorem Statement.reader_measuring
    (h : AdmittedLists levels lists) (admitted : Expression.zero.Admitted levels)
    (hl : l.kind = .identifier)
    (free : KeptRule.ofWord? l.text = none) (hus : us.map token = IndexForm.listTokens lists)
    (hvs : vs.map token = Assignment.measureTokens ++ [Mark.semicolon.token]) :
    reader levels (facing (l :: us ++ vs) n) =
      .ok (.assignment (.measuring l.text lists), facing [] n) := by
  have assigns : Indexed.assigns 0 (us ++ vs) = true := by
    obtain ⟨e, vs, rfl, he, _⟩ := List.map_eq_cons_iff.mp hvs
    have sign : e.kind = .mark .equals := congrArg Prod.fst he
    rw [Indexed.assigns_lists hus]
    simp [Indexed.assigns, sign]
  have assignment := Assignment.reader_measuring (n := n) h admitted hl hus hvs
  rw [List.cons_append] at assignment ⊢
  simp [reader, hl, namedReader, free, assigns, assignment, pure, Except.pure]

end Measuring

/-- A declaration names an identifier behind its keyword. -/
theorem Declaration.shapeOf_name {levels n : Nat} {kind : TerminalKind} {ts : List Lexeme}
    {decl : Declaration} {d : Cursor} (hts : Sourced ts)
    (h : reader levels kind (facing ts n) = .ok (decl, d)) :
    shapeOf? table decl.name.toList = some (.token .identifier) := by
  rw [reader_eq, Reader.behind] at h
  rcases Reader.map_eq_ok_iff.mp h with ⟨⟨name, others⟩, rfl, parts⟩
  rcases Reader.andThen_eq_ok_iff.mp parts with ⟨c, hname, _⟩
  cases ts with
  | nil => simp [Cursor.next, Reader.expect] at hname
  | cons l ts =>
      rw [next_facing_cons] at hname
      rcases Reader.expect_eq_ok_iff.mp hname with ⟨r, rest, rfl, hr, rfl, _⟩
      exact hr ▸ hts.tail.shapeOf

namespace Program

variable {name text source : String} {lists : List (List Expression)}

/-- The name of a register that is declared is an identifier. -/
theorem shapeOf_of_declared {keyword : Terminal} {bound : Option Expression} {others : List Element}
    (h : ofText source = .ok ⟨.item (.statement (.declaration ⟨keyword, name, bound⟩)) :: others⟩) :
    shapeOf? table name.toList = some (.token .identifier) := by
  obtain ⟨ts, n, d, _, sourced, read⟩ := exists_statement_of_ofText h
  cases Statement.readAs_of_reader read with
  | declaration read =>
      have shape := Declaration.shapeOf_name sourced read
      exact shape

/-- A list of expressions behind an operand of a gate call is not empty, and its expressions are
admitted. -/
theorem admitted_of_gateCall {call : GateCall} {others : List Element}
    (h : ofText source = .ok ⟨.item (.statement (.gateCall call)) :: others⟩) {target : Indexed}
    (operand : .indexed target ∈ call.operands) {items : List Expression}
    (index : .expressions items ∈ target.indices) :
    items ≠ [] ∧ ∀ e ∈ items, e.Admitted nestingLimit := by
  obtain ⟨ts, n, d, _, _, read⟩ := exists_statement_of_ofText h
  have filled : ∀ operand ∈ call.operands, operand.Filled := by
    cases Statement.readAs_of_reader read with
    | gateCall read => exact GateCall.reader_gives nestingLimit read
  refine ⟨filled _ operand _ index, ?_⟩
  intro e he
  have inTarget : e ∈ target.held := List.mem_flatMap.mpr ⟨_, index, he⟩
  have inCall : e ∈ call.held :=
    List.mem_append_right _ (List.mem_flatMap.mpr ⟨_, operand, inTarget⟩)
  have held : (0, e) ∈ expressions ⟨.item (.statement (.gateCall call)) :: others⟩ :=
    mem_expressions.mpr ⟨_, List.mem_cons_self, e, List.mem_map_of_mem inCall,
      by cases e <;> simp [parts]⟩
  obtain ⟨canonical, fits⟩ := canonical_of_ofText h held
  exact ⟨canonical, by omega⟩

/-- Lists of expressions in brackets are continued by what follows them, if they are read behind the
operand of a gate call. -/
theorem whole_of_indexed {call : GateCall} {tail : String} {tokens : List (TokenKind × String)}
    (made : tokensOf text = .ok (IndexForm.listTokens lists))
    (h : ofText ("h q " ++ text ++ ";") =
      .ok ⟨[.item (.statement (.gateCall call)), .endOfInput]⟩)
    (whole : Whole tail tokens) (nonempty : tokens ≠ []) (opens : OpensBreak tail.toList) :
    Whole (text ++ tail) (IndexForm.listTokens lists ++ tokens) := by
  rcases Except.bind_eq_ok_iff.mp made with ⟨⟨ts, n⟩, lexemes, htokens⟩
  have hlists : ts.map token = IndexForm.listTokens lists := Except.ok.inj htokens
  have without : ∀ t ∈ ts.map token, t.1 ≠ .mark .semicolon := by
    intro t ht
    obtain ⟨items, _, ht⟩ := List.mem_flatMap.mp (hlists ▸ ht)
    exact IndexForm.not_semicolon_of_mem _ t ht
  have names : shapeOf? table "q".toList = some (.token .identifier) ∧
      shapeOf? table "h".toList = some (.token .identifier) := by
    decide +kernel
  have source : "h q " ++ text ++ ";" = "h" ++ " " ++ ("q" ++ " " ++ (text ++ ";")) := by
    simp only [String.append_assoc]
    rfl
  rw [← hlists]
  refine whole_of_semicolon lexemes without ?_ whole nonempty opens
  intro us m behind
  obtain ⟨vs, k, joined, same, _⟩ := exists_behind_word names.1 behind
  obtain ⟨t, ht, semicolon⟩ := exists_semicolon_of_gateCall names.2 joined (source ▸ h)
  rw [List.map_cons, same] at ht
  rcases List.mem_cons.mp ht with rfl | ht
  · simp [token] at semicolon
  · exact ⟨t, ht, semicolon⟩

/-- A word of a kept statement frames lists of expressions with the measurement. -/
theorem frames_assigned {rule : KeptRule} (h : KeptRule.ofWord? name = some rule)
    (shape : shapeOf? table name.toList = some (.token .identifier)) :
    Statement.Frames rule name " = measure q[0];" .identifier Assignment.measureTokens where
  shapeOf := shape
  opens := by decide
  reads levels _ ts n := Statement.reader_eq_keptReader_of_ofWord? h levels n ts
  whole := Assignment.whole_measure
  between_ordinary := by decide
  opensBreak := opensBreak_cons (by decide)

/-- Which registers receive a measurement: if a register of a name is declared, and a gate call takes
lists of expressions behind its operand, then the assignment of a measurement to the name with these
lists is read as such; but if the name is a word that opens a statement kept as text, the assignment
is kept as the text that it is. -/
theorem measurement_assigned_unless_kept {size : String} {bound : Option Expression}
    (declared : ofText ("creg " ++ name ++ "[" ++ size ++ "];") = .ok ⟨[
      .item (.statement (.declaration ⟨⟨.creg, "creg"⟩, name, bound⟩)), .endOfInput]⟩)
    (made : tokensOf text = .ok (IndexForm.listTokens lists))
    (indexed : ofText ("h q " ++ text ++ ";") = .ok ⟨[.item (.statement (.gateCall
      ⟨[], "h", none, none, [.indexed ⟨"q", lists.map .expressions⟩]⟩)), .endOfInput]⟩) :
    (KeptRule.ofWord? name = none →
      ofText (name ++ " " ++ text ++ " = measure q[0];") = .ok ⟨[
        .item (.statement (.assignment (.measuring name lists))), .endOfInput]⟩) ∧
    ∀ rule, KeptRule.ofWord? name = some rule →
      ofText (name ++ " " ++ text ++ " = measure q[0];") = .ok ⟨[
        .item (.statement (.kept rule (name ++ " " ++ text ++ " = measure q[0];"))),
        .endOfInput]⟩ := by
  have shape : shapeOf? table name.toList = some (.token .identifier) := shapeOf_of_declared declared
  have whole := whole_of_indexed made indexed Assignment.whole_measure (by simp)
    (opensBreak_cons (by decide))
  constructor
  · intro free
    have admitted : AdmittedLists nestingLimit lists :=
      fun items hitems =>
        admitted_of_gateCall indexed (List.mem_singleton_self _) (List.mem_map_of_mem hitems)
    obtain ⟨ws, n, lexemes, tokens, _⟩ := exists_lexemes_of_word shape whole (by simp)
    obtain ⟨us, vs, rfl, hus, hvs⟩ := List.map_eq_append_iff.mp tokens
    have read := Statement.reader_measuring (l := ⟨.identifier, name, "", 1⟩) (n := n) admitted
      ⟨by decide, by decide⟩ rfl free hus hvs
    rw [List.cons_append] at read
    have first : Element.reader nestingLimit (facing (⟨.identifier, name, "", 1⟩ :: (us ++ vs)) n) =
        .ok (.item (.statement (.assignment (.measuring name lists))), facing [] n) := by
      rw [Element.reader_eq_statement (by simp) (by simp)]
      exact Reader.map_eq_ok_iff.mpr ⟨_, rfl, read⟩
    rw [ofText_of_lexemes lexemes, ofCursor_first first (by simp), ofCursor_nil]
    rfl
  · intro rule kept
    refine kept_of_not_turns (frames_assigned kept shape) whole ?_
    intro t ht
    obtain ⟨items, _, ht⟩ := List.mem_flatMap.mp ht
    exact IndexForm.not_turns_of_mem rfl t ht

/-- A bit of a register receives a measurement, though a comment hides in its indices. A register of
the name `gate` is declared as well, but receives none. -/
theorem measurement_assigned_unless_kept_bit :
    ofText "creg c[2];" = .ok ⟨[.item (.statement (.declaration
        ⟨⟨.creg, "creg"⟩, "c", some (.literal ⟨.decimalInteger, "2"⟩)⟩)), .endOfInput]⟩ ∧
      tokensOf "[0]/*]*/[a, 0]" =
        .ok (IndexForm.listTokens [[.zero], [.literal ⟨.identifier, "a"⟩, .zero]]) ∧
      ofText "c [0]/*]*/[a, 0] = measure q[0];" = .ok ⟨[.item (.statement (.assignment
        (.measuring "c" [[.zero], [.literal ⟨.identifier, "a"⟩, .zero]]))), .endOfInput]⟩ ∧
      ofText "gate [0]/*]*/[a, 0] = measure q[0];" = .ok ⟨[.item (.statement
        (.kept .gate "gate [0]/*]*/[a, 0] = measure q[0];")), .endOfInput]⟩ := by
  have declared : ofText ("creg " ++ "c" ++ "[" ++ "2" ++ "];") = .ok ⟨[
      .item (.statement (.declaration
        ⟨⟨.creg, "creg"⟩, "c", some (.literal ⟨.decimalInteger, "2"⟩)⟩)), .endOfInput]⟩ := by
    decide +kernel
  have declaredGate : ofText ("creg " ++ "gate" ++ "[" ++ "2" ++ "];") = .ok ⟨[
      .item (.statement (.declaration
        ⟨⟨.creg, "creg"⟩, "gate", some (.literal ⟨.decimalInteger, "2"⟩)⟩)), .endOfInput]⟩ := by
    decide +kernel
  have made : tokensOf "[0]/*]*/[a, 0]" =
      .ok (IndexForm.listTokens [[.zero], [.literal ⟨.identifier, "a"⟩, .zero]]) := by
    decide +kernel
  have indexed : ofText ("h q " ++ "[0]/*]*/[a, 0]" ++ ";") = .ok ⟨[.item (.statement (.gateCall
      ⟨[], "h", none, none, [.indexed ⟨"q", [[.zero],
        [.literal ⟨.identifier, "a"⟩, .zero]].map .expressions⟩]⟩)), .endOfInput]⟩ := by
    decide +kernel
  exact ⟨declared, made, (measurement_assigned_unless_kept declared made indexed).1 rfl,
    (measurement_assigned_unless_kept declaredGate made indexed).2 .gate rfl⟩

/-- Not every register that is declared receives a measurement. -/
theorem measured_gate_kept :
    ofText "creg gate[2];" = .ok ⟨[.item (.statement (.declaration
        ⟨⟨.creg, "creg"⟩, "gate", some (.literal ⟨.decimalInteger, "2"⟩)⟩)), .endOfInput]⟩ ∧
      ofText "h q [0];" = .ok ⟨[.item (.statement (.gateCall
        ⟨[], "h", none, none, [.indexed ⟨"q", [.expressions [.zero]]⟩]⟩)), .endOfInput]⟩ ∧
      ofText "gate [0] = measure q[0];" ≠ .ok ⟨[.item (.statement (.assignment
        (.measuring "gate" [[.zero]]))), .endOfInput]⟩ := by
  refine ⟨by decide +kernel, by decide +kernel, ?_⟩
  have kept : ofText "gate [0] = measure q[0];" = .ok ⟨[.item (.statement
      (.kept .gate "gate [0] = measure q[0];")), .endOfInput]⟩ := by
    decide +kernel
  rw [kept]
  simp

end Program

end QasmDiagram
