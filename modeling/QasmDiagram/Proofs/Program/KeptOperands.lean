/-
Module: QasmDiagram.Proofs.Program.KeptOperands
Purpose: The operands of statements kept as text. Such a statement takes every operand that a gate
  call takes, up to its semicolon, unless an index of the operand is a set: the brace that closes the
  set ends the statement, and no statement starts with the bracket behind it.
Trusted boundary: none
Main exports: IndexForm, OperandForm, Statement.keptEnd_ordinary, Statement.takes_semicolon,
  Program.ofCursor_kept, Program.operand_statements_kept_iff
-/
import QasmDiagram.Proofs.Lines
import QasmDiagram.Proofs.Program.Locality
import QasmDiagram.Proofs.Program.Occurrences

namespace QasmDiagram

open Lexeme Cursor Rule Segment

/-! ### Operands by their tokens -/

/-- The token of a mark. -/
def Mark.token (m : Mark) : TokenKind × String :=
  (.mark m, m.text)

/-- What an index may hold: expressions, a range whose bounds may be left out, or a set. -/
inductive IndexForm where
  | list (items : List Expression)
  | range (start : Option Expression) (others : List (Option Expression))
  | set (items : List Expression)
deriving Repr, Inhabited

namespace IndexForm

/-- The tokens of expressions with commas between them. -/
def itemTokens (items : List Expression) : List (TokenKind × String) :=
  (Expression.lexemesAll items).map token

/-- The tokens of a bound, none if it is left out. -/
def boundTokens (bound : Option Expression) : List (TokenKind × String) :=
  bound.elim [] Expression.tokens

/-- The tokens between the brackets of an index. -/
def content : IndexForm → List (TokenKind × String)
  | .list items => itemTokens items
  | .range start others =>
      boundTokens start ++ others.flatMap fun bound => Mark.colon.token :: boundTokens bound
  | .set items => Mark.leftBrace.token :: (itemTokens items ++ [Mark.rightBrace.token])

/-- The tokens of an index. -/
def tokens (index : IndexForm) : List (TokenKind × String) :=
  Mark.leftBracket.token :: (index.content ++ [Mark.rightBracket.token])

/-- Whether an index is a set. -/
def isSet : IndexForm → Bool
  | .set _ => true
  | _ => false

end IndexForm

/-- A name and the indices behind it. -/
structure OperandForm where
  name : String
  indices : List IndexForm
deriving Repr, Inhabited

/-- The tokens of an operand. -/
def OperandForm.tokens (form : OperandForm) : List (TokenKind × String) :=
  (.identifier, form.name) :: form.indices.flatMap IndexForm.tokens

namespace Statement

/-- The classes of the tokens that open a block of a statement kept as text, close it, or end it. -/
def turns : List TokenKind :=
  [.mark .semicolon, .mark .leftBrace, .mark .rightBrace]

/-- No part of an expression is such a token. -/
theorem not_turns_of_not_foreign {kind : TokenKind} (h : kind ∉ Expression.foreign) : kind ∉ turns := by
  have within : turns ⊆ Expression.foreign := by decide
  exact fun turn => h (within turn)

end Statement

namespace IndexForm

open Statement (turns not_turns_of_not_foreign)

theorem not_turns_of_mem_items (items : List Expression) :
    ∀ t ∈ itemTokens items, t.1 ∉ turns :=
  fun t ht => not_turns_of_not_foreign (Expression.not_foreign_of_mem_all items t ht)

theorem not_turns_of_mem_bound (bound : Option Expression) :
    ∀ t ∈ boundTokens bound, t.1 ∉ turns := by
  cases bound with
  | none => simp [boundTokens]
  | some e => exact fun t ht => not_turns_of_not_foreign (Expression.not_foreign_of_mem e t ht)

/-- Only a set is written with braces. -/
theorem not_turns_of_mem {index : IndexForm} (h : index.isSet = false) :
    ∀ t ∈ index.tokens, t.1 ∉ turns := by
  have inside : ∀ t ∈ index.content, t.1 ∉ turns := by
    cases index with
    | list items => exact not_turns_of_mem_items items
    | range start others =>
        refine List.forall_mem_append.mpr ⟨not_turns_of_mem_bound start, ?_⟩
        intro t ht
        obtain ⟨bound, _, ht⟩ := List.mem_flatMap.mp ht
        rcases List.mem_cons.mp ht with rfl | ht
        · decide
        · exact not_turns_of_mem_bound bound t ht
    | set items => simp [isSet] at h
  rw [tokens, List.forall_mem_cons, List.forall_mem_append, List.forall_mem_singleton]
  exact ⟨by decide, inside, by decide⟩

/-- No index is written with a semicolon. -/
theorem not_semicolon_of_mem (index : IndexForm) : ∀ t ∈ index.tokens, t.1 ≠ .mark .semicolon := by
  have ordinary : ∀ {kind}, kind ∉ turns → kind ≠ .mark .semicolon := by
    rintro kind h rfl
    exact h (by decide)
  cases index with
  | set items =>
      have inside : ∀ t ∈ itemTokens items, t.1 ≠ .mark .semicolon :=
        fun t ht => ordinary (not_turns_of_mem_items items t ht)
      simp only [tokens, content, List.cons_append, List.forall_mem_cons, List.forall_mem_append]
      exact ⟨by decide, by decide, ⟨inside, by decide, by simp⟩, by decide, by simp⟩
  | list items => exact fun t ht => ordinary (not_turns_of_mem rfl t ht)
  | range start others => exact fun t ht => ordinary (not_turns_of_mem rfl t ht)

end IndexForm

namespace OperandForm

variable {form : OperandForm}

theorem not_turns_of_mem_indices {indices : List IndexForm}
    (h : ∀ index ∈ indices, index.isSet = false) :
    ∀ t ∈ indices.flatMap IndexForm.tokens, t.1 ∉ Statement.turns := by
  intro t ht
  obtain ⟨index, hindex, ht⟩ := List.mem_flatMap.mp ht
  exact IndexForm.not_turns_of_mem (h index hindex) t ht

theorem not_semicolon_of_mem : ∀ t ∈ form.tokens, t.1 ≠ .mark .semicolon := by
  rw [tokens, List.forall_mem_cons]
  refine ⟨by simp, ?_⟩
  intro t ht
  obtain ⟨index, _, ht⟩ := List.mem_flatMap.mp ht
  exact index.not_semicolon_of_mem t ht

/-- The tokens of an operand up to and behind the brace that closes its first set. -/
theorem exists_first_set (h : ∃ index ∈ form.indices, index.isSet = true) :
    ∃ before items behind, form.tokens =
        before ++ (Mark.leftBrace.token :: (items ++ Mark.rightBrace.token :: behind)) ∧
      (∀ t ∈ before, t.1 ∉ Statement.turns) ∧ (∀ t ∈ items, t.1 ∉ Statement.turns) ∧
      ∃ others, behind = Mark.rightBracket.token :: others := by
  obtain ⟨name, indices⟩ := form
  obtain ⟨index, hindex⟩ : ∃ index, indices.find? IndexForm.isSet = some index :=
    Option.isSome_iff_exists.mp (List.find?_isSome.mpr h)
  obtain ⟨isSet, front, others, rfl, plain⟩ := List.find?_eq_some_iff_append.mp hindex
  cases index with
  | list items => simp [IndexForm.isSet] at isSet
  | range start others => simp [IndexForm.isSet] at isSet
  | set items =>
      refine ⟨(.identifier, name) :: (front.flatMap IndexForm.tokens ++ [Mark.leftBracket.token]),
        IndexForm.itemTokens items, _, ?_, ?_, IndexForm.not_turns_of_mem_items items,
        others.flatMap IndexForm.tokens, rfl⟩
      · simp [tokens, IndexForm.tokens, IndexForm.content]
      · rw [List.forall_mem_cons, List.forall_mem_append, List.forall_mem_singleton]
        exact ⟨by simp [Statement.turns], not_turns_of_mem_indices (by simpa using plain), by decide⟩

end OperandForm

/-! ### Where a statement kept as text ends -/

namespace Statement

/-- Tokens of other classes are passed over at any depth. -/
theorem keptEnd_ordinary {own : List Lexeme} (h : ∀ t ∈ own.map token, t.1 ∉ turns)
    (depth taken : Nat) (rest : List Lexeme) :
    keptEnd depth taken (own ++ rest) = keptEnd depth (taken + own.length) rest := by
  induction own generalizing taken with
  | nil => rfl
  | cons l own ih =>
      rw [List.map_cons, List.forall_mem_cons] at h
      have here : l.kind ∉ turns := h.1
      have goesOn : keptEnd depth taken (l :: (own ++ rest)) =
          keptEnd depth (taken + 1) (own ++ rest) := by
        rw [keptEnd]
        split <;> simp_all [turns]
      rw [List.cons_append, goesOn, ih h.2, List.length_cons, Nat.add_assoc, Nat.add_comm 1]

/-- A statement without braces ends at its semicolon. -/
theorem keptEnd_semicolon {own : List Lexeme} {r : Lexeme} (h : ∀ t ∈ own.map token, t.1 ∉ turns)
    (hr : r.kind = .mark .semicolon) : keptEnd 0 0 (own ++ [r]) = .ends (own ++ [r]).length := by
  rw [keptEnd_ordinary h, keptEnd, hr]
  simp

/-- A statement ends at the brace that closes its first block, if `else` does not follow. -/
theorem keptEnd_block {before inside rest : List Lexeme} {l r : Lexeme}
    (hbefore : ∀ t ∈ before.map token, t.1 ∉ turns) (hl : l.kind = .mark .leftBrace)
    (hinside : ∀ t ∈ inside.map token, t.1 ∉ turns) (hr : r.kind = .mark .rightBrace)
    (noElse : elseFollows rest = false) :
    keptEnd 0 0 (before ++ l :: (inside ++ r :: rest)) =
      .ends (before ++ l :: (inside ++ [r])).length := by
  have opened : ∀ taken, keptEnd 0 taken (l :: (inside ++ r :: rest)) =
      keptEnd 1 (taken + 1) (inside ++ r :: rest) := by
    intro taken
    rw [keptEnd, hl]
  have length : 0 + before.length + 1 + inside.length + 1 =
      (before ++ l :: (inside ++ [r])).length := by
    simp only [List.length_append, List.length_cons, List.length_nil]
    omega
  rw [keptEnd_ordinary hbefore, opened, keptEnd_ordinary hinside, keptEnd, hr, ← length]
  simp [noElse]

end Statement

/-! ### Gate calls end with a semicolon -/

namespace Reader

variable {α β : Type} {R : Reader α} {S : Reader β} {seam : List Lexeme → List Lexeme → Prop}
  {kind : TokenKind}

/-- What is read from a source has a lexeme of the given class. -/
def Takes (R : Reader α) (kind : TokenKind) : Prop :=
  ∀ ⦃ts n v d⦄, Sourced ts → R (facing ts n) = .ok (v, d) → ∃ l ∈ ts, l.kind = kind

theorem takes_expect (kind : TokenKind) : (expect kind).Takes kind := by
  intro ts n v d _ hread
  rcases expect_eq_ok_iff.mp hread with ⟨l, rest, rfl, hl, _, _⟩
  exact ⟨l, by simp, hl⟩

theorem Takes.map (h : R.Takes kind) {f : α → β} : (R.map f).Takes kind := by
  intro ts n w d hts hmapped
  rcases map_eq_ok_iff.mp hmapped with ⟨v, _, hread⟩
  exact h hts hread

theorem Takes.andThen (hR : R.Local seam) (hS : S.Takes kind) : (Reader.andThen R S).Takes kind := by
  rintro ts n ⟨v, w⟩ d hts hread
  rcases andThen_eq_ok_iff.mp hread with ⟨c, hfirst, hsecond⟩
  obtain ⟨mid, rfl, suffix, _⟩ := hR hts hfirst
  obtain ⟨l, hl, hkind⟩ := hS (hts.of_suffix suffix) hsecond
  exact ⟨l, suffix.mem hl, hkind⟩

end Reader

theorem GateCall.reader_takes (levels : Nat) : (reader levels).Takes (.mark .semicolon) := by
  have modifiers : (Reader.many atModifier (modifierReader levels)).Local Reader.Inside :=
    (modifierReader_local levels).many looksAtHead_atModifier
  have name : (Reader.expect .identifier).Local Reader.Inside := Reader.local_expect _
  rw [reader_eq]
  exact (Reader.Takes.andThen modifiers <| .andThen name <| .andThen (argumentsReader_local levels) <|
    .andThen (designatorReader_local levels) <| .andThen (operandsReader_local levels) <|
      Reader.takes_expect _).map

/-- A gate call takes a semicolon. -/
theorem Statement.takes_semicolon {levels n : Nat} {ts : List Lexeme} {call : GateCall} {d : Cursor}
    (hts : Sourced ts) (h : reader levels (facing ts n) = .ok (.gateCall call, d)) :
    ∃ r ∈ ts, r.kind = .mark .semicolon := by
  cases readAs_of_reader h with
  | gateCall read => exact GateCall.reader_takes levels hts read

/-! ### A statement kept as text in front of others -/

namespace Program

variable {ts rest : List Lexeme} {n : Nat}

/-- A statement kept as text is the first element of a program, and what follows it is read behind. -/
theorem ofCursor_kept {rule : KeptRule} {l : Lexeme} {own : List Lexeme}
    (noVersion : l.kind ≠ .keyword .version) (noScope : l.kind ≠ .mark .leftBrace)
    (reads : Statement.reader nestingLimit (facing (l :: own ++ rest) n) =
      Statement.keptReader rule (facing (l :: own ++ rest) n))
    (ends : Statement.keptEnd 0 0 (l :: own ++ rest) = .ends (l :: own).length) :
    ofCursor (facing (l :: own ++ rest) n) = (ofCursor (facing rest n)).map fun p =>
      ⟨.item (.statement (.kept rule (excerpt (l :: own)))) :: p.children⟩ := by
  have kept : Statement.keptReader rule (facing (l :: own ++ rest) n) =
      .ok (.kept rule (excerpt (l :: own)), facing rest n) :=
    Statement.keptReader_eq_ok_iff.mpr ⟨l :: own, rest, rfl, ends, rfl, rfl⟩
  have first : Element.reader nestingLimit (facing (l :: own ++ rest) n) =
      .ok (.item (.statement (.kept rule (excerpt (l :: own)))), facing rest n) := by
    rw [List.cons_append, Element.reader_eq_statement noVersion noScope]
    exact Reader.map_eq_ok_iff.mpr ⟨_, rfl, reads.trans kept⟩
  have shorter : rest.length < (l :: own ++ rest).length := by
    rw [List.length_append, List.length_cons]
    omega
  exact ofCursor_first first shorter

/-- No statement starts with a closing bracket. -/
theorem ofCursor_rightBracket {r : Lexeme} (hr : r.kind = .mark .rightBracket) :
    ofCursor (facing (r :: ts) n) = .error (.unexpectedToken r.line .statement r.text) := by
  apply ofCursor_error
  rw [Element.reader_eq_statement (by simp [hr]) (by simp [hr]), Reader.map]
  simp [Statement.reader, hr, Cursor.refuse]

end Program

/-! ### Statements around an operand -/

/-- The statements that have an operand and are kept as text: their rule, their word, and the text
behind the operand. -/
def KeptRule.operandStatements : List (KeptRule × String × String) :=
  [(.reset, "reset", ";"), (.barrier, "barrier", ";"), (.measureArrowAssignment, "measure", " -> c;")]

namespace Statement

/-- The word and the text behind an operand make a statement kept as text: the word opens it, and
nothing behind the operand matters to where it ends but the semicolon. -/
structure Frames (rule : KeptRule) (word tail : String) (kind : TokenKind)
    (between : List (TokenKind × String)) : Prop where
  shapeOf : shapeOf? table word.toList = some (.token kind)
  opens : kind ∈ [TokenKind.identifier, .keyword .measure]
  reads : ∀ levels l ts n, l.token = (kind, word) →
    reader levels (facing (l :: ts) n) = keptReader rule (facing (l :: ts) n)
  whole : Whole tail (between ++ [Mark.semicolon.token])
  between_ordinary : ∀ t ∈ between, t.1 ∉ turns
  opensBreak : OpensBreak tail.toList

/-- The word of such a statement opens neither a version nor a block. -/
theorem Frames.ordinary {rule : KeptRule} {word tail : String} {kind : TokenKind}
    {between : List (TokenKind × String)} (frames : Frames rule word tail kind between) :
    kind ∉ turns ∧ kind ≠ .keyword .version ∧ kind ≠ .mark .leftBrace := by
  have classes : ∀ kind ∈ [TokenKind.identifier, .keyword .measure],
      kind ∉ turns ∧ kind ≠ .keyword .version ∧ kind ≠ .mark .leftBrace := by decide
  exact classes kind frames.opens

theorem reader_eq_keptReader_of_ofWord? {rule : KeptRule} {word : String}
    (h : KeptRule.ofWord? word = some rule) (levels n : Nat) {l : Lexeme} (ts : List Lexeme)
    (hl : l.token = (.identifier, word)) :
    reader levels (facing (l :: ts) n) = keptReader rule (facing (l :: ts) n) := by
  obtain ⟨hkind, htext⟩ := Prod.mk.inj hl
  simp [reader, hkind, namedReader, htext, h]

theorem whole_semicolon : Whole ";" [Mark.semicolon.token] :=
  ⟨[⟨.mark .semicolon, ";", "", 1⟩], 1, by decide +kernel, rfl, rfl⟩

/-- A word of a kept statement frames an operand with the semicolon. -/
theorem frames_semicolon {rule : KeptRule} {word : String} (h : KeptRule.ofWord? word = some rule)
    (shape : shapeOf? table word.toList = some (.token .identifier)) :
    Frames rule word ";" .identifier [] where
  shapeOf := shape
  opens := by decide
  reads levels _ ts n := reader_eq_keptReader_of_ofWord? h levels n ts
  whole := whole_semicolon
  between_ordinary := by simp
  opensBreak := opensBreak_cons (by decide)

theorem frames_measure : Frames .measureArrowAssignment "measure" " -> c;" (.keyword .measure)
    [Mark.arrow.token, (.identifier, "c")] where
  shapeOf := by decide +kernel
  opens := by decide
  reads levels l ts n hl := by simp [reader, (Prod.mk.inj hl).1]
  whole := ⟨[⟨.mark .arrow, "->", " ", 1⟩, ⟨.identifier, "c", " ", 1⟩,
    ⟨.mark .semicolon, ";", "", 1⟩], 1, by decide +kernel, rfl, rfl⟩
  between_ordinary := by decide
  opensBreak := opensBreak_cons (by decide)

theorem exists_frames {rule : KeptRule} {word tail : String}
    (h : (rule, word, tail) ∈ KeptRule.operandStatements) :
    ∃ kind between, Frames rule word tail kind between := by
  simp only [KeptRule.operandStatements, List.mem_cons, Prod.mk.injEq, List.not_mem_nil,
    or_false] at h
  rcases h with ⟨rfl, rfl, rfl⟩ | ⟨rfl, rfl, rfl⟩ | ⟨rfl, rfl, rfl⟩
  · exact ⟨_, _, frames_semicolon rfl (by decide +kernel)⟩
  · exact ⟨_, _, frames_semicolon rfl (by decide +kernel)⟩
  · exact ⟨_, _, frames_measure⟩

end Statement

namespace Program

section Operand

variable {text word tail : String} {rule : KeptRule} {kind : TokenKind}
  {between : List (TokenKind × String)} {form : OperandForm}

/-- A gate call ends with a semicolon, so one stands behind the name of its gate. -/
theorem exists_semicolon_of_gateCall {below : String} {us : List Lexeme} {m : Nat} {call : GateCall}
    (hword : shapeOf? table word.toList = some (.token .identifier))
    (lexemes : Lexeme.ofText below = .ok (us, m))
    (h : ofText (word ++ " " ++ below) =
      .ok ⟨[.item (.statement (.gateCall call)), .endOfInput]⟩) :
    ∃ t ∈ us.map token, t.1 = .mark .semicolon := by
  obtain ⟨vs, k, joined, same, _⟩ := exists_behind_word hword lexemes
  obtain ⟨ls, k', d, hls, sourced, first⟩ := exists_statement_of_ofText h
  rw [joined] at hls
  cases hls
  obtain ⟨r, hr, hkind⟩ := Statement.takes_semicolon sourced first
  rcases List.mem_cons.mp hr with rfl | hr
  · simp at hkind
  · exact ⟨r.token, same ▸ List.mem_map_of_mem hr, hkind⟩

/-- A text leaves no comment open that would take what follows it, if a semicolon behind it counts. -/
theorem whole_of_semicolon {ts : List Lexeme} {n : Nat} (made : Lexeme.ofText text = .ok (ts, n))
    (without : ∀ t ∈ ts.map token, t.1 ≠ .mark .semicolon)
    (counts : ∀ us m, Lexeme.ofText (text ++ ";") = .ok (us, m) →
      ∃ t ∈ us.map token, t.1 = .mark .semicolon)
    {tokens : List (TokenKind × String)} (whole : Whole tail tokens) (nonempty : tokens ≠ [])
    (opens : OpensBreak tail.toList) : Whole (text ++ tail) (ts.map token ++ tokens) := by
  rcases whole_or_swallowed made with goesOn | ⟨us, m, lexemes, swallowed⟩
  · exact goesOn whole nonempty opens
  · obtain ⟨t, ht, semicolon⟩ := counts us m lexemes
    exact absurd semicolon (without t (swallowed ▸ ht))

/-- An operand of a gate call is continued by what follows it. -/
theorem whole_of_gateCall {ts : List Lexeme} {n : Nat} {call : GateCall}
    (made : Lexeme.ofText text = .ok (ts, n)) (hform : ts.map token = form.tokens)
    (h : ofText ("x " ++ text ++ ";") = .ok ⟨[.item (.statement (.gateCall call)), .endOfInput]⟩)
    {tokens : List (TokenKind × String)} (whole : Whole tail tokens) (nonempty : tokens ≠ [])
    (opens : OpensBreak tail.toList) : Whole (text ++ tail) (form.tokens ++ tokens) := by
  have gate : shapeOf? table "x".toList = some (.token .identifier) := by decide +kernel
  have source : "x " ++ text ++ ";" = "x" ++ " " ++ (text ++ ";") := String.append_assoc
  have without : ∀ t ∈ ts.map token, t.1 ≠ .mark .semicolon :=
    hform ▸ OperandForm.not_semicolon_of_mem
  rw [← hform]
  exact whole_of_semicolon made without
    (fun _ _ lexemes => exists_semicolon_of_gateCall gate lexemes (source ▸ h)) whole nonempty opens

/-- The lexemes of a statement that opens with a word, which is the first of them. -/
theorem exists_lexemes_of_word (shape : shapeOf? table word.toList = some (.token kind))
    {tokens : List (TokenKind × String)} (whole : Whole (text ++ tail) tokens)
    (nonempty : tokens ≠ []) :
    ∃ vs n, Lexeme.ofText (word ++ " " ++ text ++ tail) = .ok (⟨kind, word, "", 1⟩ :: vs, n) ∧
      vs.map token = tokens ∧
      excerpt (⟨kind, word, "", 1⟩ :: vs) = word ++ " " ++ text ++ tail := by
  obtain ⟨us, m, lexemes, rfl, hwritten⟩ := whole
  obtain ⟨vs, n, joined, same, behind⟩ := exists_behind_word shape lexemes
  have source : word ++ " " ++ text ++ tail = word ++ " " ++ (text ++ tail) := String.append_assoc
  rw [source]
  refine ⟨vs, n, joined, same, String.toList_injective ?_⟩
  rw [toList_excerpt, relead_cons, written_cons, behind (by simpa using nonempty), hwritten]
  simp

/-- Around tokens that end no statement, one that is kept as text is the whole text. -/
theorem kept_of_not_turns (frames : Statement.Frames rule word tail kind between)
    {tokens : List (TokenKind × String)}
    (whole : Whole (text ++ tail) (tokens ++ (between ++ [Mark.semicolon.token])))
    (plain : ∀ t ∈ tokens, t.1 ∉ Statement.turns) :
    ofText (word ++ " " ++ text ++ tail) = .ok ⟨[
      .item (.statement (.kept rule (word ++ " " ++ text ++ tail))), .endOfInput]⟩ := by
  obtain ⟨vs, n, lexemes, found, htext⟩ := exists_lexemes_of_word frames.shapeOf whole (by simp)
  rw [← List.append_assoc] at found
  obtain ⟨own, closing, rfl, hown, hclosing⟩ := List.map_eq_append_iff.mp found
  obtain ⟨r, rfl, hr⟩ : ∃ r, closing = [r] ∧ r.token = Mark.semicolon.token :=
    List.map_eq_singleton_iff.mp hclosing
  obtain ⟨opening, noVersion, noScope⟩ := frames.ordinary
  have ordinary : ∀ t ∈ (⟨kind, word, "", 1⟩ :: own : List Lexeme).map token,
      t.1 ∉ Statement.turns := by
    rw [List.map_cons, hown, List.forall_mem_cons, List.forall_mem_append]
    exact ⟨opening, plain, frames.between_ordinary⟩
  have ends := Statement.keptEnd_semicolon ordinary (congrArg Prod.fst hr)
  have kept : ofCursor (facing (⟨kind, word, "", 1⟩ :: (own ++ [r]) ++ []) n) = _ :=
    ofCursor_kept noVersion noScope (frames.reads _ _ _ _ rfl) (by simpa using ends)
  rw [List.append_nil, ofCursor_nil] at kept
  rw [ofText_of_lexemes lexemes, kept, htext]
  rfl

/-- Around an operand without sets a statement kept as text is the whole text. -/
theorem kept_of_no_set (frames : Statement.Frames rule word tail kind between)
    (whole : Whole (text ++ tail) (form.tokens ++ (between ++ [Mark.semicolon.token])))
    (plain : ∀ index ∈ form.indices, index.isSet = false) :
    ofText (word ++ " " ++ text ++ tail) = .ok ⟨[
      .item (.statement (.kept rule (word ++ " " ++ text ++ tail))), .endOfInput]⟩ := by
  refine kept_of_not_turns frames whole ?_
  rw [OperandForm.tokens, List.forall_mem_cons]
  exact ⟨by simp [Statement.turns], OperandForm.not_turns_of_mem_indices plain⟩

/-- Around an operand with a set a statement kept as text ends within the operand. -/
theorem error_of_set (frames : Statement.Frames rule word tail kind between)
    {tokens : List (TokenKind × String)} (whole : Whole (text ++ tail) (form.tokens ++ tokens))
    (set : ∃ index ∈ form.indices, index.isSet = true) :
    ∃ line, ofText (word ++ " " ++ text ++ tail) =
      .error (.unexpectedToken line .statement Mark.rightBracket.text) := by
  obtain ⟨before, items, behind, hform, hbefore, hitems, others, rfl⟩ :=
    OperandForm.exists_first_set set
  obtain ⟨vs, n, lexemes, found, _⟩ := exists_lexemes_of_word frames.shapeOf whole (by simp [hform])
  rw [hform, List.append_assoc, List.cons_append, List.append_assoc, List.cons_append,
    List.cons_append] at found
  obtain ⟨own, vs, rfl, hown, found⟩ := List.map_eq_append_iff.mp found
  obtain ⟨l, vs, rfl, hl, found⟩ := List.map_eq_cons_iff.mp found
  obtain ⟨inside, vs, rfl, hinside, found⟩ := List.map_eq_append_iff.mp found
  obtain ⟨r, vs, rfl, hr, found⟩ := List.map_eq_cons_iff.mp found
  obtain ⟨b, rest, rfl, hb, _⟩ := List.map_eq_cons_iff.mp found
  obtain ⟨hkind, htext⟩ := Prod.mk.inj hb
  obtain ⟨opening, noVersion, noScope⟩ := frames.ordinary
  have ordinary : ∀ t ∈ (⟨kind, word, "", 1⟩ :: own : List Lexeme).map token,
      t.1 ∉ Statement.turns := by
    rw [List.map_cons, hown, List.forall_mem_cons]
    exact ⟨opening, hbefore⟩
  have noElse : Statement.elseFollows (b :: rest) = false := by
    simp [Statement.elseFollows, hkind]
  have ends := Statement.keptEnd_block ordinary (congrArg Prod.fst hl) (hinside ▸ hitems)
    (congrArg Prod.fst hr) noElse
  have split : (⟨kind, word, "", 1⟩ :: (own ++ l :: (inside ++ r :: b :: rest)) : List Lexeme) =
      ⟨kind, word, "", 1⟩ :: (own ++ l :: (inside ++ [r])) ++ b :: rest := by
    simp
  refine ⟨b.line, ?_⟩
  rw [ofText_of_lexemes lexemes, split, ofCursor_kept noVersion noScope (frames.reads _ _ _ _ rfl)
    (by simpa using ends), ofCursor_rightBracket hkind, htext]
  rfl

end Operand

/-- Whatever a gate call takes as its one operand, each of these statements takes around it, as one
statement with all of its text, exactly if no index of the operand is a set. The brace that closes
a set ends the statement, and the bracket behind it is refused. -/
theorem operand_statements_kept_iff {text : String} {form : OperandForm} {operand : Operand}
    (made : tokensOf text = .ok form.tokens)
    (call : ofText ("x " ++ text ++ ";") = .ok ⟨[
      .item (.statement (.gateCall ⟨[], "x", none, none, [operand]⟩)), .endOfInput]⟩)
    {rule : KeptRule} {word tail : String}
    (statement : (rule, word, tail) ∈ KeptRule.operandStatements) :
    (ofText (word ++ " " ++ text ++ tail) = .ok ⟨[
        .item (.statement (.kept rule (word ++ " " ++ text ++ tail))), .endOfInput]⟩ ↔
      ∀ index ∈ form.indices, index.isSet = false) ∧
    ((∃ index ∈ form.indices, index.isSet = true) → ∃ line,
      ofText (word ++ " " ++ text ++ tail) = .error (.unexpectedToken line .statement "]")) := by
  rcases Except.bind_eq_ok_iff.mp made with ⟨⟨ts, n⟩, lexemes, htokens⟩
  have hform : ts.map token = form.tokens := Except.ok.inj htokens
  obtain ⟨kind, between, frames⟩ := Statement.exists_frames statement
  have whole : Whole (text ++ tail) (form.tokens ++ (between ++ [Mark.semicolon.token])) :=
    whole_of_gateCall lexemes hform call frames.whole (by simp) frames.opensBreak
  have refused := error_of_set frames whole
  refine ⟨⟨?_, kept_of_no_set frames whole⟩, refused⟩
  intro kept index hindex
  by_contra isSet
  obtain ⟨line, error⟩ := refused ⟨index, hindex, by simpa using isSet⟩
  rw [kept] at error
  cases error

/-- A range and a plain index are kept with a measurement. A set is refused behind its brace, though
a gate call takes it. -/
theorem operand_statements_kept_iff_range_set :
    ofText "measure q[0:2][1] -> c;" = .ok ⟨[
        .item (.statement (.kept .measureArrowAssignment "measure q[0:2][1] -> c;")),
        .endOfInput]⟩ ∧
      ofText "x q[\x7b0, 1\x7d];" = .ok ⟨[.item (.statement (.gateCall
        ⟨[], "x", none, none, [.indexed ⟨"q", [.verbatim "\x7b0, 1\x7d"]⟩]⟩)), .endOfInput]⟩ ∧
      ∃ line, ofText "reset q[\x7b0, 1\x7d];" = .error (.unexpectedToken line .statement "]") := by
  have rangeMade : tokensOf "q[0:2][1]" = .ok (OperandForm.tokens ⟨"q",
      [.range (some (.literal ⟨.decimalInteger, "0"⟩)) [some (.literal ⟨.decimalInteger, "2"⟩)],
        .list [.literal ⟨.decimalInteger, "1"⟩]]⟩) := by
    decide +kernel
  have rangeCall : ofText ("x " ++ "q[0:2][1]" ++ ";") = .ok ⟨[.item (.statement (.gateCall
      ⟨[], "x", none, none, [.indexed ⟨"q",
        [.verbatim "0:2", .expressions [.literal ⟨.decimalInteger, "1"⟩]]⟩]⟩)), .endOfInput]⟩ := by
    decide +kernel
  have setMade : tokensOf "q[\x7b0, 1\x7d]" = .ok (OperandForm.tokens ⟨"q",
      [.set [.literal ⟨.decimalInteger, "0"⟩, .literal ⟨.decimalInteger, "1"⟩]]⟩) := by
    decide +kernel
  have setCall : ofText ("x " ++ "q[\x7b0, 1\x7d]" ++ ";") = .ok ⟨[.item (.statement (.gateCall
      ⟨[], "x", none, none, [.indexed ⟨"q", [.verbatim "\x7b0, 1\x7d"]⟩]⟩)), .endOfInput]⟩ := by
    decide +kernel
  have measure : (.measureArrowAssignment, "measure", " -> c;") ∈ KeptRule.operandStatements := by
    decide
  have reset : (.reset, "reset", ";") ∈ KeptRule.operandStatements := by
    decide
  have measured := operand_statements_kept_iff rangeMade rangeCall measure
  have refused := operand_statements_kept_iff setMade setCall reset
  exact ⟨measured.1.mpr (by decide), setCall, refused.2 (by decide)⟩

end Program

end QasmDiagram
