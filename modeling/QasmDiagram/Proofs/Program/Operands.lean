/-
Module: QasmDiagram.Proofs.Program.Operands
Purpose: The parts of statements are printed by the tokens that were read and are read again from
  them: expressions before what closes them, indices, names with indices, operands, sizes and
  argument lists.
Trusted boundary: none
Main exports: Expression.Admitted, Index.reader_copies, Indexed.reader_copies,
  Operand.reader_copies, designatorReader_copies, GateCall.argumentsReader_copies
-/
import QasmDiagram.Program.Reader
import QasmDiagram.Proofs.Copying
import QasmDiagram.Proofs.Expression.Completeness

namespace QasmDiagram

open Lexeme Cursor Rule Expression

/-! ### Expressions where they are closed -/

namespace Expression

/-- A canonical expression that takes no more than the levels that are left. -/
def Admitted (levels : Nat) (e : Expression) : Prop :=
  e.Canonical ∧ e.nesting ≤ levels

variable {levels : Nat} {e : Expression} {items : List Expression} {ts us rest : List Lexeme}
  {n : Nat} {d : Cursor}

/-- What may stand behind an expression in a program. -/
def closers : List TokenKind :=
  [.mark .rightParen, .mark .rightBracket, .mark .comma, .mark .semicolon]

/-- An admitted expression is read back from its tokens before what closes it. -/
theorem Admitted.again (h : e.Admitted levels) {r : Lexeme} (hr : r.kind ∈ closers)
    (htokens : us.map token = e.lexemes.map token) :
    reader levels (facing (us ++ r :: rest) n) = .ok (e, facing (r :: rest) n) := by
  obtain ⟨stops, notCalled⟩ : Stops 0 (r :: rest) ∧ NotCalled (r :: rest) := stops_of_closer hr
  exact (reader_complete h.1 levels htokens notCalled stops).1 h.2

theorem admitted_iff_all :
    (∀ e ∈ items, e.Admitted levels) ↔ CanonicalAll items ∧ nestingAll items ≤ levels := by
  rw [canonicalAll_iff, nestingAll_le_iff]
  simp only [Admitted, nesting, Nat.one_add_le_iff]
  exact ⟨fun h => ⟨fun e he => (h e he).1, fun e he => (h e he).2⟩,
    fun h e he => ⟨h.1 e he, h.2 e he⟩⟩

/-- A list of admitted expressions is read back from its tokens before what closes it. -/
theorem listReader_again (h : ∀ e ∈ items, e.Admitted levels) {r : Lexeme}
    (hr : r.kind ∈ [TokenKind.mark .rightParen, .mark .rightBracket])
    (htokens : us.map token = (lexemesAll items).map token) :
    listReader (reader levels) (facing (us ++ r :: rest) n) = .ok (items, facing (r :: rest) n) := by
  rcases admitted_iff_all.mp h with ⟨canonical, fits⟩
  exact (listReader_complete canonical levels htokens ⟨r, rest, rfl, hr⟩).1 fits

/-- The expressions of a list that is read are admitted, and their tokens are those read. -/
theorem listReader_sound (hts : Sourced ts)
    (h : listReader (reader levels) (facing ts n) = .ok (items, d)) :
    ∃ rest, d = facing rest n ∧ rest <:+ ts ∧
      ts.map token = (lexemesAll items).map token ++ rest.map token ∧
      ∀ e ∈ items, e.Admitted levels := by
  have inner : Sound (reader levels) fun e _ => e.nestingBelow < levels := by
    intro ts n e d hts h
    obtain ⟨rest, hd, taken, fits⟩ := reader_sound levels hts h
    exact ⟨rest, hd, taken, Nat.one_add_le_iff.mp fits⟩
  obtain ⟨rest, hd, suffix, tokens, canonical, fits⟩ := list_sound inner hts h
  exact ⟨rest, hd, suffix, tokens, admitted_iff_all.mpr ⟨canonical, fits⟩⟩

/-- Expressions stand before the mark that closes them. -/
theorem delimited (levels : Nat) {m : Mark} (hm : TokenKind.mark m ∈ closers) :
    (reader levels).Delimited m lexemes (Admitted levels) where
  sound := by
    intro ts n e d hts h
    obtain ⟨rest, hd, taken, fits⟩ := reader_sound levels hts h
    exact ⟨rest, hd, taken.suffix, taken.tokens, taken.canonical, fits⟩
  again := by
    intro e us r rest n good hr htokens
    exact good.again (hr ▸ hm) htokens

/-- Lists of expressions stand before the mark that closes them. -/
theorem list_delimited (levels : Nat) {m : Mark}
    (hm : TokenKind.mark m ∈ [TokenKind.mark .rightParen, .mark .rightBracket]) :
    (listReader (reader levels)).Delimited m lexemesAll (∀ e ∈ ·, Admitted levels e) where
  sound := fun _ _ _ _ hts h => listReader_sound hts h
  again := by
    intro items us r rest n good hr htokens
    exact listReader_again good (hr ▸ hm) htokens

/-- The lexemes of a canonical expression print it. -/
theorem Canonical.prints (h : e.Canonical) : Prints e.render e.lexemes where
  nonempty := e.lexemes_ne_nil
  written_eq := by rw [relead_lexemes, toList_render]
  spelled := by
    intro after hafter
    rw [relead_lexemes]
    exact spelled_lexemes h (endsOperand_of_opensBreak hafter)

theorem spells_renderList (h : CanonicalAll items) : Spells (renderList items) (lexemesAll items) where
  written_eq := (toList_renderList items).symm
  spelled := fun _ hafter => spelled_lexemesAll h hafter

end Expression

theorem brackets_break : .leftBracket ∈ breakMarks ∧ .rightBracket ∈ breakMarks := by decide

/-! ### Indices -/

namespace Index

/-- The expressions that an index holds. -/
def held : Index → List Expression
  | .expressions items => items
  | .verbatim _ => []

/-- Whether an index is plain is judged by tokens only. -/
theorem isPlain?_congr {ts us : List Lexeme} (h : ts.map token = us.map token) (depth : Nat) :
    isPlain? depth ts = isPlain? depth us := by
  induction ts generalizing us depth with
  | nil =>
      obtain rfl : us = [] := by simpa using h.symm
      rfl
  | cons l ts ih =>
      obtain ⟨l', us, rfl, hkind, _, hus⟩ := exists_cons_of_map_token h.symm
      simp only [isPlain?, hkind, ih hus.symm]

/-- Where an index kept as text ends is judged by tokens only. -/
theorem verbatimLength?_congr {ts us : List Lexeme} (h : ts.map token = us.map token)
    (depth taken : Nat) : verbatimLength? depth taken ts = verbatimLength? depth taken us := by
  induction ts generalizing us depth taken with
  | nil =>
      obtain rfl : us = [] := by simpa using h.symm
      rfl
  | cons l ts ih =>
      obtain ⟨l', us, rfl, hkind, _, hus⟩ := exists_cons_of_map_token h.symm
      simp only [verbatimLength?, hkind, ih hus.symm]

variable {levels n : Nat} {ts us : List Lexeme} {index : Index} {d : Cursor}

/-- The expressions of a plain index, of which there is at least one. -/
def itemsReader (levels : Nat) : Reader (List Expression) := fun c => do
  let (items, c) ← listReader (Expression.reader levels) c
  if items.isEmpty then .error (c.refuse .indexExpression) else .ok (items, c)

/-- A plain index behind its opening bracket. -/
def plainReader (levels : Nat) : Reader Index :=
  Reader.map (.expressions ·.1)
    (Reader.andThen (itemsReader levels) (Reader.expect (.mark .rightBracket)))

/-- An index kept as text behind its opening bracket. -/
def verbatimReader : Reader Index := fun c =>
  match verbatimLength? 0 0 c.ahead with
  | none => .error (.unclosed .leftBracket c.line)
  | some length =>
      Reader.map (fun _ => .verbatim (c.textBetween (c.skip length)))
        (Reader.expect (.mark .rightBracket)) (c.skip length)

/-- An index behind its opening bracket. -/
def contentReader (levels : Nat) (plain : Bool) : Reader Index :=
  if plain then plainReader levels else verbatimReader

/-- An index is read in brackets: expressions if it is plain, else its text. -/
theorem reader_eq_ok_iff : reader levels (facing ts n) = .ok (index, d) ↔
    ∃ l us plain, ts = l :: us ∧ l.kind = .mark .leftBracket ∧ isPlain? 0 us = some plain ∧
      contentReader levels plain (facing us n) = .ok (index, d) := by
  have content : ∀ {l us}, l.kind = .mark .leftBracket →
      (reader levels (facing (l :: us) n) = .ok (index, d) ↔
        ∃ plain, isPlain? 0 us = some plain ∧
          contentReader levels plain (facing us n) = .ok (index, d)) := by
    intro l us hl
    simp only [reader, Reader.expect_facing_cons hl, Except.ok_bind, ahead_facing]
    cases isPlain? 0 us with
    | none => simp [throw, throwThe, MonadExceptOf.throw]
    | some plain =>
        cases plain with
        | true =>
            simp only [Option.some.injEq, exists_eq_left', contentReader, if_true, plainReader,
              itemsReader, Reader.map, Reader.andThen, bind_assoc, pure_bind]
            apply iff_of_eq
            congr 1
            refine bind_congr fun items => ?_
            split <;> rfl
        | false =>
            cases hlength : verbatimLength? 0 0 us <;>
              simp [contentReader, verbatimReader, Reader.map, hlength, throw, throwThe,
                MonadExceptOf.throw]
  constructor
  · intro h
    rcases Except.bind_eq_ok_iff.mp h with ⟨⟨_, c⟩, hopen, _⟩
    rcases Reader.expect_eq_ok_iff.mp hopen with ⟨l, us, rfl, hl, _, _⟩
    rcases (content hl).mp h with ⟨plain, hplain, hread⟩
    exact ⟨l, us, plain, rfl, hl, hplain, hread⟩
  · rintro ⟨l, us, plain, rfl, hl, hplain, hread⟩
    exact (content hl).mpr ⟨plain, hplain, hread⟩

/-- The lexemes close a bracket that opens before them, and the index between the two is printed. -/
def Closes (levels : Nat) (index : Index) (own : List Lexeme) : Prop :=
  Trails index.render (ofMark .leftBracket :: own) ∧ ∀ e ∈ index.held, e.Admitted levels

theorem itemsReader_eq_ok_iff {items : List Expression} {c : Cursor} :
    itemsReader levels c = .ok (items, d) ↔
      items ≠ [] ∧ listReader (Expression.reader levels) c = .ok (items, d) := by
  unfold itemsReader
  rw [Except.bind_eq_ok_iff]
  constructor
  · rintro ⟨⟨found, c'⟩, hread, h⟩
    cases found with
    | nil => simp at h
    | cons first others =>
        cases h
        exact ⟨by simp, hread⟩
  · rintro ⟨nonempty, hread⟩
    exact ⟨(items, d), hread, by simp [nonempty]⟩

/-- The expressions of a plain index stand before its closing bracket. -/
theorem itemsReader_delimited (levels : Nat) : (itemsReader levels).Delimited .rightBracket lexemesAll
    fun items => items ≠ [] ∧ ∀ e ∈ items, e.Admitted levels where
  sound := by
    intro ts n items d hts h
    rcases itemsReader_eq_ok_iff.mp h with ⟨nonempty, hread⟩
    obtain ⟨rest, hd, suffix, tokens, admitted⟩ := listReader_sound hts hread
    exact ⟨rest, hd, suffix, tokens, nonempty, admitted⟩
  again := by
    rintro items us r rest n ⟨nonempty, admitted⟩ hr htokens
    exact itemsReader_eq_ok_iff.mpr ⟨nonempty, listReader_again admitted (by simp [hr]) htokens⟩

/-- The lexemes of a plain index are those of its expressions and the closing bracket. -/
theorem plainReader_copies (levels : Nat) : (plainReader levels).Copies (Closes levels) := by
  apply (itemsReader_delimited levels).copies.map
  rintro ⟨items, _⟩ own ⟨rfl, _, admitted⟩
  exact ⟨(spells_renderList (admitted_iff_all.mp admitted).1).between brackets_break.1
    brackets_break.2, admitted⟩

theorem verbatimReader_eq_ok_iff : verbatimReader (facing ts n) = .ok (index, d) ↔
    ∃ used r rest, ts = used ++ r :: rest ∧ verbatimLength? 0 0 ts = some used.length ∧
      r.kind = .mark .rightBracket ∧ index = .verbatim (excerpt used) ∧ d = facing rest n := by
  constructor
  · intro h
    unfold verbatimReader at h
    split at h
    · simp at h
    · rename_i length hlength
      rw [ahead_facing] at hlength
      rcases Reader.map_eq_ok_iff.mp h with ⟨t, rfl, hclose⟩
      rw [skip_facing] at hclose
      rcases Reader.expect_eq_ok_iff.mp hclose with ⟨r, rest, hdrop, hr, _, rfl⟩
      have split : ts = ts.take length ++ r :: rest := by rw [← hdrop, List.take_append_drop]
      have used : (ts.take length).length = length := by
        have := congrArg List.length hdrop
        simp only [List.length_drop, List.length_cons] at this
        rw [List.length_take]
        omega
      refine ⟨ts.take length, r, rest, split, by rw [used, hlength], hr, ?_, rfl⟩
      have text : facing ts n = facing (ts.take length ++ ts.drop length) n := by simp
      rw [skip_facing, text, textBetween_facing]
  · rintro ⟨used, r, rest, rfl, hlength, hr, rfl, rfl⟩
    simp [verbatimReader, hlength, Reader.map, Reader.expect_facing_cons hr, pure, Except.pure]

/-- The lexemes of an index kept as text are those that were read. -/
theorem verbatimReader_copies (levels : Nat) : verbatimReader.Copies (Closes levels) := by
  intro ts n index d hts h
  rcases verbatimReader_eq_ok_iff.mp h with ⟨used, r, rest, rfl, hlength, hr, rfl, rfl⟩
  have behind : r :: rest <:+ used ++ r :: rest := List.suffix_append used (r :: rest)
  have closing := token_of_mark (hts.of_suffix behind) hr
  refine ⟨relead "" used ++ [ofMark .rightBracket], rest, rfl, ⟨?_, ?_, ?_⟩, ?_, by simp [held]⟩
  · exact (List.suffix_cons r rest).trans behind
  · simp [closing]
  · intro own' rest' m alike htokens
    obtain ⟨us, ws, rfl, hus, hws⟩ := alike.exists_append
    obtain ⟨r', rfl, hr', htext⟩ := hws.exists_single
    have inside : Alike us used := hus.trans (.relead "" used)
    have same : (us ++ r' :: rest').map token = (used ++ r :: rest).map token := by
      rw [List.map_append, List.map_append, inside.tokens, List.map_cons, List.map_cons, htokens,
        closing, token, hr', htext]
      rfl
    have lengths : us.length = used.length := by
      simpa using congrArg List.length inside.tokens
    refine verbatimReader_eq_ok_iff.mpr ⟨us, r', rest', by simp, ?_, hr', ?_, rfl⟩
    · rw [List.append_assoc, List.singleton_append, verbatimLength?_congr same, hlength, lengths]
    · rw [inside.excerpt_eq]
  · exact (spells_excerpt hts.of_append_left).between brackets_break.1 brackets_break.2

/-- The lexemes of an index are its brackets and what stands between them. -/
theorem reader_copies (levels : Nat) : (reader levels).Copies fun index own =>
    own ≠ [] ∧ Trails index.render own ∧ ∀ e ∈ index.held, e.Admitted levels := by
  intro ts n index d hts h
  rcases reader_eq_ok_iff.mp h with ⟨l, us, plain, rfl, hl, hplain, hread⟩
  have content : (contentReader levels plain).Copies (Closes levels) := by
    cases plain with
    | true => exact plainReader_copies levels
    | false => exact verbatimReader_copies levels
  obtain ⟨own, rest, hd, copied, trails, admitted⟩ := content hts.tail hread
  refine ⟨ofMark .leftBracket :: own, rest, hd, ⟨?_, ?_, ?_⟩, by simp, trails, admitted⟩
  · exact copied.suffix.trans (List.suffix_cons l us)
  · simp [token_of_mark hts hl, copied.tokens]
  · intro own' rest' m alike htokens
    obtain ⟨l', vs, rfl, hl', _, hvs⟩ := alike.exists_cons
    have inside := Alike.of_map_face hvs
    have same : (vs ++ rest').map token = us.map token := by
      rw [List.map_append, inside.tokens, htokens, copied.tokens]
    refine reader_eq_ok_iff.mpr ⟨l', vs ++ rest', plain, rfl, hl', ?_,
      copied.again vs rest' m inside htokens⟩
    rw [isPlain?_congr same, hplain]

end Index

/-! ### Names with indices -/

namespace Indexed

/-- The expressions that an indexed name holds. -/
def held (target : Indexed) : List Expression :=
  target.indices.flatMap Index.held

/-- Whether a bracket opens. -/
def atBracket (c : Cursor) : Bool :=
  c.isAt (.mark .leftBracket)

theorem indexStep_eq (levels : Nat) :
    indexStep levels = Reader.manyStep atBracket (Index.reader levels) := rfl

/-- An indexed name is a name and the indices that are read behind it. -/
theorem reader_eq (levels : Nat) : reader levels = Reader.map (fun p => ⟨p.1, p.2⟩)
    (Reader.andThen (Reader.expect .identifier) (Reader.many atBracket (Index.reader levels))) := by
  funext c
  simp only [reader, indexStep_eq, Reader.map, Reader.andThen, Reader.many, bind_assoc, pure_bind]

/-- The lexemes of an indexed name are the name and those of its indices. -/
theorem reader_copies (levels : Nat) : (reader levels).Copies fun target own =>
    Prints target.render own ∧ ∀ e ∈ target.held, e.Admitted levels := by
  have indices := ((Index.reader_copies levels).when atBracket).many_trails
    (Reader.onTokens_isAt (.mark .leftBracket))
  rw [reader_eq]
  apply ((Reader.copies_expect .identifier).prints_trails indices).map
  rintro ⟨name, indices⟩ own ⟨printed, _, admitted⟩
  refine ⟨printed, ?_⟩
  intro e he
  rcases List.mem_flatMap.mp he with ⟨index, hindex, he⟩
  exact admitted index hindex e he

end Indexed

/-! ### Operands, sizes and arguments -/

namespace Operand

/-- The expressions that an operand holds. -/
def held : Operand → List Expression
  | .indexed target => target.held
  | .hardware _ => []

/-- A hardware qubit, or else an indexed name. -/
theorem reader_iff {levels : Nat} {c d : Cursor} {operand : Operand} :
    reader levels c = .ok (operand, d) ↔
      Reader.branch (Cursor.isAt .hardwareQubit)
        (Reader.map .hardware (Reader.expect .hardwareQubit))
        (Reader.map .indexed (Indexed.reader levels)) c = .ok (operand, d) := by
  unfold reader Reader.branch
  split
  · rename_i physical
    simp [Reader.map, Reader.expect, physical, pure, Except.pure]
  · split
    · rfl
    · rename_i unnamed
      simp [Reader.map, Indexed.reader, Reader.expect, unnamed]

/-- The lexemes of an operand are those of its name and indices, or itself. -/
theorem reader_copies (levels : Nat) : (reader levels).Copies fun operand own =>
    Prints operand.render own ∧ ∀ e ∈ operand.held, e.Admitted levels := by
  have hardware : (Reader.map .hardware (Reader.expect .hardwareQubit)).Copies fun operand own =>
      Prints operand.render own ∧ ∀ e ∈ held operand, e.Admitted levels :=
    (Reader.copies_expect .hardwareQubit).map fun _ _ good => ⟨good.1, by simp [held]⟩
  have indexed : (Reader.map .indexed (Indexed.reader levels)).Copies fun operand own =>
      Prints operand.render own ∧ ∀ e ∈ held operand, e.Admitted levels :=
    (Indexed.reader_copies levels).map fun _ _ good => good
  apply Reader.Copies.congr _ fun _ _ _ => reader_iff
  exact Reader.Copies.branch (Reader.onTokens_isAt _) (hardware.when _) indexed

end Operand

theorem designatorReader_eq (levels : Nat) : designatorReader levels =
    Reader.bracketed .leftBracket .rightBracket (Expression.reader levels) := rfl

/-- The lexemes of a size are its brackets and its expression. -/
theorem designatorReader_copies (levels : Nat) : (designatorReader levels).Copies fun size own =>
    Trails (renderDesignator size) own ∧ ∀ e ∈ size, e.Admitted levels := by
  have spells : ∀ ⦃e⦄, Admitted levels e → Spells e.render e.lexemes := by
    intro e good
    simpa using good.1.prints.spells
  have copies := Reader.copies_bracketed Expression.lexemes Expression.render (Admitted levels)
    brackets_break.1 brackets_break.2 (delimited levels (by decide)).copies spells
  rw [designatorReader_eq]
  apply copies.imp
  rintro (_ | e) own good <;> exact good

theorem GateCall.argumentsReader_eq (levels : Nat) : argumentsReader levels =
    Reader.bracketed .leftParen .rightParen (listReader (Expression.reader levels)) := rfl

/-- The lexemes of an argument list are its parentheses and its expressions. -/
theorem GateCall.argumentsReader_copies (levels : Nat) :
    (argumentsReader levels).Copies fun items own =>
      Trails (renderArguments items) own ∧ ∀ es ∈ items, ∀ e ∈ es, e.Admitted levels := by
  have isBreak : .leftParen ∈ breakMarks ∧ .rightParen ∈ breakMarks := by decide
  have spells : ∀ ⦃items⦄, (∀ e ∈ items, Admitted levels e) →
      Spells (renderList items) (lexemesAll items) :=
    fun items good => spells_renderList (admitted_iff_all.mp good).1
  have copies := Reader.copies_bracketed lexemesAll renderList (∀ e ∈ ·, Admitted levels e)
    isBreak.1 isBreak.2 (list_delimited levels (by decide)).copies spells
  rw [argumentsReader_eq]
  apply copies.imp
  rintro (_ | items) own good <;> exact good

end QasmDiagram
