/-
Module: QasmDiagram.Proofs.Program.Statements
Purpose: Statements of every form are printed by the tokens that were read and are read again from
  them. What a statement is, is decided by tokens alone, so its reader is found again as well.
Trusted boundary: none
Main exports: Declaration.reader_copies, Assignment.reader_copies, Statement.reader_copies,
  Statement.ReadAs, Statement.readAs_of_reader
-/
import QasmDiagram.Proofs.Program.GateCalls

namespace QasmDiagram

open Lexeme Cursor Rule Expression

variable {levels n : Nat} {ts : List Lexeme} {d : Cursor}

/-- A keyword and what is printed behind it. -/
theorem copies_keyword {α : Type} {R : Reader α} {render : α → String} {P : α → Prop}
    (word : Keyword) (hR : R.Copies fun v own => Prints (render v) own ∧ P v) :
    Reader.CopiesWhen (Cursor.isAt (.keyword word)) (Reader.behind fun _ => R) fun v own =>
      Prints (word.text ++ " " ++ render v) own ∧ P v := by
  intro ts n v d hts hmore h
  obtain ⟨own, rest, hd, copied, l, own', hl, hshape, ⟨printed, good⟩, rfl⟩ :=
    Reader.CopiesWhen.behind (fun _ => hR) hts hmore h
  have keyword : Prints word.text [l] := text_of_keyword hshape hl ▸ Prints.single hshape
  exact ⟨_, rest, hd, copied, keyword.append_blank printed, good⟩

/-- A keyword, one token and a semicolon. -/
theorem copies_directive {α : Type} {R : Reader String} {P : String → Prop} (word : Keyword)
    (answer : String → α) (hR : R.Copies fun text own => Prints text own ∧ P text) :
    Reader.CopiesWhen (Cursor.isAt (.keyword word))
      (Reader.map (answer ·.1) (Reader.behind fun _ =>
        Reader.andThen R (Reader.expect (.mark .semicolon))))
      fun v own => ∃ text, v = answer text ∧ P text ∧
        Prints (word.text ++ " " ++ (text ++ ";")) own :=
  (copies_keyword word (hR.prints_trails Reader.copies_semicolon)).map
    fun p _ good => ⟨p.1, rfl, good.2.1, good.1⟩

/-! ### Declarations -/

namespace Declaration

/-- What stands behind the keyword of a declaration: a name, perhaps a size, and a semicolon. -/
def behindKeyword (levels : Nat) : Reader (String × Option Expression × String) :=
  Reader.andThen (Reader.expect .identifier)
    (Reader.andThen (designatorReader levels) (Reader.expect (.mark .semicolon)))

theorem reader_eq (levels : Nat) (kind : TerminalKind) : reader levels kind =
    Reader.behind fun text =>
      Reader.map (fun p => ⟨⟨kind, text⟩, p.1, p.2.1⟩) (behindKeyword levels) := by
  funext c
  simp only [reader, behindKeyword, Reader.behind, Reader.map, Reader.andThen, bind_assoc, pure_bind]

/-- The lexemes of a declaration are its keyword, its name, those of its size and a semicolon. -/
theorem reader_copies (levels : Nat) (kind : TerminalKind) (word : Keyword) :
    Reader.CopiesWhen (Cursor.isAt (.keyword word)) (reader levels kind) fun decl own =>
      Prints decl.render own ∧ ∀ e ∈ decl.size, e.Admitted levels := by
  have parts : (behindKeyword levels).Copies fun p own =>
      Prints (p.1 ++ (renderDesignator p.2.1 ++ ";")) own ∧ ∀ e ∈ p.2.1, e.Admitted levels :=
    Reader.Copies.imp
      ((Reader.copies_expect .identifier).prints_trails
        ((designatorReader_copies levels).trails_trails Reader.copies_semicolon))
      fun _ _ ⟨printed, _, admitted, _⟩ => ⟨printed, admitted⟩
  -- the keyword that the declaration keeps is that of the lexeme in front
  have built : ∀ text, Reader.Copies
      (Reader.map (fun p => Declaration.mk ⟨kind, text⟩ p.1 p.2.1) (behindKeyword levels))
      fun decl own => decl.keyword.text = text ∧
        Prints (decl.name ++ (renderDesignator decl.size ++ ";")) own ∧
        ∀ e ∈ decl.size, e.Admitted levels :=
    fun text => parts.map fun _ _ good => ⟨rfl, good⟩
  rw [reader_eq]
  intro ts n decl d hts hmore h
  obtain ⟨own, rest, hd, copied, l, own', _, hshape, ⟨hkeyword, printed, admitted⟩, rfl⟩ :=
    Reader.CopiesWhen.behind built hts hmore h
  refine ⟨_, rest, hd, copied, ?_, admitted⟩
  have keyword : Prints decl.keyword.text [l] := hkeyword ▸ Prints.single hshape
  simpa [render, String.append_assoc] using keyword.append_blank printed

end Declaration

/-! ### Assignments -/

/-- The expressions that an assigned value holds. -/
def AssignedValue.held : AssignedValue → List Expression
  | .measure operand => operand.held
  | .expression e => [e]

namespace AssignedValue

/-- A value with the semicolon behind it: a measurement, or else an expression. -/
def closedReader (levels : Nat) : Reader AssignedValue :=
  Reader.branch (Cursor.isAt (.keyword .measure))
    (Reader.map (.measure ·.1) (Reader.behind fun _ =>
      Reader.andThen (Operand.reader levels) (Reader.expect (.mark .semicolon))))
    (Reader.map (.expression ·.1)
      (Reader.andThen (Expression.reader levels) (Reader.expect (.mark .semicolon))))

theorem closedReader_eq (levels : Nat) (c : Cursor) : closedReader levels c = (do
    let (value, c) ← reader levels c
    let (_, c) ← Reader.expect (.mark .semicolon) c
    return (value, c)) := by
  simp only [closedReader, reader, Reader.branch]
  split <;> simp only [Reader.map, Reader.behind, Reader.andThen, bind_assoc, pure_bind]

/-- The lexemes of a value are those of its operand or expression, and a semicolon. -/
theorem closedReader_copies (levels : Nat) : (closedReader levels).Copies fun value own =>
    Prints (value.render ++ ";") own ∧ ∀ e ∈ value.held, e.Admitted levels := by
  apply Reader.Copies.branch (Reader.onTokens_isAt _)
  · have measured := copies_keyword .measure
      ((Operand.reader_copies levels).prints_trails Reader.copies_semicolon)
    apply measured.map
    rintro ⟨operand, _⟩ own ⟨printed, admitted, _⟩
    refine ⟨?_, admitted⟩
    have spelling : Keyword.measure.text ++ " " = "measure " := rfl
    rwa [← String.append_assoc, spelling] at printed
  · apply (delimited levels (m := .semicolon) (by decide)).copies.map
    rintro ⟨e, _⟩ own ⟨rfl, admitted⟩
    exact ⟨admitted.1.prints.append_trails Trails.semicolon, by simpa [held] using admitted⟩

end AssignedValue

namespace Assignment

/-- The expressions that an assignment holds. -/
def held (a : Assignment) : List Expression :=
  a.target.held ++ a.value.held

/-- The operator of an assignment. -/
def operatorReader : Reader Terminal := fun c =>
  match c.terminal? TokenKind.assignmentOperator? with
  | none => throw (c.refuse .assignmentOperator)
  | some op => return (op, c.next)

theorem operatorReader_copies : operatorReader.Copies fun op own => Prints op.text own ∧ True := by
  have ok : ∀ {c : Cursor} {op d}, operatorReader c = .ok (op, d) ↔
      c.terminal? TokenKind.assignmentOperator? = some op ∧ d = c.next := by
    intro c op d
    unfold operatorReader
    cases c.terminal? TokenKind.assignmentOperator? <;>
      simp [throw, throwThe, MonadExceptOf.throw, pure, Except.pure, eq_comm]
  intro ts n op d hts h
  rcases ok.mp h with ⟨hop, rfl⟩
  rcases Cursor.terminal?_facing.mp hop with ⟨l, us, rfl, hrole, htext⟩
  refine ⟨[l], us, next_facing_cons, ⟨List.suffix_cons l us, rfl, ?_⟩,
    htext ▸ Prints.single hts.shapeOf, trivial⟩
  intro own' rest' m alike _
  obtain ⟨l', rfl, hl', htext'⟩ := alike.exists_single
  refine ok.mpr ⟨?_, next_facing_cons.symm⟩
  exact Cursor.terminal?_facing.mpr ⟨l', rest', rfl, hl' ▸ hrole, htext.trans htext'.symm⟩

/-- An assignment is a target, an operator and a value with its semicolon. -/
theorem reader_eq (levels : Nat) : reader levels =
    Reader.map (fun p => ⟨p.1, p.2.1, p.2.2⟩)
      (Reader.andThen (Indexed.reader levels)
        (Reader.andThen operatorReader (AssignedValue.closedReader levels))) := by
  funext c
  simp only [reader, Reader.map, Reader.andThen, bind_assoc, pure_bind]
  refine bind_congr fun target => ?_
  unfold operatorReader
  cases target.2.terminal? TokenKind.assignmentOperator? with
  | none => rfl
  | some op => simp only [pure_bind, AssignedValue.closedReader_eq, bind_assoc]

/-- The lexemes of an assignment are those of its target and value with the operator between. -/
theorem reader_copies (levels : Nat) : (reader levels).Copies fun a own =>
    Prints a.render own ∧ ∀ e ∈ a.held, e.Admitted levels := by
  have parts := (Indexed.reader_copies levels).prints_blank_prints
    (operatorReader_copies.prints_blank_prints (AssignedValue.closedReader_copies levels))
  rw [reader_eq]
  apply parts.map
  rintro ⟨target, op, value⟩ own ⟨printed, admitted, _, admitted'⟩
  refine ⟨by simpa [render, String.append_assoc] using printed, ?_⟩
  intro e he
  rcases List.mem_append.mp he with he | he
  · exact admitted e he
  · exact admitted' e he

end Assignment

namespace Statement

/-! ### Statements kept as text -/

/-- Where a statement kept as text ends is judged by tokens only. -/
theorem keptEnd_congr {us : List Lexeme} (h : ts.map token = us.map token) (depth taken : Nat) :
    keptEnd depth taken ts = keptEnd depth taken us := by
  induction ts generalizing us depth taken with
  | nil =>
      obtain rfl : us = [] := by simpa using h.symm
      rfl
  | cons l ts ih =>
      obtain ⟨l', us, rfl, hkind, _, hus⟩ := exists_cons_of_map_token h.symm
      have same : elseFollows ts = elseFollows us := by
        cases ts with
        | nil =>
            obtain rfl : us = [] := by simpa using hus
            rfl
        | cons r ts =>
            obtain ⟨r', us, rfl, hr, htext, _⟩ := exists_cons_of_map_token hus
            simp [elseFollows, hr, htext]
      simp only [keptEnd, hkind, same, ih hus.symm]

/-- A statement kept as text has at least one lexeme and ends within those ahead. -/
theorem keptEnd_bounds {depth taken length : Nat} (h : keptEnd depth taken ts = .ends length) :
    taken < length ∧ length ≤ taken + ts.length := by
  induction ts generalizing depth taken with
  | nil => simp [keptEnd] at h
  | cons l ts ih =>
      have goesOn : ∀ {depth}, keptEnd depth (taken + 1) ts = .ends length →
          taken < length ∧ length ≤ taken + (l :: ts).length := by
        intro depth h
        have := ih h
        simp only [List.length_cons]
        omega
      have endsHere : KeptEnd.ends (taken + 1) = .ends length →
          taken < length ∧ length ≤ taken + (l :: ts).length := by
        intro h
        cases h
        simp only [List.length_cons]
        omega
      unfold keptEnd at h
      split at h
      · exact goesOn h
      · split at h
        · simp at h
        · split at h
          · exact endsHere h
          · exact goesOn h
      · split at h
        · exact endsHere h
        · exact goesOn h
      · exact goesOn h

theorem keptReader_eq_ok_iff {rule : KeptRule} {s : Statement} :
    keptReader rule (facing ts n) = .ok (s, d) ↔
      ∃ used rest, ts = used ++ rest ∧ keptEnd 0 0 ts = .ends used.length ∧
        s = .kept rule (excerpt used) ∧ d = facing rest n := by
  constructor
  · intro h
    unfold keptReader at h
    split at h
    · rename_i length hend
      rw [ahead_facing] at hend
      have bounds := keptEnd_bounds hend
      have used : (ts.take length).length = length := by
        rw [List.length_take]
        omega
      have split : facing ts n = facing (ts.take length ++ ts.drop length) n := by simp
      rw [skip_facing] at h
      cases h
      refine ⟨ts.take length, ts.drop length, by simp, by rw [used, hend], ?_, rfl⟩
      rw [split, textBetween_facing]
    · simp at h
    · simp at h
    · simp at h
  · rintro ⟨used, rest, rfl, hend, rfl, rfl⟩
    simp [keptReader, hend]

/-- The lexemes of a statement kept as text are those that were read. -/
theorem keptReader_copies (rule : KeptRule) : (keptReader rule).Copies fun s own =>
    ∃ text, s = .kept rule text ∧ Prints text own := by
  intro ts n s d hts h
  rcases keptReader_eq_ok_iff.mp h with ⟨used, rest, rfl, hend, rfl, rfl⟩
  have nonempty : used ≠ [] := List.length_pos_iff.mp (keptEnd_bounds hend).1
  refine ⟨used, rest, rfl, ⟨List.suffix_append used rest, List.map_append, ?_⟩, _, rfl,
    Prints.of_sourced hts.of_append_left nonempty⟩
  intro own' rest' m alike htokens
  have same : (own' ++ rest').map token = (used ++ rest).map token := by
    rw [List.map_append, List.map_append, alike.tokens, htokens]
  have lengths : own'.length = used.length := by
    simpa using congrArg List.length alike.tokens
  refine keptReader_eq_ok_iff.mpr ⟨own', rest', rfl, ?_, ?_, rfl⟩
  · rw [keptEnd_congr same, hend, lengths]
  · rw [alike.excerpt_eq]

/-! ### Inclusions -/

/-- The rule for strings. -/
theorem table_strings : ∀ rule ∈ table,
    rule.shape = .token .string → rule.pattern = closedString := by
  decide

/-- A string stands between quotes. -/
theorem text_of_string {text : String} (h : shapeOf? table text.toList = some (.token .string)) :
    text = "\"" ++ String.ofList ((text.toList.drop 1).dropLast) ++ "\"" := by
  obtain ⟨rule, hrule, hshape, hmatch⟩ := exists_matches_of_shapeOf? h
  rw [table_strings rule hrule hshape] at hmatch
  rcases matches_closedString.mp hmatch with ⟨b, hb, _⟩
  rw [← String.toList_inj, hb]
  simp

theorem inclusionReader_eq : inclusionReader =
    Reader.map (fun p => inclusion (String.ofList ((p.1.toList.drop 1).dropLast)))
      (Reader.behind fun _ =>
        Reader.andThen (Reader.expect .string) (Reader.expect (.mark .semicolon))) := by
  funext c
  simp only [inclusionReader, Reader.map, Reader.behind, Reader.andThen, bind_assoc, pure_bind]

/-- The lexemes of an inclusion are its keyword, its path in quotes and a semicolon. -/
theorem inclusionReader_copies :
    Reader.CopiesWhen (Cursor.isAt (.keyword .inclusion)) inclusionReader fun s own =>
      ∃ path, s = .inclusion path ∧ Prints s.render own := by
  rw [inclusionReader_eq]
  intro ts n s d hts hmore h
  obtain ⟨own, rest, hd, copied, quoted, rfl, hshape, printed⟩ :=
    copies_directive .inclusion
      (fun quoted => inclusion (String.ofList ((quoted.toList.drop 1).dropLast)))
      (Reader.copies_expect .string) hts hmore h
  refine ⟨own, rest, hd, copied, _, rfl, ?_⟩
  have front : Keyword.inclusion.text ++ " " ++ "\"" = "include \"" := rfl
  have back : "\"" ++ ";" = "\";" := rfl
  rw [text_of_string hshape] at printed
  rw [render, ← front, ← back]
  simpa only [String.append_assoc] using printed

/-! ### Statements of every form -/

/-- The expressions that a statement holds; the text of a kept one holds none. -/
def held : Statement → List Expression
  | .inclusion _ => []
  | .declaration decl => decl.size.toList
  | .gateCall c => c.held
  | .assignment a => a.held
  | .kept _ _ => []

/-- The lexemes print the statement, whose expressions are admitted. -/
def Printed (levels : Nat) (s : Statement) (own : List Lexeme) : Prop :=
  Prints s.render own ∧ ∀ e ∈ s.held, e.Admitted levels

theorem declarationReader_eq (levels : Nat) (kind : TerminalKind) : declarationReader levels kind =
    Reader.map .declaration (Declaration.reader levels kind) := rfl

theorem declarationReader_copies (levels : Nat) (kind : TerminalKind) (word : Keyword) :
    Reader.CopiesWhen (Cursor.isAt (.keyword word)) (declarationReader levels kind)
      (Printed levels) := by
  rw [declarationReader_eq]
  apply (Declaration.reader_copies levels kind word).map
  rintro decl own ⟨printed, admitted⟩
  refine ⟨printed, ?_⟩
  intro e he
  exact admitted e (by simpa [held] using he)

theorem gateCallReader_eq (levels : Nat) :
    gateCallReader levels = Reader.map .gateCall (GateCall.reader levels) := rfl

theorem gateCallReader_copies (levels : Nat) : (gateCallReader levels).Copies (Printed levels) := by
  rw [gateCallReader_eq]
  exact (GateCall.reader_copies levels).map fun _ _ good => good

theorem assignmentReader_copies (levels : Nat) :
    (Reader.map .assignment (Assignment.reader levels)).Copies (Printed levels) :=
  (Assignment.reader_copies levels).map fun _ _ good => good

/-- A kept statement prints its text and holds no expression. -/
theorem keptReader_prints (levels : Nat) (rule : KeptRule) :
    (keptReader rule).Copies (Printed levels) := by
  intro ts n s d hts h
  obtain ⟨own, rest, hd, copied, text, rfl, printed⟩ := keptReader_copies rule hts h
  exact ⟨own, rest, hd, copied, printed, by simp [held]⟩

/-- Whether a name is assigned to is judged by tokens only. -/
theorem assigns_congr {us : List Lexeme} (h : ts.map token = us.map token) (depth : Nat) :
    Indexed.assigns depth ts = Indexed.assigns depth us := by
  induction ts generalizing us depth with
  | nil =>
      obtain rfl : us = [] := by simpa using h.symm
      rfl
  | cons l ts ih =>
      obtain ⟨l', us, rfl, hkind, _, hus⟩ := exists_cons_of_map_token h.symm
      simp only [Indexed.assigns, hkind, ih hus.symm]

/-- A statement that opens with a name goes to a reader that the tokens ahead determine. -/
theorem namedReader_follows (levels : Nat) (l : Lexeme) (ts : List Lexeme) :
    ∃ R : Reader Statement, R.Copies (Printed levels) ∧
      ∀ us m, us.map token = (l :: ts).map token →
        namedReader levels (facing us m) = R (facing us m) := by
  cases hrule : KeptRule.ofWord? l.text with
  | some rule =>
      refine ⟨keptReader rule, keptReader_prints levels rule, ?_⟩
      intro us m h
      obtain ⟨l', us, rfl, _, htext, _⟩ := exists_cons_of_map_token h
      simp [namedReader, htext, hrule]
  | none =>
      cases hassigns : Indexed.assigns 0 ts with
      | true =>
          refine ⟨Reader.map .assignment (Assignment.reader levels), assignmentReader_copies levels, ?_⟩
          intro us m h
          obtain ⟨l', us, rfl, _, htext, hus⟩ := exists_cons_of_map_token h
          simp only [namedReader, text_facing_cons, htext, hrule, next_facing_cons, ahead_facing,
            assigns_congr hus, hassigns, if_true]
          rfl
      | false =>
          refine ⟨gateCallReader levels, gateCallReader_copies levels, ?_⟩
          intro us m h
          obtain ⟨l', us, rfl, _, htext, hus⟩ := exists_cons_of_map_token h
          simp [namedReader, htext, hrule, assigns_congr hus, hassigns]

/-- The lexemes of a statement that opens with a name are those of the form it has. -/
theorem namedReader_copies (levels : Nat) :
    Reader.CopiesWhen (Cursor.isAt .identifier) (namedReader levels) (Printed levels) := by
  intro ts n s d hts hmore h
  rcases isAt_facing_iff.mp hmore with ⟨l, us, rfl, _⟩
  obtain ⟨R, copies, same⟩ := namedReader_follows levels l us
  rw [same _ n rfl] at h
  obtain ⟨own, rest, hd, copied, good⟩ := copies hts h
  exact ⟨own, rest, hd, copied.of_eq same, good⟩

/-- A choice by the class of the first lexeme is made again before the same tokens. -/
theorem reader_eq_of_kind {l : Lexeme} {us : List Lexeme} {R : Reader Statement}
    (h : ∀ l' us' m, l'.kind = l.kind →
      reader levels (facing (l' :: us') m) = R (facing (l' :: us') m)) :
    ∀ ts m, ts.map token = (l :: us).map token → reader levels (facing ts m) = R (facing ts m) := by
  intro ts m htokens
  obtain ⟨l', us', rfl, hkind, _⟩ := exists_cons_of_map_token htokens
  exact h l' us' m hkind

/-- The lexemes of a statement are those of the form it has. -/
theorem reader_copies (levels : Nat) : (reader levels).Copies (Printed levels) := by
  intro ts n s d hts h
  cases ts with
  | nil => simp [reader] at h
  | cons l us =>
      -- the class that is asked for is that of `l`, and a copy starts with the same class
      have choose : ∀ {R : Reader Statement},
          (∃ own rest, d = facing rest n ∧ R.Copied s (l :: us) own rest ∧ Printed levels s own) →
          (∀ l' us' m, l'.kind = l.kind →
            reader levels (facing (l' :: us') m) = R (facing (l' :: us') m)) →
          ∃ own rest, d = facing rest n ∧ (reader levels).Copied s (l :: us) own rest ∧
            Printed levels s own := by
        rintro R ⟨own, rest, hd, copied, good⟩ same
        exact ⟨own, rest, hd, copied.of_eq (reader_eq_of_kind same), good⟩
      unfold reader at h
      simp only [kind?_facing_cons] at h
      split at h
      case h_1 hkind =>
          have hl : l.kind = .keyword .inclusion := by simpa using hkind
          obtain ⟨own, rest, hd, copied, path, rfl, printed⟩ :=
            inclusionReader_copies hts (by simp [hl]) h
          exact choose ⟨own, rest, hd, copied, printed, by simp [held]⟩
            fun l' us' m hl' => by simp [reader, hl', hl]
      case h_2 hkind =>
          have hl : l.kind = .keyword .qreg := by simpa using hkind
          exact choose (declarationReader_copies levels .qreg .qreg hts (by simp [hl]) h)
            fun l' us' m hl' => by simp [reader, hl', hl]
      case h_3 hkind =>
          have hl : l.kind = .keyword .creg := by simpa using hkind
          exact choose (declarationReader_copies levels .creg .creg hts (by simp [hl]) h)
            fun l' us' m hl' => by simp [reader, hl', hl]
      case h_4 hkind =>
          have hl : l.kind = .keyword .measure := by simpa using hkind
          exact choose (keptReader_prints levels .measureArrowAssignment hts h)
            fun l' us' m hl' => by simp [reader, hl', hl]
      case h_9 hkind =>
          have hl : l.kind = .identifier := by simpa using hkind
          exact choose (namedReader_copies levels hts (by simp [hl]) h)
            fun l' us' m hl' => by simp [reader, hl', hl]
      case h_10 => simp at h
      -- the four words that open a modifier
      all_goals
        rename_i hkind
        have hl := Option.some.inj hkind
        exact choose (gateCallReader_copies levels hts h)
          fun l' us' m hl' => by simp [reader, hl', hl]

/-! ### The reader behind a statement -/

/-- A statement as the reader of its form gives it. -/
inductive ReadAs (levels : Nat) (c d : Cursor) : Statement → Prop where
  | inclusion {path} : inclusionReader c = .ok (.inclusion path, d) →
      ReadAs levels c d (.inclusion path)
  | declaration {kind decl} : Declaration.reader levels kind c = .ok (decl, d) →
      ReadAs levels c d (.declaration decl)
  | gateCall {call} : GateCall.reader levels c = .ok (call, d) → ReadAs levels c d (.gateCall call)
  | assignment {a} : Assignment.reader levels c = .ok (a, d) → ReadAs levels c d (.assignment a)
  | kept {rule text} : keptReader rule c = .ok (.kept rule text, d) →
      ReadAs levels c d (.kept rule text)

namespace ReadAs

variable {c : Cursor} {s : Statement}

theorem of_inclusion (h : inclusionReader c = .ok (s, d)) : ReadAs levels c d s := by
  have read := h
  rw [inclusionReader_eq] at read
  rcases Reader.map_eq_ok_iff.mp read with ⟨_, rfl, _⟩
  exact .inclusion h

theorem of_declaration {kind : TerminalKind} (h : declarationReader levels kind c = .ok (s, d)) :
    ReadAs levels c d s := by
  rcases Reader.map_eq_ok_iff.mp h with ⟨_, rfl, read⟩
  exact .declaration read

theorem of_gateCall (h : gateCallReader levels c = .ok (s, d)) : ReadAs levels c d s := by
  rcases Reader.map_eq_ok_iff.mp h with ⟨_, rfl, read⟩
  exact .gateCall read

theorem of_kept {rule : KeptRule} (h : keptReader rule c = .ok (s, d)) : ReadAs levels c d s := by
  have read := h
  rw [eq_facing c] at read
  rcases keptReader_eq_ok_iff.mp read with ⟨_, _, _, _, rfl, _⟩
  exact .kept h

theorem of_named (h : namedReader levels c = .ok (s, d)) : ReadAs levels c d s := by
  unfold namedReader at h
  split at h
  case h_1 => exact of_kept h
  case h_2 =>
    split at h
    case isTrue =>
      rcases Reader.map_eq_ok_iff.mp h with ⟨_, rfl, read⟩
      exact .assignment read
    case isFalse => exact of_gateCall h

end ReadAs

/-- A statement that is read comes from the reader of its form. -/
theorem readAs_of_reader {c : Cursor} {s : Statement} (h : reader levels c = .ok (s, d)) :
    ReadAs levels c d s := by
  unfold reader at h
  split at h
  case h_1 => exact .of_inclusion h
  case h_2 => exact .of_declaration h
  case h_3 => exact .of_declaration h
  case h_4 => exact .of_kept h
  case h_9 => exact .of_named h
  case h_10 => simp at h
  -- the four words that open a modifier
  all_goals exact .of_gateCall h

end Statement

end QasmDiagram
