/-
Module: QasmDiagram.Proofs.Program.Layout
Purpose: No reader of the language looks at layout. Sources with the same tokens are read alike up to
  the texts that a program keeps as they stand in the source: ranges and sets, modifiers, and
  statements that are not taken apart.
Trusted boundary: none
Main exports: Program.bare, Expression.reader_layoutFree, GateCall.reader_layoutFree,
  Statement.reader_layoutFree, Item.reader_layoutFree, Program.ofText_agree
-/
import QasmDiagram.Proofs.Layout
import QasmDiagram.Proofs.Program.RoundTrip

namespace QasmDiagram

open Lexeme Cursor
open ParseError (Moved SameKind)
open Reader (LayoutFree Reached)

/-! ### Expressions -/

namespace Expression

variable {item inner signed : Reader Expression} {right : Nat → Reader Expression}

theorem listReader_layoutFree (h : item.LayoutFree id) : (listReader item).LayoutFree id := by
  have list : (Reader.commaSeparated item).LayoutFree id := h.commaSeparated.coarsen (by simp)
  intro V c c' same
  unfold listReader
  rw [same.isAt_eq, same.isAt_eq]
  split
  · exact .ok ⟨V.shows_rfl _ _, same⟩
  · exact list same

theorem primaryReader_layoutFree (h : inner.LayoutFree id) :
    (primaryReader inner).LayoutFree id := by
  intro V c c' same
  unfold primaryReader
  rw [same.isAt_eq, same.isAt_eq, same.next.isAt_eq, same.terminal?_eq, same.text_eq]
  split
  · apply h.bind same.next
    intro e d d' behind
    exact Reader.agree_closed (V.shows_rfl _ _) behind _
  · split
    · apply (listReader_layoutFree h).bind same.next.next
      intro items d d' behind
      exact Reader.agree_closed (V.shows_rfl _ _) behind _
    · split
      · exact .ok ⟨V.shows_rfl _ _, same.next⟩
      · exact .error (same.refuse _)

theorem operandReader_layoutFree (hsigned : signed.LayoutFree id) (hinner : inner.LayoutFree id) :
    (operandReader signed inner).LayoutFree id := by
  intro V c c' same
  unfold operandReader
  rw [same.terminal?_eq]
  split
  · apply hsigned.bind same.next
    intro e d d' behind
    exact .ok ⟨V.shows_rfl _ _, behind⟩
  · exact primaryReader_layoutFree hinner same

theorem operatorStep_agree (h : ∀ least, (right least).LayoutFree id) (least : Nat)
    (lhs : Expression) {V : Variation} {c c' : Cursor} (same : c.SameTokens V c') :
    Agree (Moved V.lines) (Option.Rel (Reached V (V.Shows id))) (operatorStep right least lhs c)
      (operatorStep right least lhs c') := by
  unfold operatorStep
  rw [same.terminal?_eq]
  split
  · exact .ok .none
  · split
    · exact .ok .none
    · apply (h _).bind same.next
      intro rhs d d' behind
      exact .ok (.some ⟨V.shows_rfl _ _, behind⟩)

theorem chainReader_layoutFree (hinner : inner.LayoutFree id)
    (hright : ∀ least, (right least).LayoutFree id) (least : Nat) :
    (chainReader inner right least).LayoutFree id := by
  intro V c c' same
  apply hinner.bind same
  intro first d d' behind
  refine Reader.agree_repeatFrom ?_ (V.shows_rfl id first) behind
  rintro lhs _ c c' ⟨rfl, _⟩ same
  exact operatorStep_agree hright least lhs same

/-- Reading an expression is a matter of tokens, whatever levels are left. -/
theorem readers_layoutFree (levels : Nat) :
    (∀ least, (binaryAt levels least).LayoutFree id) ∧ (signedAt levels).LayoutFree id := by
  induction levels with
  | zero => exact ⟨fun _ => Reader.layoutFree_tooDeep, Reader.layoutFree_tooDeep⟩
  | succ levels ih =>
      have operand := operandReader_layoutFree ih.2 (ih.1 0)
      exact ⟨fun least => chainReader_layoutFree operand ih.1 least, operand⟩

theorem reader_layoutFree (levels : Nat) : (reader levels).LayoutFree id :=
  (readers_layoutFree levels).1 0

end Expression

/-! ### Indices and operands -/

/-- An index without the text of a range or set. -/
def Index.bare : Index → Index
  | .expressions items => .expressions items
  | .verbatim _ => .verbatim ""

theorem Index.reader_layoutFree (levels : Nat) : (reader levels).LayoutFree bare := by
  have list := Expression.listReader_layoutFree (Expression.reader_layoutFree levels)
  intro V c c' same
  unfold reader
  apply (Reader.layoutFree_expect _).bind same
  intro _ d d' inside
  dsimp only
  rw [isPlain?_congr inside.tokens, verbatimLength?_congr inside.tokens]
  split
  · exact .error (.unclosed _ same.line)
  · apply list.bind inside
    intro items e e' behind
    dsimp only
    split
    · exact .error (behind.refuse _)
    · exact Reader.agree_closed (V.shows_rfl _ _) behind _
  · split
    · exact .error (.unclosed _ same.line)
    · have shown : ∀ n, V.Shows bare (verbatim (d.textBetween (d.skip n)))
          (verbatim (d'.textBetween (d'.skip n))) := by
        intro n
        exact ⟨rfl, fun layout => congrArg verbatim (inside.textBetween_eq (inside.skip n) layout)⟩
      exact Reader.agree_closed (shown _) (inside.skip _) _

/-- An indexed name without the texts of its ranges and sets. -/
def Indexed.bare (target : Indexed) : Indexed :=
  { target with indices := target.indices.map Index.bare }

theorem Indexed.reader_layoutFree (levels : Nat) : (reader levels).LayoutFree bare := by
  have indices : (Reader.many atBracket (Index.reader levels)).LayoutFree (List.map Index.bare) :=
    (Index.reader_layoutFree levels).many fun _ _ _ same => same.isAt_eq _
  rw [reader_eq]
  apply ((Reader.layoutFree_expect .identifier).andThen indices).map
  rintro ⟨name, indices⟩ ⟨name', indices'⟩ alike
  simpa [bare] using alike

/-- An operand without the texts of its ranges and sets. -/
def Operand.bare : Operand → Operand
  | .indexed target => .indexed target.bare
  | .hardware name => .hardware name

theorem Operand.reader_layoutFree (levels : Nat) : (reader levels).LayoutFree bare := by
  intro V c c' same
  unfold reader
  rw [same.isAt_eq, same.isAt_eq, same.text_eq]
  split
  · exact .ok ⟨V.shows_rfl _ _, same.next⟩
  · split
    · apply (Indexed.reader_layoutFree levels same).bind
      rintro ⟨target, d⟩ ⟨target', d'⟩ ⟨alike, behind⟩
      exact .ok ⟨alike.map fun looks => by simpa [bare] using looks, behind⟩
    · exact .error (same.refuse _)

theorem designatorReader_layoutFree (levels : Nat) : (designatorReader levels).LayoutFree id := by
  rw [designatorReader_eq]
  exact (Expression.reader_layoutFree levels).bracketed.coarsen (by simp)

/-! ### Gate calls -/

namespace GateCall

/-- A gate call without the texts of its modifiers, of which it keeps the number. -/
def bare (call : GateCall) : GateCall :=
  { call with modifiers := call.modifiers.map fun _ => "", operands := call.operands.map Operand.bare }

theorem modifierEnd_agree (levels : Nat) {V : Variation} {c c' : Cursor}
    (same : c.SameTokens V c') :
    Agree (Moved V.lines) (SameTokens V) (modifierEnd levels c) (modifierEnd levels c') := by
  unfold modifierEnd
  rw [same.isAt_eq]
  split
  · apply (Expression.reader_layoutFree levels).bind same.next
    intro _ d d' behind
    apply (Reader.layoutFree_expect _).bind behind
    intro _ d d' behind
    exact .ok behind
  · exact .ok same

theorem modifierReader_layoutFree (levels : Nat) :
    (modifierReader levels).LayoutFree fun _ => "" := by
  intro V c c' same
  apply (modifierEnd_agree levels same.next).bind
  intro d d' behind
  have shown : V.Shows (fun _ => "") (c.textBetween d) (c'.textBetween d') :=
    ⟨rfl, same.textBetween_eq behind⟩
  exact Reader.agree_closed shown behind _

theorem reader_layoutFree (levels : Nat) : (reader levels).LayoutFree bare := by
  have modifiers : (Reader.many atModifier (modifierReader levels)).LayoutFree
      (List.map fun _ => "") :=
    (modifierReader_layoutFree levels).many fun V c c' same => by
      rw [atModifier, atModifier, same.kind?_eq]
  have arguments : (argumentsReader levels).LayoutFree id := by
    rw [argumentsReader_eq]
    exact (Expression.listReader_layoutFree
      (Expression.reader_layoutFree levels)).bracketed.coarsen (by simp)
  have operands : (operandsReader levels).LayoutFree (List.map Operand.bare) :=
    .branch (Reader.layoutFree_pure []) (Operand.reader_layoutFree levels).commaSeparated
      fun _ _ _ same => same.isAt_eq _
  have named := (Reader.layoutFree_expect .identifier).andThen <| arguments.andThen <|
    (designatorReader_layoutFree levels).andThen <|
      operands.andThen (Reader.layoutFree_expect (.mark .semicolon))
  rw [reader_eq]
  apply (modifiers.andThen named).map
  rintro ⟨modifiers, gate, items, size, targets, _⟩ ⟨modifiers', gate', items', size', targets', _⟩ alike
  simp_all [bare]

end GateCall

/-! ### Statements -/

theorem Declaration.reader_layoutFree (levels : Nat) (kind : TerminalKind) :
    (reader levels kind).LayoutFree id := by
  have parts := (Reader.layoutFree_expect .identifier).andThen
    ((designatorReader_layoutFree levels).andThen (Reader.layoutFree_expect (.mark .semicolon)))
  rw [reader_eq]
  apply LayoutFree.behind
  intro keyword
  apply parts.map
  rintro ⟨name, size, _⟩ ⟨name', size', _⟩ alike
  simp_all

/-- An assigned value without the texts of its ranges and sets. -/
def AssignedValue.bare : AssignedValue → AssignedValue
  | .measure operand => .measure operand.bare
  | .expression e => .expression e

theorem AssignedValue.closedReader_layoutFree (levels : Nat) :
    (closedReader levels).LayoutFree bare := by
  have semicolon := Reader.layoutFree_expect (.mark .semicolon)
  refine .branch ?_ ?_ fun _ _ _ same => same.isAt_eq _
  · refine LayoutFree.map (.behind fun _ => (Operand.reader_layoutFree levels).andThen semicolon) ?_
    rintro ⟨operand, _⟩ ⟨operand', _⟩ alike
    simp_all [bare]
  · apply ((Expression.reader_layoutFree levels).andThen semicolon).map
    rintro ⟨e, _⟩ ⟨e', _⟩ alike
    simp_all [bare]

namespace Assignment

/-- An assignment without the texts of its ranges and sets. -/
def bare (a : Assignment) : Assignment :=
  { a with target := a.target.bare, value := a.value.bare }

theorem operatorReader_layoutFree : operatorReader.LayoutFree id := by
  intro V c c' same
  unfold operatorReader
  rw [same.terminal?_eq]
  split
  · exact .error (same.refuse _)
  · exact .ok ⟨V.shows_rfl _ _, same.next⟩

theorem reader_layoutFree (levels : Nat) : (reader levels).LayoutFree bare := by
  rw [reader_eq]
  apply ((Indexed.reader_layoutFree levels).andThen
    (operatorReader_layoutFree.andThen (AssignedValue.closedReader_layoutFree levels))).map
  rintro ⟨target, op, value⟩ ⟨target', op', value'⟩ alike
  simp_all [bare]

end Assignment

namespace Statement

/-- A statement without the texts that are kept as they stand in the source. -/
def bare : Statement → Statement
  | .inclusion path => .inclusion path
  | .declaration d => .declaration d
  | .gateCall call => .gateCall call.bare
  | .assignment a => .assignment a.bare
  | .kept rule _ => .kept rule ""

theorem keptReader_layoutFree (rule : KeptRule) : (keptReader rule).LayoutFree bare := by
  intro V c c' same
  unfold keptReader
  rw [keptEnd_congr same.tokens]
  split
  · refine .ok ⟨⟨rfl, fun layout => ?_⟩, same.skip _⟩
    rw [same.textBetween_eq (same.skip _) layout]
  · exact .error ((same.skip _).refuse _)
  · exact .error (.unclosed _ same.line)
  · exact .error (.unexpectedEnd _)

theorem inclusionReader_layoutFree : inclusionReader.LayoutFree bare := by
  rw [inclusionReader_eq]
  refine LayoutFree.map (.behind fun _ => (Reader.layoutFree_expect .string).andThen
    (Reader.layoutFree_expect (.mark .semicolon))) ?_
  rintro ⟨path, _⟩ ⟨path', _⟩ alike
  simp_all [bare]

theorem declarationReader_layoutFree (levels : Nat) (kind : TerminalKind) :
    (declarationReader levels kind).LayoutFree bare := by
  rw [declarationReader_eq]
  apply (Declaration.reader_layoutFree levels kind).map
  rintro d d' (rfl : d = d')
  rfl

theorem gateCallReader_layoutFree (levels : Nat) : (gateCallReader levels).LayoutFree bare := by
  rw [gateCallReader_eq]
  exact (GateCall.reader_layoutFree levels).map fun _ _ alike => congrArg gateCall alike

theorem namedReader_layoutFree (levels : Nat) : (namedReader levels).LayoutFree bare := by
  intro V c c' same
  unfold namedReader
  rw [same.text_eq, assigns_congr same.next.tokens]
  split
  · exact keptReader_layoutFree _ same
  · split
    · apply (Assignment.reader_layoutFree levels same).bind
      rintro ⟨a, d⟩ ⟨a', d'⟩ ⟨alike, behind⟩
      exact .ok ⟨alike.map (congrArg assignment), behind⟩
    · exact gateCallReader_layoutFree levels same

theorem reader_layoutFree (levels : Nat) : (reader levels).LayoutFree bare := by
  intro V c c' same
  unfold reader
  rw [same.kind?_eq]
  split
  case h_1 => exact inclusionReader_layoutFree same
  case h_2 => exact declarationReader_layoutFree levels .qreg same
  case h_3 => exact declarationReader_layoutFree levels .creg same
  case h_4 => exact keptReader_layoutFree _ same
  case h_9 => exact namedReader_layoutFree levels same
  case h_10 => exact .error (same.refuse _)
  -- the four words that open a modifier
  all_goals exact gateCallReader_layoutFree levels same

end Statement

/-! ### Items, elements, programs -/

namespace Item

mutual

/-- An item without the texts that are kept as they stand in the source. -/
def bare : Item → Item
  | .statement s => .statement s.bare
  | .scope body => .scope (bareAll body)

/-- Several items without such texts. -/
def bareAll : List Item → List Item
  | [] => []
  | first :: others => first.bare :: bareAll others

end

theorem bareAll_eq_map (body : List Item) : bareAll body = body.map bare := by
  induction body with
  | nil => rfl
  | cons first others ih => rw [bareAll, ih, List.map_cons]

theorem readerWith_layoutFree {statement : Reader Statement} {inner : Reader Item}
    (hstatement : statement.LayoutFree Statement.bare) (hinner : inner.LayoutFree bare) :
    (readerWith statement inner).LayoutFree bare := by
  have onTokens : ∀ ⦃V : Variation⦄ ⦃c c' : Cursor⦄, c.SameTokens V c' → atItem c = atItem c' := by
    intro V c c' same
    rw [atItem, atItem, same.isNone_eq, same.isAt_eq]
  intro V c c' same
  unfold readerWith
  rw [same.isAt_eq, scopeStep_eq]
  split
  · apply (hinner.repeatFrom_manyStep onTokens (V.shows_rfl _ []) same.next).bind
    rintro ⟨items, d⟩ ⟨items', d'⟩ ⟨alike, behind⟩
    dsimp only at alike behind ⊢
    rw [behind.isAt_eq]
    split
    · refine .ok ⟨(Reader.shows_reverse alike).map fun looks => ?_, behind.next⟩
      simpa [bare, bareAll_eq_map] using looks
    · exact .error (.unclosed _ same.line)
  · apply (hstatement same).bind
    rintro ⟨s, d⟩ ⟨s', d'⟩ ⟨alike, behind⟩
    exact .ok ⟨alike.map fun looks => by simpa [bare] using looks, behind⟩

theorem reader_layoutFree (levels : Nat) : (reader levels).LayoutFree bare := by
  induction levels with
  | zero => exact readerWith_layoutFree (Statement.reader_layoutFree 0) Reader.layoutFree_tooDeep
  | succ levels ih => exact readerWith_layoutFree (Statement.reader_layoutFree (levels + 1)) ih

end Item

namespace Element

/-- An element without the texts that are kept as they stand in the source. -/
def bare : Element → Element
  | .item i => .item i.bare
  | element => element

theorem versionReader_layoutFree : versionReader.LayoutFree bare := by
  intro V c c' same
  have next := same.next
  unfold versionReader
  dsimp only
  rw [next.isAt_eq, next.isAt_eq, next.text_eq]
  split
  · exact Reader.agree_closed (V.shows_rfl _ _) next.next _
  · exact .error (next.refuse _)

theorem reader_layoutFree (levels : Nat) : (reader levels).LayoutFree bare := by
  rw [reader_eq]
  apply versionReader_layoutFree.branch
  · exact (Item.reader_layoutFree levels).map fun _ _ alike => congrArg item alike
  · exact fun _ _ _ same => same.isAt_eq _

end Element

namespace Program

/-- A program without the texts that are kept as they stand in the source: ranges and sets,
modifiers, and statements that are not taken apart. -/
def bare (p : Program) : Program :=
  ⟨p.children.map Element.bare⟩

theorem ofCursor_agree {V : Variation} {c c' : Cursor} (same : c.SameTokens V c') :
    Agree (Moved V.lines) (V.Shows bare) (ofCursor c) (ofCursor c') := by
  have onTokens : ∀ ⦃V : Variation⦄ ⦃c c' : Cursor⦄, c.SameTokens V c' →
      atElement c = atElement c' := by
    intro V c c' same
    rw [atElement, atElement, same.isNone_eq]
  unfold ofCursor
  rw [elementStep_eq]
  apply ((Element.reader_layoutFree nestingLimit).repeatFrom_manyStep onTokens
    (V.shows_rfl _ []) same).bind
  rintro ⟨elements, d⟩ ⟨elements', d'⟩ ⟨alike, _⟩
  apply Agree.ok
  refine ⟨by simpa [bare] using alike.1, fun layout => ?_⟩
  have equal : elements = elements' := alike.2 layout
  rw [equal]

/-- Sources with the same tokens are read alike, or refused for the same kind of cause. -/
theorem ofText_agree {source source' : String} {tokens : List (TokenKind × String)}
    (h : Lexeme.tokensOf source = .ok tokens) (h' : Lexeme.tokensOf source' = .ok tokens) :
    Agree SameKind (fun p p' => p.bare = p'.bare) (ofText source) (ofText source') := by
  rcases Except.bind_eq_ok_iff.mp h with ⟨⟨ts, n⟩, hlexemes, htokens⟩
  rcases Except.bind_eq_ok_iff.mp h' with ⟨⟨us, m⟩, hlexemes', htokens'⟩
  have same : ts.map token = us.map token :=
    (Except.ok.inj htokens).trans (Except.ok.inj htokens').symm
  have anyLines : List.Forall₂ (fun _ _ => True) (ts.map Lexeme.line) (us.map Lexeme.line) := by
    have lengths : ts.length = us.length := by simpa using congrArg List.length same
    exact List.forall₂_iff_get.mpr ⟨by simp [lengths], fun _ _ _ => trivial⟩
  have ahead : SameTokens ⟨fun _ _ => True, False⟩ ⟨ts, n, ts.length, rfl⟩ ⟨us, m, us.length, rfl⟩ :=
    ⟨same, anyLines, trivial, False.elim⟩
  unfold ofText
  rw [hlexemes, hlexemes']
  refine ((ofCursor_agree ahead).imp_error fun _ _ moved => moved.sameKind).mono ?_
  exact fun p p' alike => alike.1

end Program

end QasmDiagram
