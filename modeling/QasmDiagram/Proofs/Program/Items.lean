/-
Module: QasmDiagram.Proofs.Program.Items
Purpose: Items and elements are printed by the tokens that were read and are read again from them.
  A scope is printed with its items set apart by blanks, and costs one level of nesting.
Trusted boundary: none
Main exports: Item.held, Item.reader_copies, Element.held, Element.reader_copies
-/
import QasmDiagram.Proofs.Program.Statements

namespace QasmDiagram

open Lexeme Cursor Rule Expression

namespace Item

mutual

/-- The expressions that an item holds, each with the number of scopes of the item around it. -/
def held : Item → List (Nat × Expression)
  | .statement s => s.held.map fun e => (0, e)
  | .scope body => (heldAll body).map fun (scopes, e) => (scopes + 1, e)

/-- The expressions that several items hold. -/
def heldAll : List Item → List (Nat × Expression)
  | [] => []
  | first :: others => first.held ++ heldAll others

end

theorem mem_heldAll {body : List Item} {p : Nat × Expression} :
    p ∈ heldAll body ↔ ∃ i ∈ body, p ∈ i.held := by
  induction body with
  | nil => simp [heldAll]
  | cons first others ih => simp [heldAll, ih]

/-- Each expression of an item is canonical, and nests no deeper than the scopes around it allow. -/
def Admitted (levels : Nat) (i : Item) : Prop :=
  ∀ scopes e, (scopes, e) ∈ i.held → e.Canonical ∧ scopes + e.nesting ≤ levels

theorem mem_held_scope {body : List Item} {scopes : Nat} {e : Expression} :
    (scopes, e) ∈ (scope body).held ↔ ∃ k, scopes = k + 1 ∧ ∃ i ∈ body, (k, e) ∈ i.held := by
  rw [held, List.mem_map]
  constructor
  · rintro ⟨⟨k, e'⟩, hmem, hpair⟩
    cases hpair
    exact ⟨k, rfl, mem_heldAll.mp hmem⟩
  · rintro ⟨k, rfl, hmem⟩
    exact ⟨(k, e), mem_heldAll.mpr hmem, rfl⟩

/-- A scope takes one level from the item in it. -/
theorem Admitted.scope_singleton {levels : Nat} {i : Item} (h : i.Admitted levels) :
    (scope [i]).Admitted (levels + 1) := by
  intro scopes e he
  rcases mem_held_scope.mp he with ⟨k, rfl, i', hi, hmem⟩
  obtain rfl : i' = i := by simpa using hi
  obtain ⟨canonical, fits⟩ := h k e hmem
  exact ⟨canonical, by omega⟩

/-- The items of a scope are admitted each for itself. -/
theorem admitted_scope {levels : Nat} {body : List Item}
    (h : ∀ i ∈ body, (scope [i]).Admitted levels) : (scope body).Admitted levels := by
  intro scopes e he
  rcases mem_held_scope.mp he with ⟨k, rfl, i, hi, hmem⟩
  exact h i hi (k + 1) e (mem_held_scope.mpr ⟨k, rfl, i, by simp, hmem⟩)

/-! ### Printing -/

theorem renderAll_cons_cons (first second : Item) (others : List Item) :
    renderAll (first :: second :: others) =
      first.render ++ " " ++ renderAll (second :: others) := by
  simp [renderAll]

/-- The items of a scope are printed with a blank before each. -/
theorem join_renderAll (first : Item) (others : List Item) :
    String.join ((first :: others).map fun i => " " ++ i.render) =
      " " ++ renderAll (first :: others) := by
  induction others generalizing first with
  | nil => simp [renderAll]
  | cons second others ih =>
      rw [List.map_cons, String.join_cons, ih second, renderAll_cons_cons]
      simp only [String.append_assoc]

/-- The lexemes of a scope are its braces and those of its items, each behind a blank. -/
theorem prints_scope {body : List Item} {owns : List (List Lexeme)}
    (h : List.Forall₂ (fun i own => Prints (render i) own) body owns) :
    ∃ closing : Lexeme, closing.token = (.mark .rightBrace, Mark.rightBrace.text) ∧
      Prints (scope body).render
        (ofMark .leftBrace :: ((owns.map (relead " ")).flatten ++ [closing])) := by
  have opening : Prints "\x7b" [ofMark .leftBrace] := Prints.mark .leftBrace
  have close : Prints "\x7d" [ofMark .rightBrace] := Prints.mark .rightBrace
  cases h with
  | nil =>
      have blanks : "  " ∈ separators := by decide
      have joined := opening.append close blanks (by simpa using opensBreak_cons (by decide)) (by simp)
      exact ⟨{ ofMark .rightBrace with lead := "  " }, rfl, joined⟩
  | @cons first own others owns hfirst hothers =>
      have all : List.Forall₂ (fun i own => Prints (render i) own) (first :: others) (own :: owns) :=
        .cons hfirst hothers
      have items : List.Forall₂ (fun i own => Trails (" " ++ render i) own) (first :: others)
          ((own :: owns).map (relead " ")) := by
        rw [List.forall₂_map_right_iff]
        exact all.imp fun _ _ printed => printed.trails_blank
      have inside := opening.append_trails (trails_flatten items)
      have joined := inside.append_blank close
      refine ⟨{ ofMark .rightBrace with lead := " " }, rfl, ?_⟩
      have front : "\x7b" ++ " " = "\x7b " := rfl
      have back : " " ++ "\x7d" = " \x7d" := rfl
      have text : (scope (first :: others)).render =
          "\x7b" ++ (" " ++ renderAll (first :: others)) ++ " " ++ "\x7d" := by
        rw [render, ← front, ← back]
        simp only [String.append_assoc]
      rw [text, ← join_renderAll]
      exact joined

/-! ### Reading -/

/-- Whether one more item of a scope may come: neither its brace nor the end of the source. -/
def atItem (c : Cursor) : Bool :=
  !(c.head?.isNone || c.isAt (.mark .rightBrace))

theorem scopeStep_eq (inner : Reader Item) : scopeStep inner = Reader.manyStep atItem inner := by
  funext items c
  unfold scopeStep Reader.manyStep atItem
  cases c.head?.isNone || c.isAt (.mark .rightBrace) <;> rfl

theorem onTokens_atItem : Reader.OnTokens atItem := by
  intro ts us n m h
  have brace := Reader.onTokens_isAt (.mark .rightBrace) n m h
  have ends : (facing ts n).head?.isNone = (facing us m).head?.isNone := by
    cases ts with
    | nil =>
        obtain rfl : us = [] := by simpa using h.symm
        rfl
    | cons l ts =>
        obtain ⟨l', us, rfl, _⟩ := exists_cons_of_map_token h.symm
        rfl
  rw [atItem, atItem, brace, ends]

variable {levels : Nat} {statement : Reader Statement} {inner : Reader Item}

/-- A run of items in braces. -/
def scopeReader (inner : Reader Item) : Reader Item :=
  Reader.map (scope ·.1) <| Reader.behind fun _ =>
    Reader.andThen (Reader.many atItem inner) (Reader.expect (.mark .rightBrace))

/-- An item is a run of items in braces, or a statement. -/
theorem readerWith_iff {c d : Cursor} {i : Item} : readerWith statement inner c = .ok (i, d) ↔
    Reader.branch (Cursor.isAt (.mark .leftBrace)) (scopeReader inner)
      (Reader.map .statement statement) c = .ok (i, d) := by
  unfold readerWith Reader.branch
  split
  · rw [scopeReader, Reader.map_eq_ok_iff, scopeStep_eq]
    constructor
    · intro h
      rcases Except.bind_eq_ok_iff.mp h with ⟨⟨items, c'⟩, hitems, h⟩
      rcases Reader.repeatFrom_manyStep_iff.mp hitems with ⟨body, rfl, run⟩
      by_cases closes : c'.isAt (.mark .rightBrace) = true
      · simp only [closes, if_true] at h
        cases h
        refine ⟨(body, c'.text), by simp, Reader.andThen_eq_ok_iff.mpr ⟨c',
          Reader.many_eq_ok_iff.mpr run, ?_⟩⟩
        rw [Reader.expect, if_pos closes]
      · simp [closes, throw, throwThe, MonadExceptOf.throw] at h
    · rintro ⟨⟨body, t⟩, rfl, hread⟩
      rcases Reader.andThen_eq_ok_iff.mp hread with ⟨c', hbody, hclose⟩
      have items : Reader.repeatFrom (Reader.manyStep atItem inner) [] c.next =
          .ok (body.reverse, c') :=
        Reader.repeatFrom_manyStep_iff.mpr ⟨body, by simp, Reader.many_eq_ok_iff.mp hbody⟩
      unfold Reader.expect at hclose
      split at hclose
      · rename_i closes
        cases hclose
        simp [items, closes, pure, Except.pure]
      · simp at hclose
  · rfl

/-- The lexemes of a scope are its braces and those of its items. -/
theorem scopeReader_copies (hinner : inner.Copies fun i own => Prints (render i) own ∧
    (scope [i]).Admitted levels) :
    Reader.CopiesWhen (Cursor.isAt (.mark .leftBrace)) (scopeReader inner) fun i own =>
      Prints (render i) own ∧ i.Admitted levels := by
  intro ts n i d hts hmore h
  rcases isAt_facing_iff.mp hmore with ⟨l, us, rfl, hl⟩
  rcases Reader.map_eq_ok_iff.mp h with ⟨⟨body, t⟩, rfl, hread⟩
  rw [Reader.behind, next_facing_cons] at hread
  rcases Reader.andThen_eq_ok_iff.mp hread with ⟨c, hbody, hclose⟩
  obtain ⟨owns, mid, rfl, goods, copied⟩ :=
    (hinner.when atItem).many (fun _ _ good => good.1.nonempty) onTokens_atItem hts.tail hbody
  have items := copied (owns.map (relead " ")) (forall₂_alike_relead " " owns)
  rcases Reader.expect_eq_ok_iff.mp hclose with ⟨r, rest, rfl, hr, rfl, rfl⟩
  obtain ⟨brace, hbrace, printed⟩ := prints_scope (goods.imp fun _ _ good => good.1)
  have opening : (ofMark .leftBrace).token = l.token := (token_of_mark hts hl).symm
  have closing : brace.token = r.token :=
    hbrace.trans (token_of_mark (items.sourced hts.tail) hr).symm
  refine ⟨_, rest, rfl, ?_, printed, ?_⟩
  · have inside := items.andThen (Reader.copied_expect hr closing)
    exact (inside.behind (f := fun _ => _) opening).map
  · apply admitted_scope
    intro i hi
    obtain ⟨_, good⟩ := exists_of_forall₂ goods hi
    exact good.2

/-- The lexemes of an item are those of its statement, or its braces and those of its items. -/
theorem readerWith_copies (hstatement : statement.Copies (Statement.Printed levels))
    (hinner : inner.Copies fun i own => Prints (render i) own ∧
      (scope [i]).Admitted levels) :
    (readerWith statement inner).Copies fun i own => Prints (render i) own ∧ i.Admitted levels := by
  apply Reader.Copies.congr _ fun _ _ _ => readerWith_iff
  apply Reader.Copies.branch (Reader.onTokens_isAt _) (scopeReader_copies hinner)
  apply hstatement.map
  rintro s own ⟨printed, admitted⟩
  refine ⟨printed, ?_⟩
  intro scopes e he
  rw [held, List.mem_map] at he
  obtain ⟨e', hmem, hpair⟩ := he
  cases hpair
  obtain ⟨canonical, fits⟩ := admitted e hmem
  exact ⟨canonical, by omega⟩

/-- An item is printed by the tokens that were read, and is read again from them. -/
theorem reader_copies (levels : Nat) :
    (reader levels).Copies fun i own => Prints (render i) own ∧ i.Admitted levels := by
  induction levels with
  | zero =>
      apply readerWith_copies (Statement.reader_copies 0)
      intro ts n i d _ h
      simp [Reader.tooDeep] at h
  | succ levels ih =>
      apply readerWith_copies (Statement.reader_copies (levels + 1))
      intro ts n i d hts h
      obtain ⟨own, rest, hd, copied, printed, admitted⟩ := ih hts h
      exact ⟨own, rest, hd, copied, printed, admitted.scope_singleton⟩

end Item

/-! ### Elements -/

namespace Element

/-- The expressions that an element holds, each with the number of scopes around it. -/
def held : Element → List (Nat × Expression)
  | .item i => i.held
  | _ => []

/-- The number of a version. -/
def specifierReader : Reader String :=
  Reader.branch (Cursor.isAt .float) (Reader.expect .float) (Reader.expect (.integer .decimal))

/-- A version declaration is a keyword, a number and a semicolon. -/
theorem versionReader_iff {element : Element} {c d : Cursor} :
    versionReader c = .ok (element, d) ↔
      Reader.map (fun p => version p.1) (Reader.behind fun _ =>
        Reader.andThen specifierReader (Reader.expect (.mark .semicolon))) c = .ok (element, d) := by
  unfold versionReader specifierReader Reader.map Reader.behind Reader.andThen Reader.branch
  by_cases float : c.next.isAt .float = true
  · simp [float, Reader.expect]
  · by_cases decimal : c.next.isAt (.integer .decimal) = true
    · simp [float, decimal, Reader.expect]
    · simp [float, decimal, Reader.expect, throw, throwThe, MonadExceptOf.throw]

/-- The lexemes of a version declaration are its keyword, its number and a semicolon. -/
theorem versionReader_copies :
    Reader.CopiesWhen (Cursor.isAt (.keyword .version)) versionReader fun element own =>
      ∃ specifier, element = .version specifier ∧ Prints element.render own := by
  have specifier : specifierReader.Copies fun text own => Prints text own ∧ True := by
    have number : ∀ kind, (Reader.expect kind).Copies fun text own => Prints text own ∧ True :=
      fun kind => (Reader.copies_expect kind).imp fun _ _ good => ⟨good.1, trivial⟩
    exact Reader.Copies.branch (Reader.onTokens_isAt _) ((number _).when _) (number _)
  apply Reader.CopiesWhen.congr _ fun _ _ _ => versionReader_iff
  intro ts n element d hts hmore h
  obtain ⟨own, rest, hd, copied, text, rfl, _, printed⟩ :=
    copies_directive .version version specifier hts hmore h
  refine ⟨own, rest, hd, copied, text, rfl, ?_⟩
  have front : Keyword.version.text ++ " " = "OPENQASM " := rfl
  rw [render, ← front, String.append_assoc]
  exact printed

/-- The lexemes print the element, which is no end of input, and whose expressions are canonical
and nest no deeper than the scopes around them allow. -/
def Printed (levels : Nat) (element : Element) (own : List Lexeme) : Prop :=
  element ≠ .endOfInput ∧ Prints element.render own ∧
    ∀ scopes e, (scopes, e) ∈ element.held → e.Canonical ∧ scopes + e.nesting ≤ levels

theorem reader_eq (levels : Nat) : reader levels =
    Reader.branch (Cursor.isAt (.keyword .version)) versionReader
      (Reader.map item (Item.reader levels)) := rfl

/-- What starts neither a version nor a scope is read as a statement. -/
theorem reader_eq_statement {levels n : Nat} {l : Lexeme} {ts : List Lexeme}
    (noVersion : l.kind ≠ .keyword .version) (noScope : l.kind ≠ .mark .leftBrace) :
    reader levels (facing (l :: ts) n) =
      Reader.map (fun s => item (.statement s)) (Statement.reader levels) (facing (l :: ts) n) := by
  have asItem : Item.reader levels (facing (l :: ts) n) =
      Reader.map .statement (Statement.reader levels) (facing (l :: ts) n) := by
    cases levels <;> simp [Item.reader, Item.readerWith, noScope, Reader.map]
  simp only [reader, isAt_facing_cons, noVersion, decide_false, Bool.false_eq_true, if_false, asItem,
    Reader.map, bind_assoc, pure_bind]

/-- What is read as a statement is read by the reader of statements. -/
theorem statement_of_reader {levels : Nat} {c d : Cursor} {s : Statement}
    (h : reader levels c = .ok (.item (.statement s), d)) : Statement.reader levels c = .ok (s, d) := by
  rw [reader_eq] at h
  unfold Reader.branch at h
  split at h
  case isTrue =>
    rcases Reader.map_eq_ok_iff.mp (versionReader_iff.mp h) with ⟨_, isVersion, _⟩
    simp at isVersion
  case isFalse =>
    rcases Reader.map_eq_ok_iff.mp h with ⟨i, isItem, hitem⟩
    cases isItem
    obtain ⟨inner, among⟩ : ∃ inner, Item.readerWith (Statement.reader levels) inner c =
        .ok (.statement s, d) := by
      cases levels <;> exact ⟨_, hitem⟩
    have read := Item.readerWith_iff.mp among
    unfold Reader.branch at read
    split at read
    case isTrue =>
      rcases Reader.map_eq_ok_iff.mp read with ⟨_, isScope, _⟩
      simp at isScope
    case isFalse =>
      rcases Reader.map_eq_ok_iff.mp read with ⟨_, isStatement, hstatement⟩
      cases isStatement
      exact hstatement

/-- An element is printed by the tokens that were read, and is read again from them. -/
theorem reader_copies (levels : Nat) : (reader levels).Copies (Printed levels) := by
  rw [reader_eq]
  apply Reader.Copies.branch (Reader.onTokens_isAt _)
  · intro ts n element d hts opens h
    obtain ⟨own, rest, hd, copied, specifier, rfl, printed⟩ := versionReader_copies hts opens h
    exact ⟨own, rest, hd, copied, by simp, printed, by simp [held]⟩
  · exact (Item.reader_copies levels).map fun i own good => ⟨by simp, good.1, good.2⟩

end Element

end QasmDiagram
