/-
Module: QasmDiagram.Proofs.Program.RoundTrip
Purpose: A program that was read is printed by exactly the tokens of its source, and its text reads
  as the same program.
Trusted boundary: none
Main exports: Program.exists_copy, Program.ofText_render, Lexeme.tokensOf, Program.tokensOf_render
-/
import QasmDiagram.Proofs.Program.Nesting

namespace QasmDiagram

open Lexeme Cursor Rule Segment

namespace Program

/-! ### Printing -/

/-- The lines of a program are its elements with a line end between them and behind the last. -/
theorem join_lines (first : Element) (others : List Element) :
    String.join ((first :: others).map fun element => element.render ++ "\n") =
      first.render ++ String.join (others.map fun element => "\n" ++ element.render) ++ "\n" := by
  induction others generalizing first with
  | nil => simp
  | cons second others ih =>
      rw [List.map_cons, String.join_cons, ih second, List.map_cons, String.join_cons]
      simp only [String.append_assoc]

theorem render_closed {elements : List Element} (h : ∀ element ∈ elements, element ≠ .endOfInput) :
    render ⟨elements ++ [.endOfInput]⟩ =
      String.join (elements.map fun element => element.render ++ "\n") := by
  have lines : ∀ element ∈ elements, element.renderLine = element.render ++ "\n" := by
    intro element hmem
    have other := h element hmem
    cases element with
    | version specifier => rfl
    | item i => rfl
    | endOfInput => exact absurd rfl other
  rw [render, List.map_append, List.map_congr_left lines]
  simp [Element.renderLine]

/-- The lexemes of elements in a row, each on a line of its own. -/
def lines : List (List Lexeme) → List (List Lexeme)
  | [] => []
  | first :: others => relead "" first :: others.map (relead "\n")

/-- Line ends before them do not change what lexemes are alike. -/
theorem alike_lines (owns : List (List Lexeme)) : List.Forall₂ Alike (lines owns) owns := by
  cases owns with
  | nil => exact .nil
  | cons own owns => exact .cons (.relead "" own) (forall₂_alike_relead "\n" owns)

/-- The lexemes of the elements of a program are found in its text. -/
theorem exists_lexemes {elements : List Element} {owns : List (List Lexeme)}
    (h : List.Forall₂ (fun element own => element ≠ .endOfInput ∧ Prints (Element.render element) own)
      elements owns) :
    ∃ us m, Lexeme.ofText (render ⟨elements ++ [.endOfInput]⟩) = .ok (us, m) ∧
      us.map face = (lines owns).flatten.map face := by
  have noEnd : ∀ element ∈ elements, element ≠ .endOfInput := by
    intro element hmem
    obtain ⟨_, good⟩ := exists_of_forall₂ h hmem
    exact good.1
  rw [render_closed noEnd]
  cases h with
  | nil =>
      have spelled : Spelled (lines []).flatten [] := trivial
      exact Lexeme.ofText_of_spelled rfl spelled .nil
  | @cons first own others owns hfirst hothers =>
      have lineEnd : "\n" ∈ separators := by decide
      have behind : List.Forall₂ (fun element own => Trails ("\n" ++ Element.render element) own)
          others (owns.map (relead "\n")) := by
        rw [List.forall₂_map_right_iff]
        exact hothers.imp fun element _ good =>
          good.2.trails lineEnd (by simpa using opensBreak_cons (by decide))
      have printed := hfirst.2.append_trails (trails_flatten behind)
      have layout : LaidOut "\n".toList [] := laidOut_separator lineEnd (by simp)
      have opens : OpensBreak "\n".toList := opensBreak_cons (by decide)
      rw [join_lines]
      have front : (lines (own :: owns)).flatten =
          relead "" (own ++ (owns.map (relead "\n")).flatten) := by
        rw [relead_append hfirst.2.nonempty, lines, List.flatten_cons]
      rw [front]
      refine Lexeme.ofText_of_spelled ?_ (printed.spelled _ opens) layout
      rw [printed.written_eq, String.toList_append]

/-- A program that is read is read again from lexemes with the same tokens, found in its text. -/
theorem exists_copy {source : String} {p : Program} (h : ofText source = .ok p) :
    ∃ ts n us m, Lexeme.ofText source = .ok (ts, n) ∧ Lexeme.ofText p.render = .ok (us, m) ∧
      us.map token = ts.map token ∧ ofCursor (facing us m) = .ok p := by
  obtain ⟨ts, n, elements, owns, hlexemes, rfl, goods, copied⟩ := exists_owns h
  obtain ⟨us, m, found, faces⟩ := exists_lexemes (goods.imp fun _ _ good => ⟨good.1, good.2.1⟩)
  have copy := copied (lines owns) (alike_lines owns)
  have alike := Alike.of_map_face faces
  refine ⟨ts, n, us, m, hlexemes, found, by simpa [alike.tokens] using copy.tokens.symm, ?_⟩
  have again := copy.again us [] m alike rfl
  rw [List.append_nil] at again
  exact ofCursor_eq_ok_iff.mpr ⟨elements, facing [] m, again, rfl⟩

/-- The text of a program that was read reads as the same program. -/
theorem ofText_render {source : String} {p : Program} (h : ofText source = .ok p) :
    ofText p.render = .ok p := by
  obtain ⟨_, _, us, m, _, found, _, read⟩ := exists_copy h
  exact ofText_eq_ok_iff.mpr ⟨us, m, found, read⟩

/-- Two scopes around a call are set apart by blanks in the text, and read as they were. -/
theorem ofText_render_scopes :
    ofText (rotationSource 2 quotient) = .ok (enclosedRotation 2 quotient) ∧
      ofText (enclosedRotation 2 quotient).render = .ok (enclosedRotation 2 quotient) := by
  have read : ofText (rotationSource 2 quotient) = .ok (enclosedRotation 2 quotient) :=
    (ofText_rotationSource canonical_quotient 2).1 (by decide)
  exact ⟨read, ofText_render read⟩

end Program

/-- The classes and texts of the tokens of a source, in order, without their places. -/
def Lexeme.tokensOf (source : String) : Except ParseError (List (TokenKind × String)) := do
  let (lexemes, _) ← ofText source
  return lexemes.map token

namespace Program

/-- The text of a program that was read has the tokens of the source: none is lost, none is added,
and they stand in the same order. -/
theorem tokensOf_render {source : String} {p : Program} (h : ofText source = .ok p) :
    ∃ tokens, tokensOf p.render = .ok tokens ∧ tokensOf source = .ok tokens := by
  obtain ⟨ts, n, us, m, hsource, hrender, same, _⟩ := exists_copy h
  refine ⟨ts.map token, ?_, ?_⟩
  · rw [tokensOf, hrender, Except.ok_bind, ← same]
    rfl
  · rw [tokensOf, hsource]
    rfl

/-- A kept statement ends at its brace, and neither it nor the assignment behind the comment takes a
token of the other. -/
theorem tokensOf_render_kept :
    ∃ p tokens, ofText "box\x7bx;\x7d/*;*/a=b;" = .ok p ∧ p.children.length = 3 ∧
      tokensOf p.render = .ok tokens ∧ tokensOf "box\x7bx;\x7d/*;*/a=b;" = .ok tokens := by
  have read : ofText "box\x7bx;\x7d/*;*/a=b;" = .ok
      ⟨[.item (.statement (.kept .box "box\x7bx;\x7d")),
        .item (.statement (.assignment ⟨⟨"a", []⟩, ⟨.equals, "="⟩,
          .expression (.literal ⟨.identifier, "b"⟩)⟩)),
        .endOfInput]⟩ := by
    decide +kernel
  obtain ⟨tokens, printed, written⟩ := tokensOf_render read
  exact ⟨_, tokens, read, rfl, printed, written⟩

end Program

end QasmDiagram
