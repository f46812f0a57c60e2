/-
Module: QasmDiagram.Proofs.Program.Elements
Purpose: A program is a run of elements up to the end of its source. To each element belong lexemes
  with the tokens that were read, and from lexemes alike them the program is read again.
Trusted boundary: none
Main exports: Program.ofCursor_eq_ok_iff, Program.ofCursor_first, Program.ofText_eq_ok_iff,
  Program.exists_statement_of_ofText, Program.exists_owns
-/
import QasmDiagram.Proofs.Program.Items

namespace QasmDiagram

open Lexeme Cursor

namespace Program

/-- Whether one more element comes. -/
def atElement (c : Cursor) : Bool :=
  !c.head?.isNone

theorem elementStep_eq (levels : Nat) :
    elementStep levels = Reader.manyStep atElement (Element.reader levels) := by
  funext elements c
  unfold elementStep Reader.manyStep atElement
  cases c.head?.isNone <;> rfl

theorem atElement_facing {ts : List Lexeme} {n : Nat} :
    atElement (facing ts n) = false ↔ ts = [] := by
  cases ts <;> simp [atElement]

theorem onTokens_atElement : Reader.OnTokens atElement := by
  intro ts us n m h
  have empty : ts = [] ↔ us = [] := by
    rw [← List.map_eq_nil_iff, h, List.map_eq_nil_iff]
  rw [Bool.eq_iff_iff, ← not_iff_not, Bool.not_eq_true, Bool.not_eq_true, atElement_facing,
    atElement_facing, empty]

/-- A program is what elements are read one after the other, closed by the end of input. -/
theorem ofCursor_eq_ok_iff {p : Program} {c : Cursor} : ofCursor c = .ok p ↔
    ∃ elements d, Reader.many atElement (Element.reader nestingLimit) c = .ok (elements, d) ∧
      p = ⟨elements ++ [.endOfInput]⟩ := by
  unfold ofCursor
  rw [Except.bind_eq_ok_iff, elementStep_eq]
  constructor
  · rintro ⟨⟨elements, d⟩, hread, h⟩
    rcases Reader.repeatFrom_manyStep_iff.mp hread with ⟨vs, rfl, run⟩
    cases h
    exact ⟨vs, d, Reader.many_eq_ok_iff.mpr run, by simp⟩
  · rintro ⟨elements, d, hread, rfl⟩
    refine ⟨(elements.reverse, d), ?_, by simp [pure, Except.pure]⟩
    exact Reader.repeatFrom_manyStep_iff.mpr ⟨elements, by simp, Reader.many_eq_ok_iff.mp hread⟩

/-! ### The first element -/

section First

variable {ts rest : List Lexeme} {n : Nat}

theorem ofCursor_nil : ofCursor (facing [] n) = .ok ⟨[.endOfInput]⟩ := by
  have stops : elementStep nestingLimit [] (facing [] n) = .ok none := rfl
  rw [ofCursor, Reader.repeatFrom_of_none stops]
  rfl

/-- A program is its first element and what is read behind it. -/
theorem ofCursor_first {l : Lexeme} {element : Element}
    (h : Element.reader nestingLimit (facing (l :: ts) n) = .ok (element, facing rest n))
    (shorter : rest.length < (l :: ts).length) :
    ofCursor (facing (l :: ts) n) =
      (ofCursor (facing rest n)).map fun p => ⟨element :: p.children⟩ := by
  have step : elementStep nestingLimit [] (facing (l :: ts) n) =
      .ok (some ([element], facing rest n)) := by
    simp [elementStep, h, pure, Except.pure]
  rw [ofCursor, ofCursor, Reader.repeatFrom_of_some step (by simpa using shorter), elementStep_eq,
    ← List.nil_append [element], Reader.repeatFrom_manyStep_append]
  cases Reader.repeatFrom (Reader.manyStep atElement (Element.reader nestingLimit)) []
    (facing rest n) <;> simp [Except.map, pure, Except.pure]

theorem ofCursor_error {l : Lexeme} {fault : ParseError}
    (h : Element.reader nestingLimit (facing (l :: ts) n) = .error fault) :
    ofCursor (facing (l :: ts) n) = .error fault := by
  have step : elementStep nestingLimit [] (facing (l :: ts) n) = .error fault := by
    simp [elementStep, h]
  rw [ofCursor, Reader.repeatFrom_of_error step]
  rfl

/-- What a program starts with is read first. -/
theorem reader_of_ofCursor {element : Element} {others : List Element}
    (h : ofCursor (facing ts n) = .ok ⟨element :: others⟩) (notEnd : element ≠ .endOfInput) :
    ∃ d, Element.reader nestingLimit (facing ts n) = .ok (element, d) := by
  rcases ofCursor_eq_ok_iff.mp h with ⟨elements, d, hmany, heq⟩
  have children : element :: others = elements ++ [.endOfInput] := congrArg Program.children heq
  cases Reader.many_eq_ok_iff.mp hmany with
  | stop _ =>
      obtain rfl : element = .endOfInput := (List.cons.inj children).1
      exact absurd rfl notEnd
  | stall _ hread _ =>
      obtain rfl := (List.cons.inj children).1
      exact ⟨_, hread⟩
  | next _ hread _ _ =>
      obtain rfl := (List.cons.inj children).1
      exact ⟨_, hread⟩

end First

theorem ofText_of_lexemes {source : String} {ts : List Lexeme} {n : Nat}
    (h : Lexeme.ofText source = .ok (ts, n)) : ofText source = ofCursor (facing ts n) := by
  rw [ofText, h]
  rfl

theorem ofText_eq_ok_iff {source : String} {p : Program} : ofText source = .ok p ↔
    ∃ ts n, Lexeme.ofText source = .ok (ts, n) ∧ ofCursor (facing ts n) = .ok p := by
  unfold ofText
  rw [Except.bind_eq_ok_iff]
  constructor
  · rintro ⟨⟨ts, n⟩, hlexemes, h⟩
    exact ⟨ts, n, hlexemes, h⟩
  · rintro ⟨ts, n, hlexemes, h⟩
    exact ⟨(ts, n), hlexemes, h⟩

/-- The statement that a program starts with is read from the lexemes of the source. -/
theorem exists_statement_of_ofText {source : String} {s : Statement} {others : List Element}
    (h : ofText source = .ok ⟨.item (.statement s) :: others⟩) :
    ∃ ts n d, Lexeme.ofText source = .ok (ts, n) ∧ Sourced ts ∧
      Statement.reader nestingLimit (facing ts n) = .ok (s, d) := by
  rcases ofText_eq_ok_iff.mp h with ⟨ts, n, lexemes, hread⟩
  obtain ⟨trail, _, spelled, _⟩ := spelled_of_ofText lexemes
  obtain ⟨d, first⟩ := reader_of_ofCursor hread (by simp)
  exact ⟨ts, n, d, lexemes, ⟨trail, spelled⟩, Element.statement_of_reader first⟩

/-- To every program that is read belong lexemes of its elements, which with any layout before each
have the tokens of the source, and from which the elements are read again. -/
theorem exists_owns {source : String} {p : Program} (h : ofText source = .ok p) :
    ∃ ts n elements owns, Lexeme.ofText source = .ok (ts, n) ∧ p = ⟨elements ++ [.endOfInput]⟩ ∧
      List.Forall₂ (Element.Printed nestingLimit) elements owns ∧
      ∀ owns', List.Forall₂ Alike owns' owns →
        (Reader.many atElement (Element.reader nestingLimit)).Copied elements ts owns'.flatten [] := by
  rcases ofText_eq_ok_iff.mp h with ⟨ts, n, hlexemes, hread⟩
  obtain ⟨trail, _, spelled, _⟩ := spelled_of_ofText hlexemes
  have hts : Sourced ts := ⟨trail, spelled⟩
  rcases ofCursor_eq_ok_iff.mp hread with ⟨elements, d, hmany, rfl⟩
  have copies := (Element.reader_copies nestingLimit).when atElement
  have nonempty : ∀ element own, Element.Printed nestingLimit element own → own ≠ [] :=
    fun _ _ good => good.2.1.nonempty
  have ends := copies.run_stops nonempty (Reader.many_eq_ok_iff.mp hmany) rfl hts
  obtain ⟨owns, rest, rfl, goods, copied⟩ := copies.many nonempty onTokens_atElement hts hmany
  obtain rfl : rest = [] := atElement_facing.mp ends
  exact ⟨ts, n, elements, owns, hlexemes, rfl, goods, copied⟩

end Program

end QasmDiagram
