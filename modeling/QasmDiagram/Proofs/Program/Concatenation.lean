/-
Module: QasmDiagram.Proofs.Program.Concatenation
Purpose: A text below a program is read as it would be alone, and what is wrong with it is reported
  as it would be alone, as many lines further down as the program takes.
Trusted boundary: none
Main exports: Program.ofCursor_append, Program.ofCursor_down, Program.text_below_is_read_alone
-/
import QasmDiagram.Proofs.Lines
import QasmDiagram.Proofs.Program.Layout
import QasmDiagram.Proofs.Program.Locality

namespace QasmDiagram

open Lexeme Cursor

namespace Program

/-- What is read in front of other lexemes leaves these as they are. -/
theorem ofCursor_append {ts us : List Lexeme} {n : Nat} {body : List Element} (hts : Sourced ts)
    (h : ofCursor (facing ts n) = .ok ⟨body ++ [.endOfInput]⟩)
    (noElse : Statement.elseFollows us = false) (m : Nat) :
    ofCursor (facing (ts ++ us) m) =
      (ofCursor (facing us m)).map fun q => ⟨body ++ q.children⟩ := by
  rcases ofCursor_eq_ok_iff.mp h with ⟨elements, d, hmany, heq⟩
  obtain rfl : body = elements := List.append_cancel_right (congrArg children heq)
  have run := Reader.many_eq_ok_iff.mp hmany
  have nonempty : ∀ element own, Element.Printed nestingLimit element own → own ≠ [] :=
    fun _ _ good => good.2.1.nonempty
  have looks : Reader.LooksAtHead atElement := by
    intro ts us n m left
    cases ts with
    | nil => exact absurd rfl left
    | cons l ts => simp [atElement]
  have stops := ((Element.reader_copies nestingLimit).when atElement).run_stops nonempty run rfl hts
  obtain ⟨rest, rfl, goesOn⟩ := (Element.reader_local nestingLimit).repeatFrom_manyStep looks
    (fun _ _ => noElse) run stops rfl hts
  obtain rfl : rest = [] := atElement_facing.mp stops
  unfold ofCursor
  rw [elementStep_eq, goesOn [] m, List.append_nil, List.nil_append,
    ← List.nil_append body.reverse, Reader.repeatFrom_manyStep_append]
  cases Reader.repeatFrom (Reader.manyStep atElement (Element.reader nestingLimit)) []
    (facing us m) <;> simp [Except.map, pure, Except.pure]

/-- Lines are counted from `k` lines further down; everything else is the same. -/
def lowered (k : Nat) : Variation where
  lines := fun line line' => line' = line + k
  sameLayout := True

theorem sameTokens_down (k : Nat) (lead : List Char) (us : List Lexeme) (m : Nat) :
    (facing us m).SameTokens (lowered k) (facing (leadBy lead (us.map (down k))) (m + k)) := by
  have faces : (us.map (down k)).map face = us.map face := by
    rw [List.map_map]
    rfl
  have relaid : ∀ ts : List Lexeme, Alike (leadBy lead ts) ts := by
    intro ts
    cases ts with
    | nil => exact .refl []
    | cons t ts => exact .relead _ (t :: ts)
  have alike : Alike us (leadBy lead (us.map (down k))) :=
    ((relaid _).trans (.of_map_face faces)).symm
  refine ⟨alike.tokens, ?_, rfl, fun _ => alike⟩
  have lines : (leadBy lead (us.map (down k))).map Lexeme.line = us.map (·.line + k) := by
    cases us <;> simp [down]
  rw [ahead_facing, ahead_facing, lines, List.forall₂_map_left_iff, List.forall₂_map_right_iff]
  exact List.forall₂_same.mpr fun _ _ => rfl

/-- Further down the same program is read, or the same is wrong there. -/
theorem ofCursor_down (k : Nat) (lead : List Char) (us : List Lexeme) (m : Nat) :
    ofCursor (facing (leadBy lead (us.map (down k))) (m + k)) =
      (ofCursor (facing us m)).mapError (·.down k) := by
  have agree := ofCursor_agree (sameTokens_down k lead us m)
  generalize ofCursor (facing us m) = x at agree ⊢
  generalize ofCursor (facing (leadBy lead (us.map (down k))) (m + k)) = y at agree ⊢
  cases agree with
  | ok shown =>
      rw [shown.2 trivial]
      rfl
  | error moved =>
      cases moved with
      | unexpectedEnd expected => rfl
      | invalidToken text line => cases line; rfl
      | unexpectedToken expected found line => cases line; rfl
      | unclosed delimiter line => cases line; rfl
      | nestingTooDeep line => cases line; rfl

/-- Further down, behind what has been read, the same program is read, or the same is wrong there. -/
theorem ofCursor_below {ts us : List Lexeme} {n : Nat} {body : List Element} (hts : Sourced ts)
    (h : ofCursor (facing ts n) = .ok ⟨body ++ [.endOfInput]⟩)
    (noElse : Statement.elseFollows us = false) (k : Nat) (lead : List Char) (m : Nat) :
    ofCursor (facing (ts ++ leadBy lead (us.map (down k))) (m + k)) =
      ((ofCursor (facing us m)).map fun q => ⟨body ++ q.children⟩).mapError (·.down k) := by
  have noElseBelow : Statement.elseFollows (leadBy lead (us.map (down k))) = false := by
    rw [← noElse]
    cases us <;> rfl
  rw [ofCursor_append hts h noElseBelow, ofCursor_down]
  cases ofCursor (facing us m) <;> rfl

/-- A text below a program is read as it would be alone: its elements follow those of the program,
and what is wrong with it is reported as many lines further down as the program takes. Only the word
`else` at its beginning could still belong to the program. -/
theorem text_below_is_read_alone {above below : String} {p : Program} (h : ofText above = .ok p)
    (noElse : ∀ ts n, Lexeme.ofText below = .ok (ts, n) → Statement.elseFollows ts = false) :
    ∃ body, p = ⟨body ++ [.endOfInput]⟩ ∧
      (∀ q, ofText below = .ok q →
        ofText (above ++ "\n" ++ below) = .ok ⟨body ++ q.children⟩) ∧
      ∀ e, ofText below = .error e →
        ofText (above ++ "\n" ++ below) = .error (e.down (1 + lineEnds above.toList)) := by
  rcases ofText_eq_ok_iff.mp h with ⟨ts, n, hlexemes, hread⟩
  rcases ofCursor_eq_ok_iff.mp hread with ⟨body, d, _, rfl⟩
  obtain ⟨trail, _, spelled, _⟩ := spelled_of_ofText hlexemes
  obtain ⟨_, rfl⟩ := placed_of_ofText hlexemes
  obtain ⟨lead, lexemes⟩ := ofText_below hlexemes below
  have joined : ofText (above ++ "\n" ++ below) =
      ((ofText below).map fun q => ⟨body ++ q.children⟩).mapError
        (·.down (1 + lineEnds above.toList)) := by
    cases hbelow : Lexeme.ofText below with
    | error e =>
        rw [hbelow] at lexemes
        rw [ofText, ofText, lexemes, hbelow]
        rfl
    | ok found =>
        obtain ⟨us, m⟩ := found
        rw [hbelow] at lexemes
        rw [ofText_of_lexemes lexemes, ofText_of_lexemes hbelow]
        exact ofCursor_below ⟨trail, spelled⟩ hread (noElse us m hbelow) _ lead m
  refine ⟨body, rfl, ?_, ?_⟩
  · intro q hq
    rw [joined, hq]
    rfl
  · intro e he
    rw [joined, he]
    rfl

/-- A conditional at the end of a program, a comment behind it, and a text that ends too early. -/
theorem text_below_is_read_alone_conditional :
    ofText "qubit q;\nif (c) \x7b x q; \x7d // last" = .ok ⟨[
        .item (.statement (.kept .quantumDeclaration "qubit q;")),
        .item (.statement (.kept .conditional "if (c) \x7b x q; \x7d")), .endOfInput]⟩ ∧
      ofText "h q;\ncx 1;" = .error (.unexpectedToken 2 .gateOperand "1") ∧
      ofText ("qubit q;\nif (c) \x7b x q; \x7d // last" ++ "\n" ++ "h q;\ncx 1;") =
        .error (.unexpectedToken 4 .gateOperand "1") := by
  have above : ofText "qubit q;\nif (c) \x7b x q; \x7d // last" = .ok ⟨[
      .item (.statement (.kept .quantumDeclaration "qubit q;")),
      .item (.statement (.kept .conditional "if (c) \x7b x q; \x7d")), .endOfInput]⟩ := by
    decide +kernel
  have below : ofText "h q;\ncx 1;" = .error (.unexpectedToken 2 .gateOperand "1") := by
    decide +kernel
  have noElse : ∀ ts n, Lexeme.ofText "h q;\ncx 1;" = .ok (ts, n) →
      Statement.elseFollows ts = false := by
    have lexemes : (Lexeme.ofText "h q;\ncx 1;").toOption.all
        (fun found => !Statement.elseFollows found.1) = true := by
      decide +kernel
    intro ts n h
    simpa [h, Except.toOption] using lexemes
  obtain ⟨_, _, _, error⟩ := text_below_is_read_alone above noElse
  exact ⟨above, below, error _ below⟩

end Program

end QasmDiagram
