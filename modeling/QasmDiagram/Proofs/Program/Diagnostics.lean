/-
Module: QasmDiagram.Proofs.Program.Diagnostics
Purpose: Where diagnostics point. The line of a diagnostic is a line of the source, and on it starts
  what the diagnostic tells of: the token that was not expected, the first invalid stretch, the
  delimiter that is not closed, or the statement kept as text behind whose start braces are left
  open.
Trusted boundary: none
Main exports: Stretch.line, Lexeme.sight, Lexeme.ofText_sight, ParseError.PointsInto,
  Program.diagnostics_point
-/
import QasmDiagram.Proofs.MaximalMunch
import QasmDiagram.Proofs.Program.Blame

namespace QasmDiagram

open Rule

/-! ### Lexemes are the tokens of the source -/

namespace Stretch

/-- The line of a source on which a stretch starts. -/
def line (source : List Char) (s : Stretch) : Nat :=
  1 + lineEnds (source.take s.start)

/-- What a stretch is, its text and its line. -/
def sight (source : List Char) (s : Stretch) : Shape × List Char × Nat :=
  (s.shape, s.text, s.line source)

end Stretch

namespace Lexeme

open Stretch

/-- What a lexeme is, its text and its line. -/
def sight (l : Lexeme) : Shape × List Char × Nat :=
  (.token l.kind, l.text.toList, l.line)

/-- The line behind a stretch of a source. -/
theorem lineEnds_take_add {source a rest : List Char} {start : Nat}
    (h : source.drop start = a ++ rest) :
    lineEnds (source.take (start + a.length)) = lineEnds (source.take start) + lineEnds a := by
  rw [List.take_add, h, List.take_left, lineEnds_append]

/-- Where the segments of a text are gathered, the lexemes are the tokens among the stretches of the
source, on their lines; the first invalid stretch is refused. -/
theorem gather_placed {source text : List Char} {segments : List Segment}
    (divided : Divided text segments) {start : Nat} (behind : source.drop start = text)
    (lead : List Char) :
    Outcome
      (fun e => ∃ s, ((Stretch.placed start segments).filter (·.shape ≠ .layout)).find?
          (·.shape = .invalid) = some s ∧
        e = .invalidToken (s.line source) (String.ofList s.text))
      (fun found => found.1.map sight =
          ((Stretch.placed start segments).filter (·.shape ≠ .layout)).map (Stretch.sight source) ∧
        found.2 = 1 + lineEnds source)
      (gather [] lead (1 + lineEnds (source.take start)) segments) := by
  induction divided generalizing start lead with
  | nil =>
      have whole : source.take start = source :=
        List.take_of_length_le (List.drop_eq_nil_iff.mp behind)
      exact .ok ⟨rfl, by rw [whole]⟩
  | @cons a rest shape segments _ _ _ ih =>
      have next : source.drop (start + a.length) = rest := by
        rw [← List.drop_drop, behind, List.drop_left]
      have lines := lineEnds_take_add behind
      unfold gather
      dsimp only
      cases shape with
      | layout =>
          have more := ih next (lead ++ a)
          rw [lines, ← Nat.add_assoc] at more
          simpa [Stretch.placed] using more
      | invalid =>
          exact .error ⟨⟨start, a, .invalid⟩, by simp [Stretch.placed], rfl⟩
      | token kind =>
          have more := ih next []
          rw [lines, ← Nat.add_assoc] at more
          dsimp only
          rw [gather_done]
          generalize gather [] [] _ segments = found at more ⊢
          cases more with
          | @ok found told =>
              obtain ⟨ts, n⟩ := found
              refine .ok ⟨?_, told.2⟩
              simpa [Stretch.placed, sight, Stretch.sight, Stretch.line] using told.1
          | error told =>
              obtain ⟨s, found, rfl⟩ := told
              exact .error ⟨s, by simpa [Stretch.placed] using found, rfl⟩

/-- The lexemes of a source are its tokens on their lines; the first invalid stretch is refused. -/
theorem ofText_sight (source : String) :
    Outcome
      (fun e => ∃ s, (results source.toList).find? (·.shape = .invalid) = some s ∧
        e = .invalidToken (s.line source.toList) (String.ofList s.text))
      (fun found => found.1.map sight = (results source.toList).map (Stretch.sight source.toList) ∧
        found.2 = 1 + lineEnds source.toList)
      (ofText source) :=
  gather_placed (divided_ofText source.toList) rfl []

end Lexeme

/-! ### Lines of a source -/

/-- The line that a cause names. -/
def ParseError.line? : ParseError → Option Nat
  | .invalidToken line _ => some line
  | .unexpectedToken line _ _ => some line
  | .unexpectedEnd _ => none
  | .unclosed _ line => some line
  | .nestingTooDeep line => some line

namespace Stretch

/-- A stretch of tokens with which a statement starts that is kept as text. -/
def opensKept (s : Stretch) : Bool :=
  s.shape == .token (.keyword .measure) ||
    (s.shape == .token .identifier && (KeptRule.ofWord? (String.ofList s.text)).isSome)

/-- The number of stretches that are the given mark. -/
def countMark (m : Mark) (stretches : List Stretch) : Nat :=
  stretches.countP fun s => s.shape = .token (.mark m)

theorem line_bounds (source : List Char) (s : Stretch) :
    1 ≤ s.line source ∧ s.line source ≤ 1 + lineEnds source := by
  have part : lineEnds (source.take s.start) ≤ lineEnds source :=
    (List.take_sublist s.start source).count_le '\n'
  unfold line
  omega

end Stretch

/-- A cause points into a source: on its line starts the token that was not expected, the first
invalid stretch, or the delimiter that is not closed. A brace may also be missed behind a token that
opens a statement kept as text; then it is this token that starts on the line, and more braces open
behind it than close. -/
def ParseError.PointsInto (source : List Char) : ParseError → Prop
  | .invalidToken line text => ∃ s,
      (Stretch.results source).find? (·.shape = .invalid) = some s ∧ s.line source = line ∧
        s.text = text.toList
  | .unexpectedToken line _ found => ∃ s ∈ Stretch.results source, s.line source = line ∧
      s.text = found.toList ∧ ∃ kind, s.shape = .token kind
  | .unexpectedEnd _ => True
  | .unclosed m line =>
      (∃ s ∈ Stretch.results source, s.line source = line ∧ s.shape = .token (.mark m)) ∨
        ∃ before s behind, Stretch.results source = before ++ s :: behind ∧ s.line source = line ∧
          m = .leftBrace ∧ s.opensKept = true ∧
            Stretch.countMark .rightBrace behind < Stretch.countMark .leftBrace behind
  | .nestingTooDeep line => 1 ≤ line ∧ line ≤ 1 + lineEnds source

/-- Where a cause points is a line of the source. -/
theorem ParseError.PointsInto.line_bounds {source : List Char} {e : ParseError}
    (h : e.PointsInto source) : ∀ line ∈ e.line?, 1 ≤ line ∧ line ≤ 1 + lineEnds source := by
  intro line hline
  cases e with
  | unexpectedEnd expected => simp [line?] at hline
  | invalidToken own text =>
      obtain ⟨s, _, here, _⟩ := h
      rw [line?, Option.mem_some_iff] at hline
      exact hline ▸ here ▸ s.line_bounds source
  | unexpectedToken own expected found =>
      obtain ⟨s, _, here, _⟩ := h
      rw [line?, Option.mem_some_iff] at hline
      exact hline ▸ here ▸ s.line_bounds source
  | unclosed m own =>
      rw [line?, Option.mem_some_iff] at hline
      rcases h with ⟨s, _, here, _⟩ | ⟨_, s, _, _, here, _⟩
      · exact hline ▸ here ▸ s.line_bounds source
      · exact hline ▸ here ▸ s.line_bounds source
  | nestingTooDeep own =>
      rw [line?, Option.mem_some_iff] at hline
      exact hline ▸ h

namespace Lexeme

open Stretch

variable {source : List Char} {ts : List Lexeme} {ss : List Stretch}

/-- A lexeme is seen as a token of the source. -/
theorem exists_sight (same : ts.map sight = ss.map (Stretch.sight source)) {l : Lexeme}
    (hl : l ∈ ts) : ∃ s ∈ ss, s.shape = .token l.kind ∧ s.text = l.text.toList ∧
      s.line source = l.line := by
  obtain ⟨s, hs, sight⟩ := List.mem_map.mp (same ▸ List.mem_map_of_mem hl)
  simp only [Stretch.sight, Lexeme.sight, Prod.mk.injEq] at sight
  exact ⟨s, hs, sight⟩

theorem countMark_sight (same : ts.map sight = ss.map (Stretch.sight source)) (m : Mark) :
    countMark m ts = Stretch.countMark m ss := by
  let isMark : Shape × List Char × Nat → Bool := fun seen => seen.1 = Shape.token (.mark m)
  have lexemes : countMark m ts = (ts.map sight).countP isMark := by
    rw [List.countP_map]
    exact List.countP_congr fun l _ => by simp [isMark, sight]
  have stretches : Stretch.countMark m ss = (ss.map (Stretch.sight source)).countP isMark := by
    rw [List.countP_map]
    rfl
  rw [lexemes, stretches, same]

end Lexeme

open Lexeme in
/-- What blames a lexeme points at a token of the source. -/
theorem ParseError.Blames.pointsInto {source : List Char} {ts : List Lexeme} {e : ParseError}
    (same : ts.map sight = (Stretch.results source).map (Stretch.sight source))
    (h : e.Blames ts (1 + lineEnds source)) : e.PointsInto source := by
  cases h with
  | unexpectedToken hl =>
      obtain ⟨s, hs, shape, text, line⟩ := exists_sight same hl
      exact ⟨s, hs, line, text, _, shape⟩
  | unexpectedEnd => exact trivial
  | unclosed hl mark =>
      obtain ⟨s, hs, shape, _, line⟩ := exists_sight same hl
      exact .inl ⟨s, hs, line, mark ▸ shape⟩
  | @keptOpen l rest suffix opens braces =>
      obtain ⟨front, rfl⟩ := suffix
      rw [List.map_append, List.map_cons] at same
      obtain ⟨before, others, whole, _, later⟩ := List.map_eq_append_iff.mp same.symm
      obtain ⟨s, behind, rfl, sight, others⟩ := List.map_eq_cons_iff.mp later
      simp only [Stretch.sight, Lexeme.sight, Prod.mk.injEq] at sight
      obtain ⟨shape, text, line⟩ := sight
      refine .inr ⟨before, s, behind, whole, line, rfl, ?_, ?_⟩
      · simpa [Stretch.opensKept, opensKept, shape, text] using opens
      · rw [← countMark_sight others.symm, ← countMark_sight others.symm]
        exact braces
  | nestingTooDeep hl =>
      obtain ⟨s, _, _, _, line⟩ := exists_sight same hl
      exact line ▸ s.line_bounds source
  | nestingAtEnd => exact ⟨Nat.le_add_right 1 _, Nat.le_refl _⟩

/-- A source that is not a program is refused for a cause that points into it, and that names one of
its lines if it names any. -/
theorem Program.diagnostics_point {source : String} {e : ParseError}
    (h : ofText source = .error e) :
    e.PointsInto source.toList ∧
      ∀ line ∈ e.line?, 1 ≤ line ∧ line ≤ 1 + lineEnds source.toList := by
  have lexemes := Lexeme.ofText_sight source
  have points : e.PointsInto source.toList := by
    unfold ofText at h
    generalize Lexeme.ofText source = found at h lexemes
    cases lexemes with
    | error told =>
        obtain ⟨s, first, rfl⟩ := told
        cases h
        exact ⟨s, first, rfl, by simp⟩
    | @ok found seen =>
        have refused : ofCursor (Cursor.facing found.1 found.2) = .error e := h
        have blames := ofCursor_blames found.1 found.2 refused
        rw [seen.2] at blames
        exact blames.pointsInto seen.1
  exact ⟨points, points.line_bounds⟩

/-- The body of a gate opens on the second line and is not closed. The diagnostic points at the word
`gate` on the first line, where no brace stands. -/
theorem Program.diagnostics_point_gateBody :
    ofText "gate g a\n\x7b h a;" = .error (.unclosed .leftBrace 1) ∧
      (ParseError.unclosed .leftBrace 1).PointsInto "gate g a\n\x7b h a;".toList ∧
      ∀ s ∈ Stretch.results "gate g a\n\x7b h a;".toList, s.shape = .token (.mark .leftBrace) →
        s.line "gate g a\n\x7b h a;".toList = 2 := by
  have refused : ofText "gate g a\n\x7b h a;" = .error (.unclosed .leftBrace 1) := by
    decide +kernel
  exact ⟨refused, (diagnostics_point refused).1, by decide +kernel⟩

end QasmDiagram
