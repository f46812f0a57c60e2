/-
Module: QasmDiagram.Proofs.Segmentation
Purpose: Tokens and layout that stand, each as a longest match, before the text behind them are
  exactly the tokens of that text: what the lexer finds and what it would find again.
Trusted boundary: none
Main exports: Segment.Stands, Segment.LaidOut, Lexeme.token, Lexeme.face, Lexeme.written,
  Lexeme.Spelled, Lexeme.spelled_of_ofText, Lexeme.ofText_of_spelled
-/
import QasmDiagram.Proofs.LongestMatch

namespace QasmDiagram

namespace Segment

/-- `text` is the longest match of the lexical grammar before `rest`, and has the given shape. -/
abbrev Stands (text : List Char) (shape : Shape) (rest : List Char) : Prop :=
  Rule.Longest Rule.table text rest shape

/-- Segments already found stay in front. -/
theorem splitOnto_eq (done : List Segment) (text : List Char) :
    splitOnto done text = done.reverse ++ ofText text := by
  induction h : text.length using Nat.strongRecOn generalizing done text with
  | ind n ih =>
      cases text with
      | nil => simp [ofText, splitOnto]
      | cons c rest =>
          have shorter : (rest.drop (extent c rest).1).length < n := by
            rw [← h, List.length_drop, List.length_cons]
            omega
          rw [ofText, splitOnto, splitOnto, ih _ shorter _ _ rfl, ih _ shorter _ _ rfl]
          simp

@[simp] theorem ofText_nil : ofText [] = [] := by
  simp [ofText, splitOnto]

theorem ofText_cons (c : Char) (rest : List Char) :
    ofText (c :: rest) =
      ⟨c :: rest.take (extent c rest).1, (extent c rest).2⟩
        :: ofText (rest.drop (extent c rest).1) := by
  rw [ofText, splitOnto, splitOnto_eq]
  rfl

/-- A text that stands before the rest is its own segment. -/
theorem ofText_append {text rest : List Char} {shape : Shape} (h : Stands text shape rest) :
    ofText (text ++ rest) = ⟨text, shape⟩ :: ofText rest := by
  cases text with
  | nil => exact absurd rfl h.nonempty
  | cons c text =>
      have found : extent c (text ++ rest) = (text.length, shape) := by
        have := Rule.longest_append_iff.mpr h
        simp only [List.cons_append, List.length_cons] at this
        simp [extent, this]
      rw [List.cons_append, ofText_cons, found]
      simp

/-- A text that is not empty starts with the longest match or with a character that opens none. -/
theorem ofText_cases {text : List Char} (h : text ≠ []) :
    (∃ a rest shape, text = a ++ rest ∧ Stands a shape rest ∧
        ofText text = ⟨a, shape⟩ :: ofText rest) ∨
      ∃ c rest, text = c :: rest ∧
        (∀ u, u ≠ [] → u <+: c :: rest → Rule.shapeOf? Rule.table u = none) ∧
          ofText text = ⟨[c], .invalid⟩ :: ofText rest := by
  cases text with
  | nil => exact absurd rfl h
  | cons c rest =>
      cases found : Rule.longest Rule.table (c :: rest) with
      | none =>
          refine .inr ⟨c, rest, rfl, Rule.longest_eq_none_iff.mp found, ?_⟩
          rw [ofText_cons]
          simp [extent, found]
      | some answer =>
          obtain ⟨a, rest', htext, _, stands⟩ := Rule.exists_longest (n := answer.1) found
          refine .inl ⟨a, rest', answer.2, htext, stands, ?_⟩
          rw [htext]
          exact ofText_append stands

/-- A text made of layout segments, each of which stands before what follows it. -/
inductive LaidOut : List Char → List Char → Prop where
  | nil {rest} : LaidOut [] rest
  | more {a b rest} : Stands a .layout (b ++ rest) → LaidOut b rest → LaidOut (a ++ b) rest

end Segment

namespace Lexeme

open Segment

/-- The class and text of a lexeme, without its place. -/
def token (l : Lexeme) : TokenKind × String :=
  (l.kind, l.text)

/-- A lexeme without its line. -/
def face (l : Lexeme) : TokenKind × String × String :=
  (l.kind, l.text, l.lead)

/-- The text of lexemes, each with the layout before it. -/
def written : List Lexeme → List Char
  | [] => []
  | l :: ls => l.lead.toList ++ (l.text.toList ++ written ls)

@[simp] theorem written_nil : written [] = [] := rfl

@[simp] theorem written_cons (l : Lexeme) (ls : List Lexeme) :
    written (l :: ls) = l.lead.toList ++ (l.text.toList ++ written ls) := rfl

@[simp] theorem written_append (ls ms : List Lexeme) :
    written (ls ++ ms) = written ls ++ written ms := by
  induction ls with
  | nil => rfl
  | cons l ls ih => simp [ih]

/-- Every lexeme stands before the text behind it, and so does every part of the layout before it.
`after` is the text behind the last. -/
def Spelled : List Lexeme → List Char → Prop
  | [], _ => True
  | l :: ls, after =>
      LaidOut l.lead.toList (l.text.toList ++ (written ls ++ after)) ∧
        Stands l.text.toList (.token l.kind) (written ls ++ after) ∧ Spelled ls after

@[simp] theorem spelled_nil (after : List Char) : Spelled [] after := trivial

theorem spelled_cons {l : Lexeme} {ls : List Lexeme} {after : List Char} :
    Spelled (l :: ls) after ↔
      LaidOut l.lead.toList (l.text.toList ++ (written ls ++ after)) ∧
        Stands l.text.toList (.token l.kind) (written ls ++ after) ∧ Spelled ls after :=
  Iff.rfl

theorem spelled_append {ls ms : List Lexeme} {after : List Char} :
    Spelled (ls ++ ms) after ↔ Spelled ls (written ms ++ after) ∧ Spelled ms after := by
  induction ls with
  | nil => simp
  | cons l ls ih => simp [spelled_cons, ih, and_assoc]

/-! ### What the lexer finds is spelled -/

/-- Lexemes with more layout before the first. -/
def leadBy (lead : List Char) : List Lexeme → List Lexeme
  | [] => []
  | l :: ls => { l with lead := String.ofList (lead ++ l.lead.toList) } :: ls

@[simp] theorem leadBy_nil_right (lead : List Char) : leadBy lead [] = [] := rfl

@[simp] theorem leadBy_cons (lead : List Char) (l : Lexeme) (ls : List Lexeme) :
    leadBy lead (l :: ls) = { l with lead := String.ofList (lead ++ l.lead.toList) } :: ls := rfl

@[simp] theorem leadBy_nil (ls : List Lexeme) : leadBy [] ls = ls := by
  cases ls <;> simp

theorem leadBy_leadBy (a b : List Char) (ls : List Lexeme) :
    leadBy a (leadBy b ls) = leadBy (a ++ b) ls := by
  cases ls <;> simp

/-- Setting the layout aside leaves lexemes that are spelled as the text has them. -/
theorem gather_ofText {text : List Char} {done : List Lexeme} {lead : List Char} {line : Nat}
    {ts : List Lexeme} {n : Nat} (h : gather done lead line (Segment.ofText text) = .ok (ts, n)) :
    ∃ ls trail, text = written ls ++ trail ∧ Spelled ls trail ∧ LaidOut trail [] ∧
      ts = done.reverse ++ leadBy lead ls := by
  induction hn : text.length using Nat.strongRecOn generalizing text done lead line with
  | ind k ih =>
      by_cases empty : text = []
      · subst empty
        rw [ofText_nil] at h
        simp only [gather, Except.ok.injEq, Prod.mk.injEq] at h
        exact ⟨[], [], rfl, trivial, .nil, by simp [h.1]⟩
      rcases ofText_cases empty with
        ⟨a, rest, shape, rfl, stands, segments⟩ | ⟨c, rest, rfl, _, segments⟩
      · have shorter : rest.length < k := by
          have := List.length_pos_iff.mpr stands.nonempty
          rw [← hn, List.length_append]
          omega
        rw [segments] at h
        cases shape with
        | layout =>
            obtain ⟨ls, trail, rfl, spelled, laid, rfl⟩ := ih _ shorter (by exact h) rfl
            cases ls with
            | nil =>
                refine ⟨[], a ++ trail, rfl, trivial, .more ?_ laid, rfl⟩
                simpa using stands
            | cons l ls =>
                refine ⟨leadBy a (l :: ls), trail, by simp, ?_, laid, ?_⟩
                · rcases spelled with ⟨before, here, behind⟩
                  refine ⟨?_, here, behind⟩
                  simp only [String.toList_ofList]
                  refine .more ?_ before
                  simpa using stands
                · rw [leadBy_leadBy]
        | token kind =>
            obtain ⟨ls, trail, rfl, spelled, laid, rfl⟩ := ih _ shorter (by exact h) rfl
            refine ⟨⟨kind, String.ofList a, "", line⟩ :: ls, trail, by simp, ⟨.nil, ?_, spelled⟩,
              laid, ?_⟩
            · simpa using stands
            · cases ls <;> simp
        | invalid => simp [gather] at h
      · rw [segments] at h
        simp [gather] at h

/-- The lexemes of a source are spelled as the source has them. -/
theorem spelled_of_ofText {source : String} {ts : List Lexeme} {n : Nat}
    (h : ofText source = .ok (ts, n)) :
    ∃ trail, source.toList = written ts ++ trail ∧ Spelled ts trail ∧ LaidOut trail [] := by
  obtain ⟨ls, trail, htext, spelled, laid, rfl⟩ := gather_ofText h
  refine ⟨trail, ?_, ?_, laid⟩
  · simpa using htext
  · simpa using spelled

/-! ### What is spelled is found again -/

@[simp] theorem lineEnds_append (a b : List Char) : lineEnds (a ++ b) = lineEnds a + lineEnds b :=
  List.count_append

/-- Layout that stands before the rest is passed over. -/
theorem gather_laidOut {lead rest : List Char} (laid : LaidOut lead rest) (done : List Lexeme)
    (before : List Char) (line : Nat) :
    gather done before line (Segment.ofText (lead ++ rest)) =
      gather done (before ++ lead) (line + lineEnds lead) (Segment.ofText rest) := by
  induction laid generalizing before line with
  | nil => simp [lineEnds]
  | more stands _ ih =>
      rw [List.append_assoc, ofText_append stands, gather]
      simp only
      rw [ih]
      simp [Nat.add_assoc]

/-- Lexemes on the lines on which they stand in a text that starts on the line `line`. -/
def placed (line : Nat) : List Lexeme → List Lexeme
  | [] => []
  | l :: ls =>
      let start := line + lineEnds l.lead.toList
      { l with line := start } :: placed (start + lineEnds l.text.toList) ls

@[simp] theorem map_face_placed (line : Nat) (ls : List Lexeme) :
    (placed line ls).map face = ls.map face := by
  induction ls generalizing line with
  | nil => rfl
  | cons l ls ih => rw [placed, List.map_cons, List.map_cons, ih, face, face]

/-- Spelled lexemes are gathered again, whatever text follows them. -/
theorem gather_written {ls : List Lexeme} {rest : List Char} (spelled : Spelled ls rest)
    (done : List Lexeme) (line : Nat) :
    gather done [] line (Segment.ofText (written ls ++ rest)) =
      gather ((placed line ls).reverse ++ done) [] (line + lineEnds (written ls))
        (Segment.ofText rest) := by
  induction ls generalizing done line with
  | nil => rfl
  | cons l ls ih =>
      rcases spelled with ⟨before, here, behind⟩
      have skip := gather_laidOut before done [] line
      rw [ofText_append here, gather] at skip
      simp only [written_cons, List.append_assoc]
      rw [skip]
      simp only
      rw [ih behind]
      simp [placed, Nat.add_assoc]

/-- Spelled lexemes with nothing but layout behind them are what is gathered. -/
theorem gather_spelled {ls : List Lexeme} {trail : List Char} (spelled : Spelled ls trail)
    (laid : LaidOut trail []) (line : Nat) :
    gather [] [] line (Segment.ofText (written ls ++ trail)) =
      .ok (placed line ls, line + lineEnds (written ls ++ trail)) := by
  have skip := gather_laidOut laid (placed line ls).reverse [] (line + lineEnds (written ls))
  rw [List.append_nil] at skip
  rw [gather_written spelled, List.append_nil, skip, ofText_nil]
  simp [gather, Nat.add_assoc]

/-- A text that spells lexemes has exactly these, up to their lines. -/
theorem ofText_of_spelled {source : String} {ls : List Lexeme} {trail : List Char}
    (htext : source.toList = written ls ++ trail) (spelled : Spelled ls trail)
    (laid : LaidOut trail []) :
    ∃ ts n, ofText source = .ok (ts, n) ∧ ts.map face = ls.map face := by
  refine ⟨placed 1 ls, 1 + lineEnds (written ls ++ trail), ?_, map_face_placed 1 ls⟩
  rw [ofText, htext, gather_spelled spelled laid]

end Lexeme

end QasmDiagram
