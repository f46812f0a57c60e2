/-
Module: QasmDiagram.Proofs.Lines
Purpose: A text behind another. What follows a text is divided as it would be alone, as many lines
  further down as the text takes, where the layout at its end is passed over: always before a line
  end, and before any other break unless a comment to the end of the line is left open.
Trusted boundary: none
Main exports: ParseError.down, Lexeme.down, Lexeme.Passed, Lexeme.passed_or_swallowed,
  Lexeme.passed_lineEnd, Lexeme.ofText_behind, Lexeme.ofText_below, Lexeme.Whole,
  Lexeme.Whole.behind
-/
import QasmDiagram.Proofs.Spelling

namespace QasmDiagram

/-- The same cause, `k` lines further down. -/
def ParseError.down (k : Nat) : ParseError → ParseError
  | .invalidToken line text => .invalidToken (line + k) text
  | .unexpectedToken line expected found => .unexpectedToken (line + k) expected found
  | .unexpectedEnd expected => .unexpectedEnd expected
  | .unclosed delimiter line => .unclosed delimiter (line + k)
  | .nestingTooDeep line => .nestingTooDeep (line + k)

namespace Rule

open Segment

/-! ### Layout before a line end -/

/-- What is layout matches one of three patterns. -/
theorem table_layout : ∀ rule ∈ table, rule.shape = .layout →
    rule.pattern = blanks ∨ rule.pattern = lineComment ∨ rule.pattern = closedComment := by
  decide

/-- A comment is closed once: what closes it at its end does not leave it open. -/
theorem staysOpen_eq_false {afterStar : Bool} {t : List Char}
    (h : closesAtEnd afterStar t = true) : staysOpen afterStar t = false := by
  induction t generalizing afterStar with
  | nil => simp [closesAtEnd] at h
  | cons c t ih =>
      rw [closesAtEnd] at h
      rw [staysOpen]
      split at h
      case isTrue closing => simp [closing]
      case isFalse inside => simp [ih h]

/-- No text goes on over a line end from a comment to its end of line. -/
theorem lineComment_ends {a u : List Char} (h : lineComment.Matches a) {p : Pattern}
    (hp : p ∈ enclosing) : ¬ p.Matches (a ++ '\n' :: u) := by
  rcases matches_lineComment.mp h with ⟨t, rfl, _⟩
  intro longer
  simp only [enclosing, List.mem_cons, List.not_mem_nil, or_false] at hp
  rcases hp with rfl | rfl | rfl | rfl | rfl | rfl
  · exact absurd ((matches_blanks.mp longer).2 '/' (by simp)) (by decide)
  · rcases matches_lineComment.mp longer with ⟨t', ht, line⟩
    simp only [List.cons_append, List.cons.injEq, true_and] at ht
    exact line (by simp [← ht])
  · rcases matches_closedComment.mp longer with ⟨t', ht, _⟩
    simp at ht
  · rcases matches_closedString.mp longer with ⟨t', ht, _⟩
    simp at ht
  · rcases matches_openString.mp longer with ⟨t', ht, _⟩
    simp at ht
  · rcases matches_openComment.mp longer with ⟨t', ht, _⟩
    simp at ht

/-- No text goes on from a closed comment. -/
theorem closedComment_ends {a u : List Char} {d : Char} (h : closedComment.Matches a) {p : Pattern}
    (hp : p ∈ enclosing) : ¬ p.Matches (a ++ d :: u) := by
  rcases matches_closedComment.mp h with ⟨t, rfl, closed⟩
  have once := staysOpen_eq_false closed
  intro longer
  simp only [enclosing, List.mem_cons, List.not_mem_nil, or_false] at hp
  rcases hp with rfl | rfl | rfl | rfl | rfl | rfl
  · exact absurd ((matches_blanks.mp longer).2 '/' (by simp)) (by decide)
  · rcases matches_lineComment.mp longer with ⟨t', ht, _⟩
    simp at ht
  · rcases matches_closedComment.mp longer with ⟨t', ht, closed'⟩
    simp only [List.cons_append, List.cons.injEq, true_and] at ht
    rw [← ht] at closed'
    have opened := staysOpen_of_closesAtEnd closed' (by simp)
    rw [once] at opened
    simp at opened
  · rcases matches_closedString.mp longer with ⟨t', ht, _⟩
    simp at ht
  · rcases matches_openString.mp longer with ⟨t', ht, _⟩
    simp at ht
  · rcases matches_openComment.mp longer with ⟨t', ht, opened⟩
    simp only [List.cons_append, List.cons.injEq, true_and] at ht
    rw [← ht] at opened
    rw [staysOpen_append opened] at once
    simp at once

/-- A layout text stands before a break if no enclosing text goes on from it over the break. -/
theorem stands_of_ends {a : List Char} (h : shapeOf? table a = some .layout) (nonempty : a ≠ [])
    {rest : List Char} (opens : OpensBreak rest)
    (ends : ∀ d ∈ rest.head?, ∀ p ∈ enclosing, ∀ u, ¬ p.Matches (a ++ d :: u)) :
    Stands a .layout rest := by
  refine ⟨nonempty, h, ?_⟩
  intro u hu pre
  cases u with
  | nil => exact absurd rfl hu
  | cons d u =>
      obtain ⟨v, rfl⟩ := pre
      rw [shapeOf?_eq_none_iff]
      intro rule hrule longer
      have hd : d ∈ breaks := opens d rfl
      exact ends d rfl _ (enclosing_of_break hrule nonempty hd longer) u longer

/-- What is layout stands before a break, but for blanks, which would take a blank with them, and a
comment to the end of its line, which goes on to a line end. -/
theorem layout_stands_cases {a : List Char} (h : shapeOf? table a = some .layout) :
    blanks.Matches a ∨ (∀ rest, OpensBreak rest → Stands a .layout rest) ∨
      lineComment.Matches a ∧ ∀ text, Stands a .layout ('\n' :: text) := by
  obtain ⟨rule, hrule, hshape, hmatch⟩ := exists_matches_of_shapeOf? h
  rcases table_layout rule hrule hshape with hp | hp | hp <;> rw [hp] at hmatch
  · exact .inl hmatch
  · refine .inr (.inr ⟨hmatch, fun text => ?_⟩)
    have nonempty : a ≠ [] := by
      rcases matches_lineComment.mp hmatch with ⟨t, rfl, _⟩
      simp
    refine stands_of_ends h nonempty (opensBreak_cons (by decide)) ?_
    intro d hd p hp u
    cases hd
    exact lineComment_ends hmatch hp
  · refine .inr (.inl fun rest opens => ?_)
    have nonempty : a ≠ [] := by
      rcases matches_closedComment.mp hmatch with ⟨t, rfl, _⟩
      simp
    exact stands_of_ends h nonempty opens fun d _ p hp u => closedComment_ends hmatch hp

/-- A comment to the end of its line takes every character but a line end. -/
theorem shapeOf?_lineComment_append {a : List Char} (h : lineComment.Matches a) {c : Char}
    (hc : c ≠ '\n') : shapeOf? table (a ++ [c]) = some .layout := by
  have first : table = ⟨blanks, .layout⟩ :: ⟨lineComment, .layout⟩ :: table.drop 2 := rfl
  have longer : lineComment.accepts (a ++ [c]) = true := by
    rcases matches_lineComment.mp h with ⟨t, rfl, line⟩
    refine Pattern.accepts_iff.mpr (matches_lineComment.mpr ⟨t ++ [c], rfl, ?_⟩)
    simpa [line] using hc.symm
  rw [shapeOf?, first, List.find?_cons, List.find?_cons, longer]
  cases blanks.accepts (a ++ [c]) <;> rfl

end Rule

namespace Lexeme

open Rule Segment

/-- A text is its blanks in front and what follows them. -/
theorem exists_blanks (text : List Char) :
    ∃ front rest, text = front ++ rest ∧ (∀ c ∈ front, c ∈ " \t\r\n".toList) ∧
      ∀ c ∈ rest.head?, c ∉ " \t\r\n".toList := by
  induction text with
  | nil => exact ⟨[], [], rfl, by simp, by simp⟩
  | cons c text ih =>
      by_cases blank : c ∈ " \t\r\n".toList
      · obtain ⟨front, rest, rfl, hfront, hrest⟩ := ih
        refine ⟨c :: front, rest, rfl, ?_, hrest⟩
        intro d hd
        rcases List.mem_cons.mp hd with rfl | hd
        · exact blank
        · exact hfront d hd
      · refine ⟨[], c :: text, rfl, by simp, ?_⟩
        intro d hd
        rw [List.head?_cons, Option.mem_some_iff] at hd
        exact hd ▸ blank

/-- Blanks are passed over, whatever follows: blanks that follow are one segment with them, but this
makes no difference to what is gathered. -/
theorem gather_blanks {front : List Char} (blank : ∀ c ∈ front, c ∈ " \t\r\n".toList)
    (done : List Lexeme) (before : List Char) (line : Nat) (text : List Char) :
    gather done before line (Segment.ofText (front ++ text)) =
      gather done (before ++ front) (line + lineEnds front) (Segment.ofText text) := by
  obtain ⟨more, rest, rfl, hmore, hrest⟩ := exists_blanks text
  have both : ∀ c ∈ front ++ more, c ∈ " \t\r\n".toList :=
    List.forall_mem_append.mpr ⟨blank, hmore⟩
  rw [← List.append_assoc, gather_laidOut (laidOut_blanks both hrest),
    gather_laidOut (laidOut_blanks hmore hrest)]
  simp [Nat.add_assoc]

/-- Layout at the end of a text is passed over before what follows it. -/
def Passed (trail text : List Char) : Prop :=
  ∀ done before line, gather done before line (Segment.ofText (trail ++ text)) =
    gather done (before ++ trail) (line + lineEnds trail) (Segment.ofText text)

theorem Passed.nil (text : List Char) : Passed [] text := by
  intro done before line
  simp [lineEnds]

theorem Passed.more {a b text : List Char} (stands : Stands a .layout (b ++ text))
    (passed : Passed b text) : Passed (a ++ b) text := by
  intro done before line
  rw [List.append_assoc, ofText_append stands, gather]
  simp only
  rw [passed]
  simp [Nat.add_assoc]

/-- Layout at the end of a text is passed over before a break, or it ends with a comment to the end
of its line, which takes every break but a line end with it. -/
theorem passed_or_swallowed {trail rest : List Char} (laid : LaidOut trail rest) (hend : rest = [])
    {text : List Char} (opens : OpensBreak text) :
    Passed trail text ∨
      text.head? ≠ some '\n' ∧ ∀ c ∈ breaks, c ≠ '\n' → LaidOut (trail ++ [c]) [] := by
  induction laid with
  | nil => exact .inl (.nil text)
  | @more a b _ stands _ ih =>
      subst hend
      by_cases last : b = []
      · subst last
        rw [List.append_nil]
        have single : Stands a .layout text → Passed a text := by
          intro here
          simpa using Passed.more (b := []) here (.nil text)
        rcases layout_stands_cases stands.shapeOf with blank | closed | ⟨comment, lineEnd⟩
        · exact .inl (gather_blanks (matches_blanks.mp blank).2 · · · text)
        · exact .inl (single (closed text opens))
        by_cases head : text.head? = some '\n'
        · obtain ⟨text, rfl⟩ := List.head?_eq_some_iff.mp head
          exact .inl (single (lineEnd text))
        · refine .inr ⟨head, ?_⟩
          intro c _ hc
          have shape := shapeOf?_lineComment_append comment hc
          have atEnd : Stands (a ++ [c]) .layout ([] ++ []) :=
            ⟨by simp, shape, fun u hu pre => absurd (List.prefix_nil.mp pre) hu⟩
          simpa using LaidOut.more atEnd .nil
      · rcases ih rfl with passed | ⟨head, swallowed⟩
        · exact .inl (.more (Longest.exchange stands last opens) passed)
        · refine .inr ⟨head, ?_⟩
          intro c break' hc
          rw [List.append_assoc]
          refine .more ?_ (swallowed c break' hc)
          rw [List.append_assoc]
          exact Longest.exchange stands last (opensBreak_cons break')

/-- Layout at the end of a text and a line end behind it are passed over, whatever follows. -/
theorem passed_lineEnd {trail : List Char} (laid : LaidOut trail []) (text : List Char) :
    Passed (trail ++ ['\n']) text := by
  have lineEnd : ∀ c ∈ ['\n'], c ∈ " \t\r\n".toList := List.forall_mem_singleton.mpr (by decide)
  have opens : OpensBreak ('\n' :: text) := opensBreak_cons (by decide)
  rcases passed_or_swallowed laid rfl opens with passed | ⟨head, _⟩
  · intro done before line
    have behind := gather_blanks lineEnd done (before ++ trail) (line + lineEnds trail) text
    rw [List.append_assoc, List.singleton_append, passed, ← List.singleton_append, behind]
    simp [Nat.add_assoc]
  · exact absurd rfl head

/-! ### Further down -/

/-- The same lexeme, `k` lines further down. -/
def down (k : Nat) (l : Lexeme) : Lexeme :=
  { l with line := l.line + k }

/-- What has been gathered before stays in front. -/
theorem gather_done (done : List Lexeme) (before : List Char) (line : Nat)
    (segments : List Segment) :
    gather done before line segments =
      (gather [] before line segments).map fun found => (done.reverse ++ found.1, found.2) := by
  induction segments generalizing done before line with
  | nil => simp [gather, Except.map]
  | cons segment segments ih =>
      unfold gather
      dsimp only
      cases segment.shape with
      | layout => exact ih done _ _
      | invalid => rfl
      | token kind =>
          dsimp only
          rw [ih, ih [_]]
          cases gather [] [] (line + lineEnds segment.text) segments <;> simp [Except.map]

/-- What is gathered further down, behind more layout, is the same further down, with more layout
before the first lexeme. -/
theorem gather_down (k : Nat) (lead before : List Char) (line : Nat) (segments : List Segment) :
    gather [] (lead ++ before) (line + k) segments =
      ((gather [] before line segments).map
        fun found => (leadBy lead (found.1.map (down k)), found.2 + k)).mapError (·.down k) := by
  induction segments generalizing lead before line with
  | nil => rfl
  | cons segment segments ih =>
      have lines : line + k + lineEnds segment.text = line + lineEnds segment.text + k := by omega
      unfold gather
      dsimp only
      rw [lines]
      cases segment.shape with
      | layout =>
          dsimp only
          rw [List.append_assoc, ih]
      | invalid => rfl
      | token kind =>
          have behind := ih [] [] (line + lineEnds segment.text)
          rw [List.nil_append] at behind
          dsimp only
          rw [gather_done [_], gather_done [_], behind]
          cases gather [] [] (line + lineEnds segment.text) segments <;>
            simp [Except.map, Except.mapError, down]

/-- The lexemes of a source stand on its lines, and it ends on the last of them. -/
theorem placed_of_ofText {source : String} {ts : List Lexeme} {n : Nat}
    (h : ofText source = .ok (ts, n)) : placed 1 ts = ts ∧ n = 1 + lineEnds source.toList := by
  obtain ⟨trail, htext, spelled, laid⟩ := spelled_of_ofText h
  rw [ofText, htext, gather_spelled spelled laid, Except.ok.injEq, Prod.mk.injEq] at h
  exact ⟨h.1, by rw [htext, h.2]⟩

/-- The lexemes of a text behind another are its own, further down, with what is left of the text
before as layout between the two. -/
theorem ofText_behind {above below : String} {ts : List Lexeme} {trail : List Char}
    (htext : above.toList = written ts ++ trail) (spelled : Spelled ts (trail ++ below.toList))
    (passed : Passed trail below.toList) :
    ofText (above ++ below) = ((ofText below).map fun found =>
        (placed 1 ts ++ leadBy trail (found.1.map (down (lineEnds above.toList))),
          found.2 + lineEnds above.toList)).mapError (·.down (lineEnds above.toList)) := by
  have joined : (above ++ below).toList = written ts ++ (trail ++ below.toList) := by
    simp [htext]
  have lines : 1 + lineEnds (written ts) + lineEnds trail = 1 + lineEnds above.toList := by
    rw [htext, lineEnds_append, Nat.add_assoc]
  have further := gather_down (lineEnds above.toList) trail [] 1 (Segment.ofText below.toList)
  rw [ofText, joined, gather_written spelled, passed, List.nil_append, lines, gather_done,
    ← List.append_nil trail, further, List.append_nil, List.append_nil, List.reverse_reverse, ofText]
  cases gather [] [] 1 (Segment.ofText below.toList) <;> simp [Except.map, Except.mapError]

/-- The tokens of a text below another are its own, below those of the text above, with what is left
of the text above as layout between the two. -/
theorem ofText_below {above : String} {ts : List Lexeme} {n : Nat}
    (h : ofText above = .ok (ts, n)) (below : String) :
    ∃ lead, ofText (above ++ "\n" ++ below) =
      ((ofText below).map
        fun found => (ts ++ leadBy lead (found.1.map (down n)), found.2 + n)).mapError (·.down n) := by
  obtain ⟨trail, htext, spelled, laid⟩ := spelled_of_ofText h
  obtain ⟨onLines, rfl⟩ := placed_of_ofText h
  have goesOn : Spelled ts (trail ++ ['\n'] ++ below.toList) := by
    rw [← List.append_nil trail] at spelled
    rw [List.append_assoc]
    exact spelled.exchange_behind (opensBreak_cons (by decide))
  have closed : (above ++ "\n").toList = written ts ++ (trail ++ ['\n']) := by
    simp [htext]
  have lines : lineEnds (above ++ "\n").toList = 1 + lineEnds above.toList := by
    rw [String.toList_append, lineEnds_append, Nat.add_comm]
    rfl
  refine ⟨trail ++ ['\n'], ?_⟩
  rw [ofText_behind closed goesOn (passed_lineEnd laid _), lines, onLines]

/-! ### Texts that end with their last token -/

theorem map_token_leadBy (lead : List Char) (ls : List Lexeme) :
    (leadBy lead ls).map token = ls.map token := by
  cases ls <;> rfl

theorem written_leadBy {lead : List Char} {ls : List Lexeme} (h : ls ≠ []) :
    written (leadBy lead ls) = lead ++ written ls := by
  cases ls with
  | nil => exact absurd rfl h
  | cons l ls => simp

/-- The lexemes of a text with another behind it, where what it ends with is passed over. -/
theorem exists_behind {above below : String} {ts us : List Lexeme} {trail : List Char} {n : Nat}
    (h : ofText below = .ok (us, n)) (htext : above.toList = written ts ++ trail)
    (spelled : Spelled ts (trail ++ below.toList)) (passed : Passed trail below.toList) :
    ∃ vs k, ofText (above ++ below) = .ok (placed 1 ts ++ vs, k) ∧ vs.map token = us.map token ∧
      (us ≠ [] → written vs = trail ++ written us) := by
  have lower : (us.map (down (lineEnds above.toList))).map face = us.map face := by
    rw [List.map_map]
    rfl
  refine ⟨_, _, by rw [ofText_behind htext spelled passed, h]; rfl, ?_, ?_⟩
  · rw [map_token_leadBy, map_token_of_map_face lower]
  · intro nonempty
    have left : us.map (down (lineEnds above.toList)) ≠ [] := by simpa using nonempty
    rw [written_leadBy left, written_of_map_face lower]

/-- The text has the given tokens, and nothing behind the last of them. -/
def Whole (source : String) (tokens : List (TokenKind × String)) : Prop :=
  ∃ ls n, ofText source = .ok (ls, n) ∧ ls.map token = tokens ∧ written ls = source.toList

/-- The tokens of a text, and behind them those of a text that ends with its last token. -/
theorem Whole.behind {above below : String} {ts : List Lexeme} {trail : List Char}
    {tokens : List (TokenKind × String)} (h : Whole below tokens) (nonempty : tokens ≠ [])
    (htext : above.toList = written ts ++ trail) (spelled : Spelled ts (trail ++ below.toList))
    (passed : Passed trail below.toList) : Whole (above ++ below) (ts.map token ++ tokens) := by
  obtain ⟨us, m, lexemes, rfl, hwritten⟩ := h
  obtain ⟨vs, k, joined, tokens, text⟩ := exists_behind lexemes htext spelled passed
  have front : (placed 1 ts).map face = ts.map face := map_face_placed 1 ts
  refine ⟨_, _, joined, ?_, ?_⟩
  · rw [List.map_append, map_token_of_map_face front, tokens]
  · rw [written_append, written_of_map_face front, text (by simpa using nonempty), hwritten,
      String.toList_append, htext, List.append_assoc]

/-- The lexemes of a text behind a word and a blank. -/
theorem exists_behind_word {word below : String} {kind : TokenKind} {us : List Lexeme} {m : Nat}
    (hword : shapeOf? table word.toList = some (.token kind)) (h : ofText below = .ok (us, m)) :
    ∃ vs k, ofText (word ++ " " ++ below) = .ok (⟨kind, word, "", 1⟩ :: vs, k) ∧
      vs.map token = us.map token ∧ (us ≠ [] → written vs = ' ' :: written us) := by
  have blank : ∀ c ∈ [' '], c ∈ " \t\r\n".toList := List.forall_mem_singleton.mpr (by decide)
  have spelled : Spelled [⟨kind, word, "", 1⟩] ([' '] ++ below.toList) :=
    ⟨.nil, stands_before_break hword (opensBreak_cons (by decide)), trivial⟩
  have htext : (word ++ " ").toList = written [⟨kind, word, "", 1⟩] ++ [' '] := by simp
  obtain ⟨vs, k, joined, found⟩ := exists_behind h htext spelled
    fun done before line => gather_blanks blank done before line _
  exact ⟨vs, k, joined, found⟩

/-- A text is continued by what follows it, unless a comment at its end takes a semicolon behind it. -/
theorem whole_or_swallowed {text : String} {ts : List Lexeme} {n : Nat}
    (h : ofText text = .ok (ts, n)) :
    (∀ {tail tokens}, Whole tail tokens → tokens ≠ [] → OpensBreak tail.toList →
        Whole (text ++ tail) (ts.map token ++ tokens)) ∨
      ∃ us m, ofText (text ++ ";") = .ok (us, m) ∧ us.map token = ts.map token := by
  obtain ⟨trail, htext, spelled, laid⟩ := spelled_of_ofText h
  have goesOn : ∀ {after}, OpensBreak after → Spelled ts (trail ++ after) := by
    intro after opens
    rw [← List.append_nil trail] at spelled
    exact spelled.exchange_behind opens
  by_cases swallowed : LaidOut (trail ++ [';']) []
  · refine .inr ⟨placed 1 ts, 1 + lineEnds (written ts ++ (trail ++ [';'])), ?_,
      map_token_of_map_face (map_face_placed 1 ts)⟩
    have joined : (text ++ ";").toList = written ts ++ (trail ++ [';']) := by
      simp [htext]
    rw [ofText, joined, gather_spelled (goesOn (opensBreak_cons (by decide))) swallowed]
  · refine .inl ?_
    intro tail tokens whole nonempty opens
    rcases passed_or_swallowed laid rfl opens with passed | ⟨_, takes⟩
    · exact whole.behind nonempty htext (goesOn opens) passed
    · exact absurd (takes ';' (by decide) (by decide)) swallowed

end Lexeme

end QasmDiagram
