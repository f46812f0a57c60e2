/-
Module: QasmDiagram.Proofs.MaximalMunch
Purpose: The division of a source into stretches is its division by longest match. Tokens and
  invalid stretches follow each other with nothing but blanks and comments between them; each token
  is the longest beginning that a rule matches, and a stretch is invalid where no rule matches or
  where a string or a comment is never closed.
Trusted boundary: none
Main exports: Rule.Unclosed, Rule.IsLayout, Rule.Munched, Rule.Spoilt, Rule.Judged, Stretch,
  Stretch.results, Stretch.InPlace, Stretch.MaximalMunch, Stretch.results_eq_iff_maximalMunch
-/
import Mathlib.Data.List.Pairwise
import Mathlib.Data.List.Sort
import QasmDiagram.Proofs.Boundary
import QasmDiagram.Proofs.Lines
import QasmDiagram.Proofs.Separation

namespace QasmDiagram

namespace Rule

open Pattern Segment

/-! ### Comments by the mark that closes them -/

/-- The mark that closes a block comment. -/
def commentEnd : List Char :=
  ['*', '/']

/-- A text with the star that stands right before it, if one does. -/
def behindStar (afterStar : Bool) (t : List Char) : List Char :=
  if afterStar then '*' :: t else t

/-- The mark that closes a comment starts with a star if a slash follows it. -/
theorem commentEnd_prefix_star {t : List Char} :
    commentEnd <+: '*' :: t ↔ t.head? = some '/' := by
  cases t with
  | nil => simp [commentEnd]
  | cons d t => simp [commentEnd, List.cons_prefix_cons, eq_comm]

/-- A character that is no star does not start the mark that closes a comment. -/
theorem commentEnd_infix_cons {c : Char} {t : List Char} (h : c ≠ '*') :
    commentEnd <:+: c :: t ↔ commentEnd <:+: t := by
  have other : ¬ commentEnd <+: c :: t := fun pre => h (List.cons_prefix_cons.mp pre).1.symm
  simp [List.infix_cons_iff, other]

/-- A character is remembered, when it has been read, only if it is a star. -/
theorem commentEnd_infix_behindStar {c : Char} {t : List Char} :
    commentEnd <:+: behindStar (c == '*') t ↔ commentEnd <:+: c :: t := by
  by_cases star : c = '*'
  · simp [star, behindStar]
  · simp [star, behindStar, commentEnd_infix_cons star]

/-- A comment stays open as long as the mark that closes it has not been read. -/
theorem staysOpen_iff {afterStar : Bool} {t : List Char} :
    staysOpen afterStar t = true ↔ ¬ commentEnd <:+: behindStar afterStar t := by
  induction t generalizing afterStar with
  | nil => cases afterStar <;> decide
  | cons c t ih =>
      rw [staysOpen, Bool.and_eq_true, ih, commentEnd_infix_behindStar]
      cases afterStar with
      | false => simp [behindStar]
      | true =>
          have closing := @commentEnd_prefix_star (c :: t)
          rw [behindStar, if_pos rfl, @List.infix_cons_iff _ commentEnd '*', closing]
          simp

/-- A comment that is closed at its end and not before ends with the first mark that closes one. -/
theorem exists_of_closesAtEnd {afterStar : Bool} {t : List Char}
    (h : closesAtEnd afterStar t = true) :
    ∃ u, behindStar afterStar t = u ++ commentEnd ∧ ¬ commentEnd <:+: u ++ ['*'] := by
  induction t generalizing afterStar with
  | nil => simp [closesAtEnd] at h
  | cons c t ih =>
      rw [closesAtEnd] at h
      split at h
      case isTrue closing =>
        obtain ⟨rfl, rfl⟩ : afterStar = true ∧ c = '/' := by simpa using closing
        obtain rfl : t = [] := by simpa using h
        exact ⟨[], rfl, by decide⟩
      case isFalse inside =>
        have here : ∃ v, c :: t = v ++ commentEnd ∧ ¬ commentEnd <:+: v ++ ['*'] := by
          obtain ⟨u, hu, first⟩ := ih h
          by_cases star : c = '*'
          · exact ⟨u, by simpa [star, behindStar] using hu, first⟩
          · have ht : t = u ++ commentEnd := by simpa [star, behindStar] using hu
            refine ⟨c :: u, by rw [ht, List.cons_append], ?_⟩
            rw [List.cons_append, commentEnd_infix_cons star]
            exact first
        obtain ⟨v, hv, first⟩ := here
        cases afterStar with
        | false => exact ⟨v, hv, first⟩
        | true =>
            have notSlash : c ≠ '/' := by simpa using inside
            have behind : (v ++ ['*']).head? ≠ some '/' := by
              cases v with
              | nil => decide
              | cons d v =>
                  rw [List.cons_append, List.cons.injEq] at hv
                  simpa [← hv.1] using notSlash
            refine ⟨'*' :: v, by simp [behindStar, hv], ?_⟩
            rw [List.cons_append, List.infix_cons_iff, commentEnd_prefix_star]
            exact fun closed => closed.elim behind first

/-! ### Layout and what is never closed -/

/-- Blanks, a comment up to the end of its line, or a comment that ends with the first mark that
closes one. -/
inductive IsLayout : List Char → Prop where
  | blanks {t} : t ≠ [] → (∀ c ∈ t, c ∈ " \t\r\n".toList) → IsLayout t
  | line {t} : '\n' ∉ t → IsLayout ('/' :: '/' :: t)
  | block {t} : ¬ commentEnd <:+: t ++ ['*'] → IsLayout ('/' :: '*' :: (t ++ commentEnd))

/-- A string or a block comment that nothing closes up to the end of the text. -/
inductive Unclosed : List Char → Prop where
  | string {t} : '"' ∉ t → Unclosed ('"' :: t)
  | comment {t} : ¬ commentEnd <:+: t → Unclosed ('/' :: '*' :: t)

/-- What a rule of layout matches is layout. -/
theorem isLayout_of_matches {rule : Rule} (hrule : rule ∈ table) (hshape : rule.shape = .layout)
    {w : List Char} (h : rule.pattern.Matches w) : IsLayout w := by
  rcases table_layout rule hrule hshape with hp | hp | hp
  · obtain ⟨nonempty, blank⟩ := matches_blanks.mp (hp ▸ h)
    exact .blanks nonempty blank
  · obtain ⟨t, rfl, line⟩ := matches_lineComment.mp (hp ▸ h)
    exact .line line
  · obtain ⟨t, rfl, closed⟩ := matches_closedComment.mp (hp ▸ h)
    obtain ⟨u, ht, first⟩ := exists_of_closesAtEnd closed
    have whole : t = u ++ commentEnd := ht
    exact whole ▸ .block first

/-- The rules of what is never closed stand at the end of the table. -/
theorem table_invalid : ∀ rule ∈ table, rule.shape = .invalid →
    rule.pattern = openString ∨ rule.pattern = openComment := by
  decide

/-- A text is never closed exactly if a rule for that matches it. -/
theorem unclosed_iff {w : List Char} :
    Unclosed w ↔ openString.Matches w ∨ openComment.Matches w := by
  constructor
  · intro h
    cases h with
    | string inside => exact .inl (matches_openString.mpr ⟨_, rfl, inside⟩)
    | comment inside => exact .inr (matches_openComment.mpr ⟨_, rfl, staysOpen_iff.mpr inside⟩)
  · rintro (h | h)
    · obtain ⟨t, rfl, inside⟩ := matches_openString.mp h
      exact .string inside
    · obtain ⟨t, rfl, opened⟩ := matches_openComment.mp h
      exact .comment (staysOpen_iff.mp opened)

theorem shapeOf?_ne_none_of_unclosed {w : List Char} (h : Unclosed w) :
    shapeOf? table w ≠ none := by
  rcases unclosed_iff.mp h with string | comment
  · exact shapeOf?_ne_none_of_matches (by decide) string
  · exact shapeOf?_ne_none_of_matches (by decide) comment

theorem not_unclosed_of_isLayout {w : List Char} (h : IsLayout w) : ¬ Unclosed w := by
  intro unclosed
  cases h with
  | blanks _ blank =>
      cases unclosed with
      | string _ => exact absurd (blank '"' (by simp)) (by decide)
      | comment _ => exact absurd (blank '/' (by simp)) (by decide)
  | line _ => cases unclosed
  | @block t _ =>
      generalize hw : '/' :: '*' :: (t ++ commentEnd) = w at unclosed
      cases unclosed with
      | string _ => simp at hw
      | comment opened =>
          simp only [List.cons.injEq, true_and] at hw
          exact opened (hw ▸ (List.suffix_append t commentEnd).isInfix)

/-- No rule of layout or tokens matches a text that is never closed. -/
theorem not_matches_of_unclosed {w : List Char} (h : Unclosed w) {rule : Rule}
    (hrule : rule ∈ lexical) : ¬ rule.pattern.Matches w := by
  intro hmatch
  obtain ⟨inTable, valid⟩ := mem_lexical_iff.mp hrule
  by_cases layout : rule.shape = .layout
  · exact not_unclosed_of_isLayout (isLayout_of_matches inTable layout hmatch) h
  cases h with
  | string inside =>
      rcases table_quote rule inTable with layout' | invalid | free | string
      · exact layout layout'
      · exact valid invalid
      · obtain ⟨set, hset, hc⟩ := covers_opens hmatch
        rw [free set hset] at hc
        simp at hc
      · obtain ⟨t, ht, _⟩ := matches_closedString.mp (string ▸ hmatch)
        simp only [List.cons.injEq, true_and] at ht
        exact inside (by simp [ht])
  | comment _ =>
      rcases table_slash rule inTable with layout' | invalid | free | equals
      · exact layout layout'
      · exact valid invalid
      · obtain ⟨set, hset, hc⟩ := covers_opens hmatch
        rw [free set hset] at hc
        simp at hc
      · obtain ⟨set, hset, hc⟩ := covers_later hmatch '*' (by simp)
        rw [equals set hset] at hc
        exact absurd (CharSet.contains_of_iff.mp hc) (by decide)

/-- A text that is never closed has no other shape than that of its rule. -/
theorem shapeOf?_eq_invalid {w : List Char} {shape : Shape} (h : shapeOf? table w = some shape)
    (unclosed : Unclosed w) : shape = .invalid := by
  obtain ⟨rule, hrule, rfl, hmatch⟩ := exists_matches_of_shapeOf? h
  by_contra valid
  exact not_matches_of_unclosed unclosed (mem_lexical_iff.mpr ⟨hrule, valid⟩) hmatch

/-- One more character closes an open comment or leaves it open. -/
theorem staysOpen_or_closesAtEnd {afterStar : Bool} {t : List Char}
    (h : staysOpen afterStar t = true) (c : Char) :
    staysOpen afterStar (t ++ [c]) = true ∨ closesAtEnd afterStar (t ++ [c]) = true := by
  induction t generalizing afterStar with
  | nil =>
      by_cases closing : (afterStar && c == '/') = true
      · exact .inr (by simp [closesAtEnd, closing])
      · exact .inl (by simp [staysOpen, closing])
  | cons d t ih =>
      rw [staysOpen, Bool.and_eq_true, Bool.not_eq_true'] at h
      rw [List.cons_append, staysOpen, closesAtEnd, h.1]
      simpa using ih h.2

/-- What is never closed goes on to the end of the text. -/
theorem stands_invalid {a rest : List Char} (h : Stands a .invalid rest) :
    Unclosed a ∧ rest = [] := by
  obtain ⟨rule, hrule, hshape, hmatch⟩ := exists_matches_of_shapeOf? h.shapeOf
  have unclosed : openString.Matches a ∨ openComment.Matches a := by
    rcases table_invalid rule hrule hshape with hp | hp
    · exact .inl (hp ▸ hmatch)
    · exact .inr (hp ▸ hmatch)
  refine ⟨unclosed_iff.mpr unclosed, ?_⟩
  cases rest with
  | nil => rfl
  | cons c rest =>
      have ends : shapeOf? table (a ++ [c]) = none := h.maximal [c] (by simp) ⟨rest, rfl⟩
      rcases unclosed with string | comment
      · obtain ⟨t, rfl, inside⟩ := matches_openString.mp string
        by_cases quote : c = '"'
        · have longer : closedString.Matches ('"' :: t ++ [c]) :=
            matches_closedString.mpr ⟨t, by simp [quote], inside⟩
          exact absurd ends (shapeOf?_ne_none_of_matches (by decide) longer)
        · have longer : openString.Matches ('"' :: t ++ [c]) :=
            matches_openString.mpr ⟨t ++ [c], rfl, by simp [inside, Ne.symm quote]⟩
          exact absurd ends (shapeOf?_ne_none_of_matches (by decide) longer)
      · obtain ⟨t, rfl, opened⟩ := matches_openComment.mp comment
        rcases staysOpen_or_closesAtEnd opened c with stays | closes
        · have longer : openComment.Matches ('/' :: '*' :: t ++ [c]) :=
            matches_openComment.mpr ⟨t ++ [c], rfl, stays⟩
          exact absurd ends (shapeOf?_ne_none_of_matches (by decide) longer)
        · have longer : closedComment.Matches ('/' :: '*' :: t ++ [c]) :=
            matches_closedComment.mpr ⟨t ++ [c], rfl, closes⟩
          exact absurd ends (shapeOf?_ne_none_of_matches (by decide) longer)

/-! ### Longest matches of the patterns of layout and tokens -/

/-- No rule of layout or tokens matches a beginning of the text. -/
def Unmatched (text : List Char) : Prop :=
  ∀ u, u ≠ [] → u <+: text → ∀ rule ∈ lexical, ¬ rule.pattern.Matches u

/-- `text` is the longest beginning of `text ++ rest` that a rule of layout or tokens matches, and a
rule of its shape does. Another rule matches it only if it is a reserved word, which is spelled like
an identifier. -/
structure Munched (shape : Shape) (text rest : List Char) : Prop where
  matched : ∃ rule ∈ lexical, rule.shape = shape ∧ rule.pattern.Matches text
  preferred : ∀ rule ∈ lexical, rule.pattern.Matches text →
    rule.shape = shape ∨ (shape.reserved = true ∧ rule.shape = .token .identifier)
  longest : ∀ u, u ≠ [] → u <+: rest → ∀ rule ∈ lexical, ¬ rule.pattern.Matches (text ++ u)
  closed : ¬ Unclosed (text ++ rest)

/-- What stands as layout or as a token is munched. -/
theorem munched_of_stands {a rest : List Char} {shape : Shape} (h : Stands a shape rest)
    (valid : shape ≠ .invalid) : Munched shape a rest where
  matched := by
    obtain ⟨rule, hrule, rfl, hmatch⟩ := exists_matches_of_shapeOf? h.shapeOf
    exact ⟨rule, mem_lexical_iff.mpr ⟨hrule, valid⟩, rfl, hmatch⟩
  preferred := fun _ hrule hmatch => shape_of_matches h.shapeOf valid hrule hmatch
  longest := by
    intro u hu pre rule hrule
    exact shapeOf?_eq_none_iff.mp (h.maximal u hu pre) rule (mem_lexical_iff.mp hrule).1
  closed := by
    intro unclosed
    by_cases hrest : rest = []
    · rw [hrest, List.append_nil] at unclosed
      exact valid (shapeOf?_eq_invalid h.shapeOf unclosed)
    · exact shapeOf?_ne_none_of_unclosed unclosed (h.maximal rest hrest (List.prefix_refl rest))

/-- What a source holds where a stretch of it is invalid: one character at which no rule matches, or
the rest of the source, which is never closed. -/
inductive Spoilt (text rest : List Char) : Prop where
  | character {c} : text = [c] → Unmatched (text ++ rest) → ¬ Unclosed (text ++ rest) →
      Spoilt text rest
  | unclosed : Unclosed text → rest = [] → Spoilt text rest

/-- A character at which the table has no match is spoilt. -/
theorem spoilt_of_shapeless {c : Char} {rest : List Char}
    (h : ∀ u, u ≠ [] → u <+: c :: rest → shapeOf? table u = none) : Spoilt [c] rest := by
  refine .character rfl ?_ ?_
  · intro u hu pre rule hrule
    exact shapeOf?_eq_none_iff.mp (h u hu pre) rule (mem_lexical_iff.mp hrule).1
  · intro unclosed
    exact shapeOf?_ne_none_of_unclosed unclosed (h _ (by simp) (List.prefix_refl _))

/-- What the lexical grammar says of a text before another: it is layout or a token, as the longest
match, or it is spoilt. -/
inductive Judged : Shape → List Char → List Char → Prop where
  | layout {text rest} : Munched .layout text rest → Judged .layout text rest
  | token {kind text rest} : Munched (.token kind) text rest → Judged (.token kind) text rest
  | invalid {text rest} : Spoilt text rest → Judged .invalid text rest

theorem judged_of_stands {a rest : List Char} {shape : Shape} (h : Stands a shape rest) :
    Judged shape a rest := by
  cases shape with
  | layout => exact .layout (munched_of_stands h (by simp))
  | token kind => exact .token (munched_of_stands h (by simp))
  | invalid => exact .invalid (.unclosed (stands_invalid h).1 (stands_invalid h).2)

/-- A rule of layout or tokens matches a beginning of what is munched. -/
theorem Munched.not_unmatched {shape : Shape} {text rest : List Char}
    (h : Munched shape text rest) (nonempty : text ≠ []) : ¬ Unmatched (text ++ rest) := by
  intro unmatched
  obtain ⟨rule, hrule, _, hmatch⟩ := h.matched
  exact unmatched text nonempty (List.prefix_append text rest) rule hrule hmatch

/-- What is munched is not spoilt. -/
theorem Munched.not_spoilt {shape : Shape} {text rest text' rest' : List Char}
    (h : Munched shape text rest) (nonempty : text ≠ []) (same : text ++ rest = text' ++ rest') :
    ¬ Spoilt text' rest' := by
  intro spoilt
  cases spoilt with
  | character _ unmatched _ => exact h.not_unmatched nonempty (same ▸ unmatched)
  | unclosed unclosed atEnd =>
      rw [atEnd, List.append_nil] at same
      exact h.closed (same ▸ unclosed)

/-- The longest match of a text is not longer than another. -/
theorem Munched.prefix_of_prefix {shape shape' : Shape} {text rest text' rest' : List Char}
    (one : Munched shape text rest) (two : Munched shape' text' rest')
    (same : text ++ rest = text' ++ rest') {u : List Char} (longer : text' = text ++ u) :
    u = [] := by
  by_contra nonempty
  obtain ⟨rule, hrule, _, hmatch⟩ := two.matched
  rw [longer, List.append_assoc] at same
  have ahead : u <+: rest := ⟨rest', (List.append_cancel_left same).symm⟩
  exact one.longest u nonempty ahead rule hrule (longer ▸ hmatch)

theorem Munched.unique {shape shape' : Shape} {text rest text' rest' : List Char}
    (one : Munched shape text rest) (two : Munched shape' text' rest')
    (same : text ++ rest = text' ++ rest') : text = text' ∧ shape = shape' := by
  have texts : text = text' := by
    rcases List.append_eq_append_iff.mp same with ⟨u, longer, _⟩ | ⟨u, longer, _⟩
    · rw [longer, one.prefix_of_prefix two same longer, List.append_nil]
    · rw [longer, two.prefix_of_prefix one same.symm longer, List.append_nil]
  subst texts
  refine ⟨rfl, ?_⟩
  obtain ⟨rule, hrule, hshape, hmatch⟩ := one.matched
  obtain ⟨rule', hrule', hshape', hmatch'⟩ := two.matched
  rcases two.preferred rule hrule hmatch with equal | ⟨reserved', identifier⟩
  · rw [← hshape, equal]
  rcases one.preferred rule' hrule' hmatch' with equal | ⟨reserved, _⟩
  · rw [← hshape', equal]
  · rw [← hshape, identifier] at reserved
    simp [Shape.reserved] at reserved

/-- What is spoilt ends in one place only. -/
theorem Spoilt.unique {text rest text' rest' : List Char} (one : Spoilt text rest)
    (two : Spoilt text' rest') (same : text ++ rest = text' ++ rest') : text = text' := by
  cases one with
  | @character c single _ closed =>
      cases two with
      | @character c' single' _ _ =>
          rw [single, single'] at same
          rw [single, single', (List.cons.inj same).1]
      | unclosed unclosed atEnd =>
          rw [atEnd, List.append_nil] at same
          exact absurd (same ▸ unclosed) closed
  | unclosed unclosed atEnd =>
      rw [atEnd, List.append_nil] at same
      cases two with
      | character _ _ closed => exact absurd (same ▸ unclosed) closed
      | unclosed _ atEnd' => rw [same, atEnd', List.append_nil]

/-- The lexical grammar says one thing only of what stands at a place. -/
theorem Judged.unique {shape shape' : Shape} {text rest text' rest' : List Char}
    (one : Judged shape text rest) (two : Judged shape' text' rest') (nonempty : text ≠ [])
    (nonempty' : text' ≠ []) (same : text ++ rest = text' ++ rest') :
    text = text' ∧ shape = shape' := by
  have munched : ∀ {shape text rest}, Judged shape text rest → shape ≠ .invalid →
      Munched shape text rest := by
    intro shape text rest h valid
    cases h with
    | layout h => exact h
    | token h => exact h
    | invalid _ => exact absurd rfl valid
  have spoilt : ∀ {text rest}, Judged .invalid text rest → Spoilt text rest := by
    intro text rest h
    cases h with
    | invalid h => exact h
  by_cases invalid : shape = .invalid
  · subst invalid
    by_cases invalid' : shape' = .invalid
    · subst invalid'
      exact ⟨(spoilt one).unique (spoilt two) same, rfl⟩
    · exact absurd (spoilt one) ((munched two invalid').not_spoilt nonempty' same.symm)
  · by_cases invalid' : shape' = .invalid
    · subst invalid'
      exact absurd (spoilt two) ((munched one invalid).not_spoilt nonempty same)
    · exact (munched one invalid).unique (munched two invalid') same

/-- Segments that make up a text, each judged by the lexical grammar before the text behind it. -/
inductive Divided : List Char → List Segment → Prop where
  | nil : Divided [] []
  | cons {a rest shape segments} : a ≠ [] → Judged shape a rest → Divided rest segments →
      Divided (a ++ rest) (⟨a, shape⟩ :: segments)

/-- The division of a text by longest match, segment by segment. -/
theorem divided_ofText (text : List Char) : Divided text (Segment.ofText text) := by
  induction hn : text.length using Nat.strongRecOn generalizing text with
  | ind n ih =>
      by_cases empty : text = []
      · rw [empty, ofText_nil]
        exact .nil
      rcases ofText_cases empty with
        ⟨a, rest, shape, rfl, stands, segments⟩ | ⟨c, rest, rfl, shapeless, segments⟩
      · have shorter : rest.length < n := by
          have := List.length_pos_iff.mpr stands.nonempty
          rw [← hn, List.length_append]
          omega
        rw [segments]
        exact .cons stands.nonempty (judged_of_stands stands) (ih _ shorter rest rfl)
      · have shorter : rest.length < n := by
          rw [← hn, List.length_cons]
          omega
        have divided := ih _ shorter rest rfl
        rw [segments]
        exact .cons (by simp) (.invalid (spoilt_of_shapeless shapeless)) divided

end Rule

/-! ### Stretches of a source -/

/-- A stretch of a source with the place at which it starts. -/
structure Stretch where
  start : Nat
  text : List Char
  shape : Shape
deriving Repr, Inhabited, DecidableEq

namespace Stretch

open Rule Segment

/-- The place behind the stretch. -/
def stop (s : Stretch) : Nat :=
  s.start + s.text.length

/-- The stretch takes the character at a place. -/
def Covers (s : Stretch) (i : Nat) : Prop :=
  s.start ≤ i ∧ i < s.stop

/-- Segments at their places, the first of them at `start`. -/
def placed (start : Nat) : List Segment → List Stretch
  | [] => []
  | segment :: rest =>
      ⟨start, segment.text, segment.shape⟩ :: placed (start + segment.text.length) rest

/-- All stretches of a source, layout included. -/
def ofSource (source : List Char) : List Stretch :=
  placed 0 (Segment.ofText source)

/-- The tokens and the invalid stretches of a source, in their order. -/
def results (source : List Char) : List Stretch :=
  (ofSource source).filter (·.shape ≠ .layout)

/-- A stretch is in its place: it is not empty, the source has its text there, and the lexical
grammar says of this text, before what follows it, that it is what the stretch is. -/
structure InPlace (source : List Char) (s : Stretch) : Prop where
  nonempty : s.start < s.stop
  text : source.drop s.start = s.text ++ source.drop s.stop
  judged : Judged s.shape s.text (source.drop s.stop)

theorem inPlace_of_divided {source text : List Char} {segments : List Segment}
    (h : Divided text segments) {start : Nat} (behind : source.drop start = text) :
    ∀ s ∈ placed start segments, InPlace source s := by
  induction h generalizing start with
  | nil => simp [placed]
  | @cons a rest shape segments nonempty judged _ ih =>
      have next : source.drop (start + a.length) = rest := by
        rw [← List.drop_drop, behind, List.drop_left]
      refine List.forall_mem_cons.mpr ⟨⟨?_, ?_, ?_⟩, ih next⟩
      · have := List.length_pos_iff.mpr nonempty
        simp only [stop]
        omega
      · simpa only [stop, next] using behind
      · simpa only [stop, next] using judged

theorem start_le_of_mem_placed {start : Nat} {segments : List Segment} :
    ∀ s ∈ placed start segments, start ≤ s.start := by
  induction segments generalizing start with
  | nil => simp [placed]
  | cons segment segments ih =>
      refine List.forall_mem_cons.mpr ⟨Nat.le_refl start, ?_⟩
      intro s hs
      have := ih s hs
      omega

/-- Of two stretches the one that comes first ends before the other starts. -/
theorem pairwise_placed (start : Nat) (segments : List Segment) :
    (placed start segments).Pairwise fun s t => s.stop ≤ t.start := by
  induction segments generalizing start with
  | nil => exact .nil
  | cons segment segments ih => exact .cons start_le_of_mem_placed (ih _)

/-- Every place of a text is covered by one of its stretches. -/
theorem exists_covers_of_divided {text : List Char} {segments : List Segment}
    (h : Divided text segments) {start i : Nat} (lower : start ≤ i)
    (upper : i < start + text.length) : ∃ s ∈ placed start segments, s.Covers i := by
  induction h generalizing start with
  | nil =>
      rw [List.length_nil] at upper
      omega
  | @cons a rest shape segments _ _ _ ih =>
      rw [List.length_append] at upper
      by_cases here : i < start + a.length
      · exact ⟨⟨start, a, shape⟩, List.mem_cons_self, lower, here⟩
      · obtain ⟨s, hs, covers⟩ := @ih (start + a.length) (by omega) (by omega)
        exact ⟨s, List.mem_cons_of_mem _ hs, covers⟩

/-- One stretch ends before the other starts, in one order or the other. -/
def Apart (s t : Stretch) : Prop :=
  s.stop ≤ t.start ∨ t.stop ≤ s.start

instance : Std.Symm Apart where
  symm _ _ := Or.symm

/-- Stretches that follow each other share no place. -/
theorem eq_of_covers {stretches : List Stretch}
    (increasing : stretches.Pairwise fun s t => s.stop ≤ t.start) {i : Nat} {s t : Stretch}
    (hs : s ∈ stretches) (ht : t ∈ stretches) (inS : s.Covers i) (inT : t.Covers i) : s = t := by
  have apart : stretches.Pairwise Apart := increasing.imp .inl
  by_contra different
  obtain ⟨lower, upper⟩ := inS
  obtain ⟨lower', upper'⟩ := inT
  rcases apart.forall hs ht different with before | behind
  · omega
  · omega

/-- `found` is the division of a source by longest match: its stretches follow each other, each is
in its place and a token or invalid, and what they leave over is layout, so that every place of the
source belongs to exactly one stretch. -/
structure MaximalMunch (source : List Char) (found : List Stretch) : Prop where
  increasing : found.Pairwise fun s t => s.stop ≤ t.start
  inPlace : ∀ s ∈ found, InPlace source s
  notLayout : ∀ s ∈ found, s.shape ≠ .layout
  outside : ∃ between : List Stretch,
    (∀ s ∈ between, InPlace source s ∧ s.shape = .layout ∧ IsLayout s.text) ∧
      ∀ i < source.length, ∃! s, s ∈ found ++ between ∧ s.Covers i

theorem inPlace_of_mem {source : List Char} {s : Stretch} (hs : s ∈ ofSource source) :
    InPlace source s :=
  inPlace_of_divided (divided_ofText source) rfl s hs

theorem pairwise_ofSource (source : List Char) :
    (ofSource source).Pairwise fun s t => s.stop ≤ t.start :=
  pairwise_placed 0 (Segment.ofText source)

theorem exists_covers {source : List Char} {i : Nat} (h : i < source.length) :
    ∃ s ∈ ofSource source, s.Covers i :=
  exists_covers_of_divided (divided_ofText source) (Nat.zero_le i) (by omega)

/-- Layout in its place is made of blanks, or is a comment. -/
theorem InPlace.isLayout {source : List Char} {s : Stretch} (h : InPlace source s)
    (layout : s.shape = .layout) : IsLayout s.text := by
  have judged := h.judged
  rw [layout] at judged
  cases judged with
  | layout munched =>
      obtain ⟨rule, hrule, hshape, hmatch⟩ := munched.matched
      exact isLayout_of_matches (mem_lexical_iff.mp hrule).1 hshape hmatch

/-- The results of a source are its division by longest match. -/
theorem results_munch (source : List Char) : MaximalMunch source (results source) where
  increasing := (pairwise_ofSource source).filter _
  inPlace := fun s hs => inPlace_of_mem ((List.mem_filter.mp hs).1)
  notLayout := by simp [results]
  outside := by
    refine ⟨(ofSource source).filter (·.shape = .layout), ?_, ?_⟩
    · intro s hs
      obtain ⟨member, layout⟩ := List.mem_filter.mp hs
      have isLayout : s.shape = .layout := by simpa using layout
      exact ⟨inPlace_of_mem member, isLayout, (inPlace_of_mem member).isLayout isLayout⟩
    · intro i hi
      have either : ∀ s, s ∈ results source ++ (ofSource source).filter (·.shape = .layout) ↔
          s ∈ ofSource source := by
        intro s
        by_cases layout : s.shape = .layout <;> simp [results, layout]
      obtain ⟨s, hs, covers⟩ := exists_covers hi
      refine ⟨s, ⟨(either s).mpr hs, covers⟩, ?_⟩
      rintro t ⟨ht, covers'⟩
      exact eq_of_covers (pairwise_ofSource source) ((either t).mp ht) hs covers' covers

/-! ### There is one division only -/

/-- A stretch in its place lies within the source. -/
theorem InPlace.start_lt {source : List Char} {s : Stretch} (h : InPlace source s) :
    s.start < source.length := by
  have lengths := congrArg List.length h.text
  simp only [List.length_append, List.length_drop] at lengths
  have := h.nonempty
  simp only [stop] at lengths this
  omega

/-- Two stretches in their places that start at the same place are the same. -/
theorem InPlace.unique {source : List Char} {s t : Stretch} (hs : InPlace source s)
    (ht : InPlace source t) (start : s.start = t.start) : s = t := by
  have nonempty : ∀ {s : Stretch}, s.start < s.stop → s.text ≠ [] := by
    intro s h empty
    simp [stop, empty] at h
  have same : s.text ++ source.drop s.stop = t.text ++ source.drop t.stop := by
    rw [← hs.text, ← ht.text, start]
  obtain ⟨text, shape⟩ :=
    hs.judged.unique ht.judged (nonempty hs.nonempty) (nonempty ht.nonempty) same
  cases s
  cases t
  simp_all

/-- Of two divisions of a source into stretches in their places, the one has every stretch of the
other. The induction is on the place at which the stretch starts. -/
theorem mem_of_partition {source : List Char} {ss ts : List Stretch}
    (inPlace : ∀ s ∈ ss, InPlace source s) (once : ∀ i < source.length, ∃! s, s ∈ ss ∧ s.Covers i)
    (inPlace' : ∀ t ∈ ts, InPlace source t) (once' : ∀ i < source.length, ∃! t, t ∈ ts ∧ t.Covers i)
    {s : Stretch} (hs : s ∈ ss) : s ∈ ts := by
  induction hn : s.start using Nat.strongRecOn generalizing s with
  | ind n ih =>
      have inS : s.Covers n := ⟨hn.le, hn ▸ (inPlace s hs).nonempty⟩
      have bound : n < source.length := hn ▸ (inPlace s hs).start_lt
      obtain ⟨t, ⟨ht, inT⟩, _⟩ := once' n bound
      rcases inT.1.lt_or_eq with before | start
      · -- The stretch `r` in which `t` starts is `t` itself, so it would cover where `s` starts.
        obtain ⟨r, ⟨hr, inR⟩, _⟩ := once t.start (before.trans bound)
        have hr' : r ∈ ts := ih r.start (by have := inR.1; omega) hr rfl
        have startOfT : t.Covers t.start := ⟨Nat.le_refl _, (inPlace' t ht).nonempty⟩
        have same : r = t := (once' t.start (before.trans bound)).unique ⟨hr', inR⟩ ⟨ht, startOfT⟩
        have covers : r.Covers n := same ▸ inT
        have sameS : s = r := (once n bound).unique ⟨hs, inS⟩ ⟨hr, covers⟩
        rw [sameS, same] at hn
        omega
      · rw [(inPlace s hs).unique (inPlace' t ht) (hn.trans start.symm)]
        exact ht

/-- One stretch starts before another. -/
def Precedes (s t : Stretch) : Prop :=
  s.start < t.start

instance : Std.Irrefl Precedes where
  irrefl s := Nat.lt_irrefl s.start

instance : Std.Antisymm Precedes where
  antisymm _ _ one two := absurd one (Nat.lt_asymm two)

theorem MaximalMunch.pairwise_precedes {source : List Char} {found : List Stretch}
    (h : MaximalMunch source found) : found.Pairwise Precedes := by
  refine h.increasing.imp_of_mem ?_
  intro s t hs _ ends
  exact Nat.lt_of_lt_of_le (h.inPlace s hs).nonempty ends

/-- Two divisions of a source by longest match have the same stretches. -/
theorem MaximalMunch.mem {source : List Char} {found other : List Stretch}
    (h : MaximalMunch source found) (h' : MaximalMunch source other) {s : Stretch}
    (hs : s ∈ found) : s ∈ other := by
  obtain ⟨between, layout, once⟩ := h.outside
  obtain ⟨between', layout', once'⟩ := h'.outside
  have inPlace : ∀ s ∈ found ++ between, InPlace source s :=
    List.forall_mem_append.mpr ⟨h.inPlace, fun s hs => (layout s hs).1⟩
  have inPlace' : ∀ s ∈ other ++ between', InPlace source s :=
    List.forall_mem_append.mpr ⟨h'.inPlace, fun s hs => (layout' s hs).1⟩
  have member := mem_of_partition inPlace once inPlace' once' (List.mem_append_left between hs)
  rcases List.mem_append.mp member with inOther | inBetween
  · exact inOther
  · exact absurd (layout' s inBetween).2.1 (h.notLayout s hs)

/-- The results of a source are its division by longest match, and no other list of stretches is. -/
theorem results_eq_iff_maximalMunch {source : List Char} {found : List Stretch} :
    results source = found ↔ MaximalMunch source found := by
  constructor
  · rintro rfl
    exact results_munch source
  · intro h
    have own := results_munch source
    exact own.pairwise_precedes.eq_of_mem_iff h.pairwise_precedes fun s => ⟨own.mem h, h.mem own⟩

end Stretch

end QasmDiagram
