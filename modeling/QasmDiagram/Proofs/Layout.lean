/-
Module: QasmDiagram.Proofs.Layout
Purpose: Readers that do not look at layout. In front of the same tokens, whatever stands between
  them and whatever lines they are on, such a reader succeeds with values that look the same and
  leaves the same tokens, or fails for the same cause, found elsewhere. Where the layout between the
  tokens is the same, too, the values are the same. All ways of putting readers together keep this.
Trusted boundary: none
Main exports: Variation, Cursor.SameTokens, ParseError.Moved, ParseError.SameKind,
  Reader.LayoutFree, Reader.agree_repeatFrom, Reader.LayoutFree.andThen, Reader.LayoutFree.many,
  Reader.LayoutFree.commaSeparated
-/
import QasmDiagram.Proofs.Agreement
import QasmDiagram.Proofs.Copying

namespace QasmDiagram

open Lexeme

/-- How two sources with the same tokens may differ: in their lines, as `lines` relates them, and,
unless `sameLayout` holds, in the layout between their tokens. -/
structure Variation where
  lines : Nat → Nat → Prop
  sameLayout : Prop

/-- Two values in which the sources show no other difference: they look the same, and they are the
same if the layout is. -/
def Variation.Shows {α γ : Type} (V : Variation) (view : α → γ) (v w : α) : Prop :=
  view v = view w ∧ (V.sameLayout → v = w)

theorem Variation.shows_rfl {α γ : Type} (V : Variation) (view : α → γ) (v : α) :
    V.Shows view v v :=
  ⟨rfl, fun _ => rfl⟩

/-- What is made of such values in the same way shows no other difference, as far as it can be
seen. -/
theorem Variation.Shows.map {α β γ δ : Type} {V : Variation} {view : α → γ} {view' : β → δ}
    {v w : α} (h : V.Shows view v w) {f : α → β}
    (looks : view v = view w → view' (f v) = view' (f w)) : V.Shows view' (f v) (f w) :=
  ⟨looks h.1, fun layout => congrArg f (h.2 layout)⟩

/-! ### Cursors before the same tokens -/

namespace Cursor

/-- The same tokens are ahead, with lines and layout that vary as `V` says. -/
structure SameTokens (V : Variation) (c c' : Cursor) : Prop where
  tokens : c.ahead.map token = c'.ahead.map token
  lines : List.Forall₂ V.lines (c.ahead.map Lexeme.line) (c'.ahead.map Lexeme.line)
  endLine : V.lines c.endLine c'.endLine
  layout : V.sameLayout → Alike c.ahead c'.ahead

namespace SameTokens

variable {V : Variation} {c c' d d' : Cursor}

theorem count_eq (h : c.SameTokens V c') : c.count = c'.count := by
  rw [c.count_eq, c'.count_eq]
  simpa using congrArg List.length h.tokens

theorem skip (h : c.SameTokens V c') (n : Nat) : (c.skip n).SameTokens V (c'.skip n) where
  tokens := by
    unfold Cursor.skip
    rw [List.map_drop, List.map_drop, h.tokens]
  lines := by
    unfold Cursor.skip
    rw [List.map_drop, List.map_drop]
    exact List.forall₂_drop n h.lines
  endLine := h.endLine
  layout := fun same => (h.layout same).drop n

theorem next (h : c.SameTokens V c') : c.next.SameTokens V c'.next :=
  h.skip 1

theorem head?_eq (h : c.SameTokens V c') : c.head?.map token = c'.head?.map token := by
  rw [head?, head?, ← List.head?_map, ← List.head?_map, h.tokens]

theorem isNone_eq (h : c.SameTokens V c') : c.head?.isNone = c'.head?.isNone := by
  rw [← Option.isNone_map, h.head?_eq, Option.isNone_map]

theorem kind?_eq (h : c.SameTokens V c') : c.kind? = c'.kind? := by
  simpa [kind?, Function.comp_def, token] using congrArg (Option.map Prod.fst) h.head?_eq

theorem text_eq (h : c.SameTokens V c') : c.text = c'.text := by
  have texts : c.head?.map Lexeme.text = c'.head?.map Lexeme.text := by
    simpa [Function.comp_def, token] using congrArg (Option.map Prod.snd) h.head?_eq
  rw [text, text, texts]

theorem isAt_eq (h : c.SameTokens V c') (kind : TokenKind) : c.isAt kind = c'.isAt kind := by
  rw [isAt, isAt, h.kind?_eq]

theorem terminal?_eq (h : c.SameTokens V c') (role? : TokenKind → Option TerminalKind) :
    c.terminal? role? = c'.terminal? role? := by
  rw [terminal?, terminal?, h.kind?_eq, h.text_eq]

theorem textBetween_eq (h : c.SameTokens V c') (h' : d.SameTokens V d') (same : V.sameLayout) :
    c.textBetween d = c'.textBetween d' := by
  rw [textBetween, textBetween, h.count_eq, h'.count_eq]
  exact ((h.layout same).take _).excerpt_eq

end SameTokens

end Cursor

/-! ### Causes -/

namespace ParseError

/-- The same cause, found elsewhere. -/
inductive Moved (lines : Nat → Nat → Prop) : ParseError → ParseError → Prop where
  | invalidToken {line line'} (text) : lines line line' →
      Moved lines (.invalidToken line text) (.invalidToken line' text)
  | unexpectedToken {line line'} (expected found) : lines line line' →
      Moved lines (.unexpectedToken line expected found) (.unexpectedToken line' expected found)
  | unexpectedEnd (expected) : Moved lines (.unexpectedEnd expected) (.unexpectedEnd expected)
  | unclosed {line line'} (delimiter) : lines line line' →
      Moved lines (.unclosed delimiter line) (.unclosed delimiter line')
  | nestingTooDeep {line line'} : lines line line' →
      Moved lines (.nestingTooDeep line) (.nestingTooDeep line')

/-- Two causes of the same kind. -/
def SameKind (e e' : ParseError) : Prop :=
  e.kind = e'.kind

theorem Moved.sameKind {lines : Nat → Nat → Prop} {e e' : ParseError} (h : Moved lines e e') :
    SameKind e e' := by
  cases h <;> rfl

end ParseError

open ParseError (Moved)

namespace Cursor.SameTokens

variable {V : Variation} {c c' : Cursor}

theorem line (h : c.SameTokens V c') : V.lines c.line c'.line := by
  have lines := h.lines
  have endLine := h.endLine
  unfold Cursor.line Cursor.head?
  generalize c.ahead = ts at lines ⊢
  generalize c'.ahead = us at lines ⊢
  cases ts with
  | nil =>
      cases us with
      | nil => exact endLine
      | cons u us => simp at lines
  | cons t ts =>
      cases us with
      | nil => simp at lines
      | cons u us => exact (List.forall₂_cons.mp lines).1

/-- Where the same was expected, the same stands there and is refused. -/
theorem refuse (h : c.SameTokens V c') (expected : Expectation) :
    Moved V.lines (c.refuse expected) (c'.refuse expected) := by
  have isNone := h.isNone_eq
  have text := h.text_eq
  have line := h.line
  unfold Cursor.text at text
  unfold Cursor.line at line
  unfold Cursor.refuse
  cases hc : c.head? <;> cases hc' : c'.head? <;> simp only [hc, hc'] at isNone text line ⊢
  · exact .unexpectedEnd expected
  · simp at isNone
  · simp at isNone
  · simp only [Option.map_some, Option.getD_some] at text line
    rw [text]
    exact .unexpectedToken _ _ line

end Cursor.SameTokens

/-! ### Readers -/

namespace Reader

variable {α β γ δ : Type} {R R' : Reader α} {S : Reader β} {view : α → γ} {view' : β → δ}
  {V : Variation}

/-- What two readings have come to: states that `sim` relates, before the same tokens. -/
def Reached (V : Variation) (sim : α → α → Prop) (p q : α × Cursor) : Prop :=
  sim p.1 q.1 ∧ p.2.SameTokens V q.2

/-- Before the same tokens a reader succeeds with values that show no other difference than the
sources do, or fails for the same cause. -/
def LayoutFree (R : Reader α) (view : α → γ) : Prop :=
  ∀ ⦃V c c'⦄, c.SameTokens V c' →
    Agree (Moved V.lines) (Reached V (V.Shows view)) (R c) (R c')

/-- Readings that go on alike from one value, before the same tokens, go on alike. -/
theorem LayoutFree.bind (h : R.LayoutFree id) {c c' : Cursor} (same : c.SameTokens V c')
    {f g : α × Cursor → Except ParseError δ} {T : δ → δ → Prop}
    (goesOn : ∀ v d d', d.SameTokens V d' → Agree (Moved V.lines) T (f (v, d)) (g (v, d'))) :
    Agree (Moved V.lines) T (R c >>= f) (R c' >>= g) := by
  apply (h same).bind
  rintro ⟨v, d⟩ ⟨w, d'⟩ ⟨⟨(rfl : v = w), _⟩, behind⟩
  exact goesOn v d d' behind

theorem layoutFree_expect (kind : TokenKind) : (expect kind).LayoutFree id := by
  intro V c c' h
  unfold expect
  rw [h.isAt_eq kind]
  split
  · rw [h.text_eq]
    exact .ok ⟨V.shows_rfl id _, h.next⟩
  · exact .error (h.refuse _)

/-- Values that show no difference are answered behind the token that closes them. -/
theorem agree_closed {v w : α} (alike : V.Shows view v w) {c c' : Cursor}
    (same : c.SameTokens V c') (kind : TokenKind) :
    Agree (Moved V.lines) (Reached V (V.Shows view))
      (do let (_, d) ← expect kind c; return (v, d))
      (do let (_, d) ← expect kind c'; return (w, d)) := by
  apply (layoutFree_expect kind).bind same
  intro _ d d' behind
  exact .ok ⟨alike, behind⟩

theorem layoutFree_tooDeep : (tooDeep : Reader α).LayoutFree view :=
  fun _ _ _ same => .error (.nestingTooDeep same.line)

theorem layoutFree_pure (v : α) : LayoutFree (fun c => .ok (v, c)) view :=
  fun V _ _ h => .ok ⟨V.shows_rfl view v, h⟩

/-- Values that look the same look the same to whoever sees less. -/
theorem LayoutFree.coarsen {view' : α → δ} (h : R.LayoutFree view)
    (looks : ∀ v w, view v = view w → view' v = view' w) : R.LayoutFree view' := by
  intro V c c' same
  apply (h same).mono
  rintro ⟨v, d⟩ ⟨w, d'⟩ ⟨⟨alike, equal⟩, behind⟩
  exact ⟨⟨looks v w alike, equal⟩, behind⟩

theorem LayoutFree.map (h : R.LayoutFree view) {f : α → β}
    (looks : ∀ v w, view v = view w → view' (f v) = view' (f w)) : (R.map f).LayoutFree view' := by
  intro V c c' same
  apply (h same).bind
  rintro ⟨v, d⟩ ⟨w, d'⟩ ⟨alike, behind⟩
  exact .ok ⟨alike.map (looks v w), behind⟩

theorem LayoutFree.andThen (hR : R.LayoutFree view) (hS : S.LayoutFree view') :
    (Reader.andThen R S).LayoutFree (Prod.map view view') := by
  intro V c c' same
  apply (hR same).bind
  rintro ⟨v, d⟩ ⟨w, d'⟩ ⟨⟨first, equal⟩, behind⟩
  apply (hS behind).bind
  rintro ⟨v', e⟩ ⟨w', e'⟩ ⟨⟨second, equal'⟩, behind⟩
  refine .ok ⟨⟨Prod.ext first second, ?_⟩, behind⟩
  intro layout
  exact Prod.ext (equal layout) (equal' layout)

theorem LayoutFree.behind {f : String → Reader α} (h : ∀ text, (f text).LayoutFree view) :
    (Reader.behind f).LayoutFree view := by
  intro V c c' same
  rw [Reader.behind, Reader.behind, same.text_eq]
  exact h _ same.next

/-- Whether one reader or another is chosen must be a matter of tokens, too. -/
theorem LayoutFree.branch {more : Cursor → Bool} (hR : R.LayoutFree view) (hR' : R'.LayoutFree view)
    (onTokens : ∀ ⦃V c c'⦄, c.SameTokens V c' → more c = more c') :
    (Reader.branch more R R').LayoutFree view := by
  intro V c c' same
  rw [Reader.branch, Reader.branch, onTokens same]
  split
  · exact hR same
  · exact hR' same

/-- A repetition whose steps agree agrees: it goes on as often before the same tokens. -/
theorem agree_repeatFrom {σ : Type} {sim : σ → σ → Prop}
    {step : σ → Cursor → Except ParseError (Option (σ × Cursor))}
    (steps : ∀ ⦃s s' c c'⦄, sim s s' → c.SameTokens V c' →
      Agree (Moved V.lines) (Option.Rel (Reached V sim)) (step s c) (step s' c'))
    {s s' : σ} {c c' : Cursor} (hs : sim s s') (same : c.SameTokens V c') :
    Agree (Moved V.lines) (Reached V sim) (repeatFrom step s c) (repeatFrom step s' c') := by
  induction hn : c.count using Nat.strongRecOn generalizing s s' c c' with
  | ind k ih =>
      have first := steps hs same
      rw [repeatFrom, repeatFrom]
      generalize step s c = x at first
      generalize step s' c' = y at first
      cases first with
      | error moved => exact .error moved
      | ok reached =>
          cases reached with
          | none => exact .ok ⟨hs, same⟩
          | @some p q reached =>
              obtain ⟨hp, behind⟩ := reached
              have counts : q.2.count < c'.count ↔ p.2.count < c.count := by
                rw [behind.count_eq, same.count_eq]
              by_cases shorter : p.2.count < c.count
              · simp only [if_pos shorter, if_pos (counts.mpr shorter)]
                exact ih _ (hn ▸ shorter) hp behind rfl
              · simp only [if_neg shorter, if_neg (counts.not.mpr shorter)]
                exact .ok ⟨hp, behind⟩

/-- Lists of which the items show no difference. -/
theorem shows_cons {v w : α} {vs ws : List α} (first : V.Shows view v w)
    (others : V.Shows (List.map view) vs ws) : V.Shows (List.map view) (v :: vs) (w :: ws) := by
  refine ⟨?_, fun layout => ?_⟩
  · rw [List.map_cons, List.map_cons, first.1, others.1]
  · rw [first.2 layout, others.2 layout]

theorem shows_reverse {vs ws : List α} (alike : V.Shows (List.map view) vs ws) :
    V.Shows (List.map view) vs.reverse ws.reverse := by
  apply alike.map
  intro looks
  rw [List.map_reverse, List.map_reverse, looks]

theorem LayoutFree.repeatFrom_manyStep {more : Cursor → Bool} (h : R.LayoutFree view)
    (onTokens : ∀ ⦃V c c'⦄, c.SameTokens V c' → more c = more c') {items items' : List α}
    (alike : V.Shows (List.map view) items items') {c c' : Cursor} (same : c.SameTokens V c') :
    Agree (Moved V.lines) (Reached V (V.Shows (List.map view)))
      (repeatFrom (manyStep more R) items c) (repeatFrom (manyStep more R) items' c') := by
  refine agree_repeatFrom ?_ alike same
  intro items items' c c' alike same
  unfold manyStep
  rw [onTokens same]
  split
  · apply (h same).bind
    rintro ⟨v, d⟩ ⟨w, d'⟩ ⟨looks, behind⟩
    exact .ok (.some ⟨shows_cons looks alike, behind⟩)
  · exact .ok .none

theorem LayoutFree.many {more : Cursor → Bool} (h : R.LayoutFree view)
    (onTokens : ∀ ⦃V c c'⦄, c.SameTokens V c' → more c = more c') :
    (Reader.many more R).LayoutFree (List.map view) := by
  intro V c c' same
  apply (h.repeatFrom_manyStep onTokens (V.shows_rfl _ []) same).bind
  rintro ⟨vs, d⟩ ⟨ws, d'⟩ ⟨alike, behind⟩
  exact .ok ⟨shows_reverse alike, behind⟩

theorem LayoutFree.commaSeparated (h : R.LayoutFree view) :
    (Reader.commaSeparated R).LayoutFree (List.map view) := by
  have afterComma : (Reader.afterComma R).LayoutFree view := LayoutFree.behind fun _ => h
  intro V c c' same
  apply (h same).bind
  rintro ⟨v, d⟩ ⟨w, d'⟩ ⟨first, behind⟩
  rw [nextItem_eq]
  have start := shows_cons first (V.shows_rfl (List.map view) [])
  apply (afterComma.repeatFrom_manyStep (fun _ _ _ same => same.isAt_eq _) start behind).bind
  rintro ⟨vs, e⟩ ⟨ws, e'⟩ ⟨alike, behind⟩
  exact .ok ⟨shows_reverse alike, behind⟩

theorem LayoutFree.bracketed {m m' : Mark} (h : R.LayoutFree view) :
    (Reader.bracketed m m' R).LayoutFree (Option.map view) := by
  intro V c c' same
  unfold Reader.bracketed
  rw [same.isAt_eq]
  split
  · apply (h same.next).bind
    rintro ⟨v, d⟩ ⟨w, d'⟩ ⟨alike, behind⟩
    have shown : V.Shows (Option.map view) (some v) (some w) := alike.map (congrArg some)
    exact agree_closed shown behind _
  · exact .ok ⟨V.shows_rfl _ none, same⟩

end Reader

end QasmDiagram
