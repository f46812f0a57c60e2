/-
Module: QasmDiagram.Proofs.Copying
Purpose: Readers whose values can be written down again: to what is read belong lexemes with the
  tokens that were read, and from these, wherever they stand, the same value is read.
Trusted boundary: none
Main exports: Lexeme.Alike, Reader.Copied, Reader.Copies, Reader.Copied.andThen,
  Reader.Copies.branch, Reader.CopiesWhen.many, Reader.copies_commaSeparated,
  Reader.copies_bracketed
-/
import Mathlib.Data.List.Forall2
import QasmDiagram.Proofs.Spelling
import QasmDiagram.Proofs.Reading

namespace QasmDiagram

namespace Lexeme

/-! ### Lexemes that agree up to their place -/

/-- Lexemes with the same tokens and the same layout between them. -/
def Alike (ls ms : List Lexeme) : Prop :=
  (relead "" ls).map face = (relead "" ms).map face

namespace Alike

variable {ls ms : List Lexeme}

theorem refl (ls : List Lexeme) : Alike ls ls := rfl

theorem trans {ks : List Lexeme} (h : Alike ks ls) (h' : Alike ls ms) : Alike ks ms :=
  Eq.trans h h'

/-- The layout before the first lexeme does not matter. -/
theorem relead (lead : String) (ls : List Lexeme) : Alike (Lexeme.relead lead ls) ls := by
  simp [Alike]

theorem of_map_face (h : ls.map face = ms.map face) : Alike ls ms :=
  map_face_relead h

theorem tokens (h : Alike ls ms) : ls.map token = ms.map token := by
  simpa using map_token_of_map_face h

theorem eq_nil (h : Alike ls []) : ls = [] := by
  simpa using h.tokens

/-- What is alike starts with the same token and goes on in the same way. -/
theorem exists_cons {m : Lexeme} (h : Alike ls (m :: ms)) :
    ∃ l us, ls = l :: us ∧ l.kind = m.kind ∧ l.text = m.text ∧ us.map face = ms.map face := by
  cases ls with
  | nil => exact absurd h.tokens (by simp)
  | cons l us =>
      simp only [Alike, relead_cons, List.map_cons, List.cons.injEq, face, Prod.mk.injEq] at h
      exact ⟨l, us, rfl, h.1.1, h.1.2.1, h.2⟩

/-- What is alike a single lexeme is one with the same token. -/
theorem exists_single {m : Lexeme} (h : Alike ls [m]) :
    ∃ l, ls = [l] ∧ l.kind = m.kind ∧ l.text = m.text := by
  obtain ⟨l, us, rfl, hkind, htext, hus⟩ := h.exists_cons
  obtain rfl : us = [] := by simpa using hus
  exact ⟨l, rfl, hkind, htext⟩

/-- What is alike a concatenation is a concatenation of what is alike its parts. -/
theorem exists_append {as bs : List Lexeme} (h : Alike ls (as ++ bs)) :
    ∃ us vs, ls = us ++ vs ∧ Alike us as ∧ Alike vs bs := by
  cases as with
  | nil => exact ⟨[], ls, rfl, refl [], h⟩
  | cons a as =>
      obtain ⟨l, us, rfl, hkind, htext, hus⟩ := h.exists_cons
      rcases List.map_eq_append_iff.mp (hus.trans List.map_append) with ⟨vs, ws, rfl, hvs, hws⟩
      refine ⟨l :: vs, ws, rfl, ?_, of_map_face hws⟩
      simp [Alike, face, hkind, htext, hvs]

/-- Excerpts show tokens and the layout between them. -/
theorem excerpt_eq (h : Alike ls ms) : excerpt ls = excerpt ms := by
  rw [← String.toList_inj, toList_excerpt, toList_excerpt, written_of_map_face h]

/-- What is alike stays so without the first lexemes. -/
theorem drop (h : Alike ls ms) (n : Nat) : Alike (ls.drop n) (ms.drop n) := by
  cases n with
  | zero => exact h
  | succ n =>
      cases ms with
      | nil =>
          rw [h.eq_nil]
          exact refl _
      | cons m ms =>
          obtain ⟨l, us, rfl, _, _, hus⟩ := h.exists_cons
          apply of_map_face
          rw [List.drop_succ_cons, List.drop_succ_cons, List.map_drop, List.map_drop, hus]

/-- The first lexemes of what is alike are alike. -/
theorem take (h : Alike ls ms) (n : Nat) : Alike (ls.take n) (ms.take n) := by
  have front : ∀ ts : List Lexeme, Lexeme.relead "" (ts.take n) = (Lexeme.relead "" ts).take n := by
    intro ts
    cases ts <;> cases n <;> rfl
  unfold Alike
  rw [front, front, List.map_take, List.map_take, h]

/-- What is alike several stretches in a row is made of stretches alike them. -/
theorem exists_flatten {owns : List (List Lexeme)} (h : Alike ls owns.flatten) :
    ∃ pieces, ls = pieces.flatten ∧ List.Forall₂ Alike pieces owns := by
  induction owns generalizing ls with
  | nil => exact ⟨[], h.eq_nil, .nil⟩
  | cons own owns ih =>
      rw [List.flatten_cons] at h
      obtain ⟨us, vs, rfl, hus, hvs⟩ := h.exists_append
      obtain ⟨pieces, rfl, alike⟩ := ih hvs
      exact ⟨us :: pieces, rfl, .cons hus alike⟩

end Alike

theorem forall₂_alike_refl (owns : List (List Lexeme)) : List.Forall₂ Alike owns owns :=
  List.forall₂_same.mpr fun own _ => Alike.refl own

theorem forall₂_alike_trans {as bs cs : List (List Lexeme)} (h : List.Forall₂ Alike as bs)
    (h' : List.Forall₂ Alike bs cs) : List.Forall₂ Alike as cs := by
  induction h generalizing cs with
  | nil => exact h'
  | cons first _ ih =>
      cases h' with
      | cons first' others' => exact .cons (first.trans first') (ih others')

/-- Stretches are alike themselves with other layout before each. -/
theorem forall₂_alike_relead (lead : String) (owns : List (List Lexeme)) :
    List.Forall₂ Alike (owns.map (relead lead)) owns := by
  rw [List.forall₂_map_left_iff]
  exact List.forall₂_same.mpr fun own _ => .relead lead own

/-- Parts that trail what stands before them do so one after the other. -/
theorem trails_flatten {α : Type} {render : α → String} {vs : List α} {owns : List (List Lexeme)}
    (h : List.Forall₂ (fun v own => Trails (render v) own) vs owns) :
    Trails (String.join (vs.map render)) owns.flatten := by
  induction h with
  | nil => exact Trails.nil
  | cons first _ ih =>
      rw [List.map_cons, String.join_cons, List.flatten_cons]
      exact first.append ih

theorem exists_of_forall₂ {α β : Type} {R : α → β → Prop} {vs : List α} {ws : List β}
    (h : List.Forall₂ R vs ws) {v : α} (hv : v ∈ vs) : ∃ w, R v w := by
  induction h with
  | nil => simp at hv
  | cons first _ ih =>
      rcases List.mem_cons.mp hv with rfl | hv
      · exact ⟨_, first⟩
      · exact ih hv

theorem tokens_flatten {pieces owns : List (List Lexeme)} (h : List.Forall₂ Alike pieces owns) :
    pieces.flatten.map token = owns.flatten.map token := by
  induction h with
  | nil => rfl
  | cons alike _ ih => simp [alike.tokens, ih]

end Lexeme

open Lexeme Cursor Rule

namespace Reader

variable {α : Type}

/-- The value `v`, read in front of `rest`, belongs to the lexemes `own`: they have the tokens that
were read, and from lexemes alike them, with the same tokens behind them, `v` is read again. -/
structure Copied (R : Reader α) (v : α) (ts own rest : List Lexeme) : Prop where
  suffix : rest <:+ ts
  tokens : ts.map token = own.map token ++ rest.map token
  again : ∀ own' rest' m, Alike own' own → rest'.map token = rest.map token →
    R (facing (own' ++ rest') m) = .ok (v, facing rest' m)

/-- Every value that is read from a source where `more` holds belongs to lexemes of which `Good`
holds. -/
def CopiesWhen (more : Cursor → Bool) (R : Reader α) (Good : α → List Lexeme → Prop) : Prop :=
  ∀ ⦃ts n v d⦄, Sourced ts → more (facing ts n) = true → R (facing ts n) = .ok (v, d) →
    ∃ own rest, d = facing rest n ∧ R.Copied v ts own rest ∧ Good v own

/-- Every value that is read from a source belongs to lexemes of which `Good` holds. -/
def Copies (R : Reader α) (Good : α → List Lexeme → Prop) : Prop :=
  ∀ ⦃ts n v d⦄, Sourced ts → R (facing ts n) = .ok (v, d) →
    ∃ own rest, d = facing rest n ∧ R.Copied v ts own rest ∧ Good v own

theorem Copies.when {R : Reader α} {Good : α → List Lexeme → Prop} (h : R.Copies Good)
    (more : Cursor → Bool) : CopiesWhen more R Good :=
  fun _ _ _ _ hts _ hread => h hts hread

theorem Copies.imp {R : Reader α} {Good Good' : α → List Lexeme → Prop} (h : R.Copies Good)
    (good : ∀ v own, Good v own → Good' v own) : R.Copies Good' := by
  intro ts n v d hts hread
  obtain ⟨own, rest, hd, copied, hgood⟩ := h hts hread
  exact ⟨own, rest, hd, copied, good v own hgood⟩

theorem CopiesWhen.always {R : Reader α} {Good : α → List Lexeme → Prop}
    (h : CopiesWhen (fun _ => true) R Good) : R.Copies Good :=
  fun _ _ _ _ hts hread => h hts rfl hread

theorem Copied.sourced {R : Reader α} {v : α} {ts own rest : List Lexeme}
    (h : R.Copied v ts own rest) (hts : Sourced ts) : Sourced rest :=
  hts.of_suffix h.suffix

theorem Copied.shorter {R : Reader α} {v : α} {ts own rest : List Lexeme}
    (h : R.Copied v ts own rest) (nonempty : own ≠ []) : rest.length < ts.length := by
  have lengths := congrArg List.length h.tokens
  simp only [List.length_append, List.length_map] at lengths
  have := List.length_pos_iff.mpr nonempty
  omega

/-! ### Conditions on what comes next -/

/-- A condition on what comes next that only looks at tokens. -/
def OnTokens (more : Cursor → Bool) : Prop :=
  ∀ ⦃ts us : List Lexeme⦄ (n m : Nat), ts.map token = us.map token →
    more (facing ts n) = more (facing us m)

/-- What comes next is a matter of tokens. -/
theorem onTokens_isAt (kind : TokenKind) : OnTokens (Cursor.isAt kind) := by
  intro ts us n m h
  cases ts with
  | nil =>
      obtain rfl : us = [] := by simpa using h.symm
      rfl
  | cons l ts =>
      obtain ⟨l', us, rfl, hkind, _⟩ := exists_cons_of_map_token h.symm
      simp [hkind]

/-! ### Readers put together -/

section Together

variable {β : Type} {R R' : Reader α} {S : Reader β} {v : α} {w : β}
  {ts own mid own' rest : List Lexeme}

/-- The layout before what was read does not matter. -/
theorem Copied.relead (h : R.Copied v ts own rest) (lead : String) :
    R.Copied v ts (Lexeme.relead lead own) rest where
  suffix := h.suffix
  tokens := by rw [map_token_relead, h.tokens]
  again := fun us rest' m alike => h.again us rest' m (alike.trans (.relead lead own))

/-- What was read belongs to its lexemes also by a reader that does the same before these tokens. -/
theorem Copied.of_eq (h : R.Copied v ts own rest)
    (same : ∀ us m, us.map token = ts.map token → R' (facing us m) = R (facing us m)) :
    R'.Copied v ts own rest where
  suffix := h.suffix
  tokens := h.tokens
  again := by
    intro us rest' m alike htokens
    rw [same _ m (by rw [List.map_append, alike.tokens, htokens, h.tokens])]
    exact h.again us rest' m alike htokens

/-- Readers that succeed alike read from the same lexemes. -/
theorem CopiesWhen.congr {more : Cursor → Bool} {Good : α → List Lexeme → Prop}
    (h : CopiesWhen more R Good) (same : ∀ c v d, R' c = .ok (v, d) ↔ R c = .ok (v, d)) :
    CopiesWhen more R' Good := by
  intro ts n v d hts hmore hread
  obtain ⟨own, rest, hd, copied, good⟩ := h hts hmore ((same _ _ _).mp hread)
  refine ⟨own, rest, hd, ⟨copied.suffix, copied.tokens, ?_⟩, good⟩
  intro us rest' m alike htokens
  exact (same _ _ _).mpr (copied.again us rest' m alike htokens)

theorem Copies.congr {Good : α → List Lexeme → Prop} (h : R.Copies Good)
    (same : ∀ c v d, R' c = .ok (v, d) ↔ R c = .ok (v, d)) : R'.Copies Good :=
  ((h.when _).congr same).always

/-- A reader that takes nothing. -/
theorem copies_pure {Good : α → List Lexeme → Prop} {v : α} (good : Good v []) :
    Copies (fun c => .ok (v, c)) Good := by
  intro ts n w d _ hread
  cases hread
  refine ⟨[], ts, rfl, ⟨List.suffix_refl ts, rfl, ?_⟩, good⟩
  intro own rest' m alike _
  rw [alike.eq_nil, List.nil_append]

/-- One reader or another, by what comes next. -/
def branch (more : Cursor → Bool) (R R' : Reader α) : Reader α := fun c =>
  if more c then R c else R' c

theorem Copies.branch {more : Cursor → Bool} {Good : α → List Lexeme → Prop}
    (onTokens : OnTokens more) (hR : CopiesWhen more R Good) (hR' : R'.Copies Good) :
    (Reader.branch more R R').Copies Good := by
  intro ts n v d hts hread
  unfold Reader.branch at hread
  by_cases hmore : more (facing ts n) = true
  · rw [if_pos hmore] at hread
    obtain ⟨own, rest, hd, copied, good⟩ := hR hts hmore hread
    refine ⟨own, rest, hd, copied.of_eq ?_, good⟩
    intro us m htokens
    rw [Reader.branch, onTokens m n htokens, if_pos hmore]
  · rw [if_neg hmore] at hread
    obtain ⟨own, rest, hd, copied, good⟩ := hR' hts hread
    refine ⟨own, rest, hd, copied.of_eq ?_, good⟩
    intro us m htokens
    rw [Reader.branch, onTokens m n htokens, if_neg hmore]

/-- The reader that answers `f v` where another answers `v`. -/
def map (f : α → β) (R : Reader α) : Reader β := fun c => do
  let (v, c) ← R c
  return (f v, c)

theorem map_eq_ok_iff {f : α → β} {c d : Cursor} :
    R.map f c = .ok (w, d) ↔ ∃ v, w = f v ∧ R c = .ok (v, d) := by
  constructor
  · intro h
    rcases Except.bind_eq_ok_iff.mp h with ⟨⟨v, c'⟩, hread, h⟩
    cases h
    exact ⟨v, rfl, hread⟩
  · rintro ⟨v, rfl, hread⟩
    simp [map, hread, pure, Except.pure]

theorem Copied.map (h : R.Copied v ts own rest) {f : α → β} :
    (R.map f).Copied (f v) ts own rest where
  suffix := h.suffix
  tokens := h.tokens
  again := fun us rest' m alike htokens =>
    map_eq_ok_iff.mpr ⟨v, rfl, h.again us rest' m alike htokens⟩

theorem CopiesWhen.map {more : Cursor → Bool} {Good : α → List Lexeme → Prop}
    {Good' : β → List Lexeme → Prop} (h : CopiesWhen more R Good) {f : α → β}
    (good : ∀ v own, Good v own → Good' (f v) own) : CopiesWhen more (R.map f) Good' := by
  intro ts n w d hts hmore hmapped
  rcases map_eq_ok_iff.mp hmapped with ⟨v, rfl, hread⟩
  obtain ⟨own, rest, hd, copied, hgood⟩ := h hts hmore hread
  exact ⟨own, rest, hd, copied.map, good v own hgood⟩

theorem Copies.map {Good : α → List Lexeme → Prop} {Good' : β → List Lexeme → Prop}
    (h : R.Copies Good) {f : α → β} (good : ∀ v own, Good v own → Good' (f v) own) :
    (R.map f).Copies Good' :=
  ((h.when _).map good).always

/-- One reader and then another. -/
def andThen (R : Reader α) (S : Reader β) : Reader (α × β) := fun c => do
  let (v, c) ← R c
  let (w, c) ← S c
  return ((v, w), c)

theorem andThen_eq_ok_iff {c d : Cursor} :
    andThen R S c = .ok ((v, w), d) ↔ ∃ c', R c = .ok (v, c') ∧ S c' = .ok (w, d) := by
  constructor
  · intro h
    rcases Except.bind_eq_ok_iff.mp h with ⟨⟨v', c'⟩, hfirst, h⟩
    rcases Except.bind_eq_ok_iff.mp h with ⟨⟨w', d'⟩, hsecond, h⟩
    cases h
    exact ⟨c', hfirst, hsecond⟩
  · rintro ⟨c', hfirst, hsecond⟩
    simp [andThen, hfirst, hsecond, pure, Except.pure]

/-- What is read in two steps belongs to the lexemes of the first and those of the second. -/
theorem Copied.andThen (h : R.Copied v ts own mid) (h' : S.Copied w mid own' rest) :
    (Reader.andThen R S).Copied (v, w) ts (own ++ own') rest where
  suffix := h'.suffix.trans h.suffix
  tokens := by rw [h.tokens, h'.tokens, List.map_append, List.append_assoc]
  again := by
    intro us rest' m alike htokens
    obtain ⟨us, vs, rfl, hus, hvs⟩ := alike.exists_append
    have behind : (vs ++ rest').map token = mid.map token := by
      rw [List.map_append, htokens, hvs.tokens, h'.tokens]
    rw [List.append_assoc]
    exact andThen_eq_ok_iff.mpr ⟨facing (vs ++ rest') m, h.again us _ m hus behind,
      h'.again vs rest' m hvs htokens⟩

theorem Copies.andThen {Good : α → List Lexeme → Prop} {Good' : β → List Lexeme → Prop}
    (hR : R.Copies Good) (hS : S.Copies Good') {ts : List Lexeme} {n : Nat} {p : α × β}
    {d : Cursor} (hts : Sourced ts) (hread : Reader.andThen R S (facing ts n) = .ok (p, d)) :
    ∃ own mid own' rest, d = facing rest n ∧ R.Copied p.1 ts own mid ∧ Good p.1 own ∧
      S.Copied p.2 mid own' rest ∧ Good' p.2 own' := by
  obtain ⟨v, w⟩ := p
  rcases andThen_eq_ok_iff.mp hread with ⟨c, hfirst, hsecond⟩
  obtain ⟨own, mid, rfl, copied, good⟩ := hR hts hfirst
  obtain ⟨own', rest, hd, copied', good'⟩ := hS (copied.sourced hts) hsecond
  exact ⟨own, mid, own', rest, hd, copied, good, copied', good'⟩

variable {a : α → String} {b : β → String} {P : α → Prop} {Q : β → Prop}

/-- A printed part and what trails it. -/
theorem Copies.prints_trails (hR : R.Copies fun v own => Prints (a v) own ∧ P v)
    (hS : S.Copies fun w own => Trails (b w) own ∧ Q w) :
    (Reader.andThen R S).Copies fun p own => Prints (a p.1 ++ b p.2) own ∧ P p.1 ∧ Q p.2 := by
  intro ts n p d hts hread
  obtain ⟨own, mid, own', rest, hd, copied, ⟨printed, good⟩, copied', trails, good'⟩ :=
    hR.andThen hS hts hread
  exact ⟨own ++ own', rest, hd, copied.andThen copied', printed.append_trails trails, good, good'⟩

/-- A part that trails what stands before it and what trails the part. -/
theorem Copies.trails_trails (hR : R.Copies fun v own => Trails (a v) own ∧ P v)
    (hS : S.Copies fun w own => Trails (b w) own ∧ Q w) :
    (Reader.andThen R S).Copies fun p own => Trails (a p.1 ++ b p.2) own ∧ P p.1 ∧ Q p.2 := by
  intro ts n p d hts hread
  obtain ⟨own, mid, own', rest, hd, copied, ⟨trails, good⟩, copied', trails', good'⟩ :=
    hR.andThen hS hts hread
  exact ⟨own ++ own', rest, hd, copied.andThen copied', trails.append trails', good, good'⟩

/-- Two printed parts with a blank between them. -/
theorem Copies.prints_blank_prints (hR : R.Copies fun v own => Prints (a v) own ∧ P v)
    (hS : S.Copies fun w own => Prints (b w) own ∧ Q w) :
    (Reader.andThen R S).Copies fun p own =>
      Prints (a p.1 ++ " " ++ b p.2) own ∧ P p.1 ∧ Q p.2 := by
  intro ts n p d hts hread
  obtain ⟨own, mid, own', rest, hd, copied, ⟨printed, good⟩, copied', printed', good'⟩ :=
    hR.andThen hS hts hread
  exact ⟨own ++ Lexeme.relead " " own', rest, hd, copied.andThen (copied'.relead " "),
    printed.append_blank printed', good, good'⟩

end Together

/-! ### Single lexemes -/

/-- A lexeme that is expected belongs to itself. -/
theorem copied_expect {kind : TokenKind} {l l' : Lexeme} {us : List Lexeme} (hl : l.kind = kind)
    (same : l'.token = l.token) : (expect kind).Copied l.text (l :: us) [l'] us where
  suffix := List.suffix_cons l us
  tokens := by rw [List.map_cons, List.map_singleton, same, List.singleton_append]
  again := by
    intro own rest' m alike _
    obtain ⟨k, rfl, hkind, htext⟩ := alike.exists_single
    have text : k.text = l.text := htext.trans (congrArg Prod.snd same)
    have kindOf : k.kind = kind := (hkind.trans (congrArg Prod.fst same)).trans hl
    rw [← text]
    exact expect_facing_cons kindOf

theorem copies_expect (kind : TokenKind) : (expect kind).Copies fun text own =>
    Prints text own ∧ shapeOf? table text.toList = some (.token kind) := by
  intro ts n text d hts h
  rcases expect_eq_ok_iff.mp h with ⟨l, us, rfl, hl, rfl, rfl⟩
  exact ⟨[l], us, rfl, copied_expect hl rfl, Prints.single hts.shapeOf, hl ▸ hts.shapeOf⟩

theorem copies_semicolon :
    (expect (.mark .semicolon)).Copies fun _ own => Trails ";" own ∧ True := by
  intro ts n text d hts h
  rcases expect_eq_ok_iff.mp h with ⟨l, us, rfl, hl, rfl, rfl⟩
  exact ⟨[ofMark .semicolon], us, rfl, copied_expect hl (token_of_mark hts hl).symm,
    Trails.semicolon, trivial⟩

/-- A reader that starts behind the next lexeme and is given its text. -/
def behind (f : String → Reader α) : Reader α := fun c =>
  f c.text c.next

theorem Copied.behind {f : String → Reader α} {v : α} {l l' : Lexeme} {us own rest : List Lexeme}
    (h : (f l.text).Copied v us own rest) (same : l'.token = l.token) :
    (Reader.behind f).Copied v (l :: us) (l' :: own) rest where
  suffix := h.suffix.trans (List.suffix_cons l us)
  tokens := by rw [List.map_cons, List.map_cons, same, h.tokens, List.cons_append]
  again := by
    intro own' rest' m alike htokens
    obtain ⟨k, vs, rfl, _, htext, hvs⟩ := alike.exists_cons
    have text : k.text = l.text := htext.trans (congrArg Prod.snd same)
    rw [List.cons_append, Reader.behind, text_facing_cons, next_facing_cons, text]
    exact h.again vs rest' m (Alike.of_map_face hvs) htokens

/-- A lexeme and what is read behind it, with a blank between them. -/
theorem CopiesWhen.behind {kind : TokenKind} {f : String → Reader α}
    {Good : String → α → List Lexeme → Prop} (h : ∀ text, (f text).Copies (Good text)) :
    CopiesWhen (Cursor.isAt kind) (Reader.behind f) fun v own =>
      ∃ (l : Lexeme) (own' : List Lexeme), l.kind = kind ∧
        shapeOf? table l.text.toList = some (.token l.kind) ∧ Good l.text v own' ∧
        own = l :: relead " " own' := by
  intro ts n v d hts hmore hread
  rcases isAt_facing_iff.mp hmore with ⟨l, us, rfl, hl⟩
  rw [Reader.behind, text_facing_cons, next_facing_cons] at hread
  obtain ⟨own, rest, hd, copied, good⟩ := h l.text hts.tail hread
  exact ⟨l :: relead " " own, rest, hd, (copied.relead " ").behind rfl, l, own, hl, hts.shapeOf, good,
    rfl⟩

/-! ### Repetition -/

/-- The items of a run belong to lexemes in a row, which may be set apart by any layout. -/
theorem CopiesWhen.run {more : Cursor → Bool} {item : Reader α} {Good : α → List Lexeme → Prop}
    (hitem : CopiesWhen more item Good) (nonempty : ∀ v own, Good v own → own ≠ [])
    (onTokens : OnTokens more) {c d : Cursor} {vs : List α} (run : Run more item c vs d) :
    ∀ {ts n}, c = facing ts n → Sourced ts →
      ∃ owns rest, d = facing rest n ∧ rest <:+ ts ∧
        ts.map token = owns.flatten.map token ++ rest.map token ∧ List.Forall₂ Good vs owns ∧
        ∀ pieces rest' m, List.Forall₂ Alike pieces owns → rest'.map token = rest.map token →
          Run more item (facing (pieces.flatten ++ rest') m) vs (facing rest' m) := by
  induction run with
  | stop hmore =>
      rintro ts n rfl _
      refine ⟨[], ts, rfl, List.suffix_refl ts, rfl, .nil, ?_⟩
      intro pieces rest' m alike htokens
      cases alike
      exact .stop (by rw [← hmore]; exact onTokens m n htokens)
  | stall hmore hread stalled =>
      rintro ts n rfl hts
      obtain ⟨own, rest, rfl, copied, good⟩ := hitem hts hmore hread
      exact absurd (copied.shorter (nonempty _ _ good)) stalled
  | next hmore hread _ _ ih =>
      rintro ts n rfl hts
      obtain ⟨own, mid, rfl, copied, good⟩ := hitem hts hmore hread
      obtain ⟨owns, rest, rfl, suffix, tokens, goods, again⟩ := ih rfl (copied.sourced hts)
      refine ⟨own :: owns, rest, rfl, suffix.trans copied.suffix, ?_, .cons good goods, ?_⟩
      · rw [copied.tokens, tokens]
        simp
      · intro pieces rest' m alike htokens
        cases alike with
        | @cons piece _ pieces _ hpiece hpieces =>
            have flat : (pieces.flatten ++ rest').map token = mid.map token := by
              rw [List.map_append, htokens, tokens]
              congr 1
              exact tokens_flatten hpieces
            have front : (piece ++ (pieces.flatten ++ rest')).map token = ts.map token := by
              rw [List.map_append, flat, hpiece.tokens, copied.tokens]
            have shorter : (pieces.flatten ++ rest').length
                < (piece ++ (pieces.flatten ++ rest')).length := by
              have := List.length_pos_iff.mpr (nonempty _ _ good)
              have := congrArg List.length hpiece.tokens
              simp only [List.length_map, List.length_append] at *
              omega
            rw [List.flatten_cons, List.append_assoc]
            refine .next ?_ (copied.again piece _ m hpiece flat) shorter (again pieces rest' m hpieces
              htokens)
            rw [← hmore]
            exact onTokens m n front

/-- A run of items that take lexemes goes on as long as there may be more. -/
theorem CopiesWhen.run_stops {more : Cursor → Bool} {item : Reader α}
    {Good : α → List Lexeme → Prop} (hitem : CopiesWhen more item Good)
    (nonempty : ∀ v own, Good v own → own ≠ []) {c d : Cursor} {vs : List α}
    (run : Run more item c vs d) :
    ∀ {ts n}, c = facing ts n → Sourced ts → more d = false := by
  induction run with
  | stop hmore =>
      intro ts n _ _
      exact hmore
  | stall hmore hread stalled =>
      rintro ts n rfl hts
      obtain ⟨own, rest, rfl, copied, good⟩ := hitem hts hmore hread
      exact absurd (copied.shorter (nonempty _ _ good)) stalled
  | next hmore hread _ _ ih =>
      rintro ts n rfl hts
      obtain ⟨own, mid, rfl, copied, good⟩ := hitem hts hmore hread
      exact ih rfl (copied.sourced hts)

/-- The items that are read one after the other. -/
def many (more : Cursor → Bool) (item : Reader α) : Reader (List α) := fun c => do
  let (vs, c) ← repeatFrom (manyStep more item) [] c
  return (vs.reverse, c)

theorem many_eq_ok_iff {more : Cursor → Bool} {item : Reader α} {vs : List α} {c d : Cursor} :
    many more item c = .ok (vs, d) ↔ Run more item c vs d := by
  unfold many
  rw [Except.bind_eq_ok_iff]
  constructor
  · rintro ⟨⟨items, c'⟩, hread, h⟩
    cases h
    rcases repeatFrom_manyStep_iff.mp hread with ⟨vs, rfl, run⟩
    simpa using run
  · intro run
    exact ⟨(vs.reverse, d), repeatFrom_manyStep_iff.mpr ⟨vs, by simp, run⟩,
      by simp [pure, Except.pure]⟩

/-- Items that are read one after the other belong to their lexemes in a row, with any layout before
each. -/
theorem CopiesWhen.many {more : Cursor → Bool} {item : Reader α} {Good : α → List Lexeme → Prop}
    (hitem : CopiesWhen more item Good) (nonempty : ∀ v own, Good v own → own ≠ [])
    (onTokens : OnTokens more) {ts : List Lexeme} {n : Nat} {vs : List α} {d : Cursor}
    (hts : Sourced ts) (hread : Reader.many more item (facing ts n) = .ok (vs, d)) :
    ∃ owns rest, d = facing rest n ∧ List.Forall₂ Good vs owns ∧
      ∀ owns', List.Forall₂ Alike owns' owns →
        (Reader.many more item).Copied vs ts owns'.flatten rest := by
  obtain ⟨owns, rest, hd, suffix, tokens, goods, again⟩ :=
    hitem.run nonempty onTokens (many_eq_ok_iff.mp hread) rfl hts
  refine ⟨owns, rest, hd, goods, ?_⟩
  intro owns' halike
  refine ⟨suffix, by rw [tokens, tokens_flatten halike], ?_⟩
  intro own rest' m alike htokens
  obtain ⟨pieces, rfl, hpieces⟩ := alike.exists_flatten
  exact many_eq_ok_iff.mpr (again pieces rest' m (forall₂_alike_trans hpieces halike) htokens)

/-- Items of which each trails the one before it. -/
theorem CopiesWhen.many_trails {more : Cursor → Bool} {item : Reader α} {render : α → String}
    {P : α → Prop}
    (hitem : CopiesWhen more item fun v own => own ≠ [] ∧ Trails (render v) own ∧ P v)
    (onTokens : OnTokens more) :
    (Reader.many more item).Copies fun vs own =>
      Trails (String.join (vs.map render)) own ∧ ∀ v ∈ vs, P v := by
  intro ts n vs d hts hread
  obtain ⟨owns, rest, hd, goods, copied⟩ :=
    hitem.many (fun _ _ good => good.1) onTokens hts hread
  refine ⟨owns.flatten, rest, hd, copied owns (forall₂_alike_refl owns), ?_, ?_⟩
  · exact trails_flatten (goods.imp fun _ _ good => good.2.1)
  · intro v hv
    obtain ⟨_, good⟩ := exists_of_forall₂ goods hv
    exact good.2.2

/-! ### Lists with commas -/

/-- A comma and the item behind it belong to a comma and the lexemes of the item. -/
theorem Copies.afterComma {item : Reader α} {render : α → String} {P : α → Prop}
    (hitem : item.Copies fun v own => Prints (render v) own ∧ P v) :
    CopiesWhen atComma (Reader.afterComma item) fun v own =>
      own ≠ [] ∧ Trails (", " ++ render v) own ∧ P v := by
  intro ts n v d hts hmore h
  rcases isAt_facing_iff.mp hmore with ⟨l, us, rfl, hl⟩
  rw [Reader.afterComma, next_facing_cons] at h
  obtain ⟨own, rest, hd, copied, printed, good⟩ := hitem hts.tail h
  have comma : (ofMark .comma).token = l.token := (token_of_mark hts hl).symm
  refine ⟨ofMark .comma :: relead " " own, rest, hd, ?_, by simp, ?_, good⟩
  · exact (copied.relead " ").behind (f := fun _ => item) comma
  · have joined := Trails.comma.append printed.trails_blank
    rwa [← String.append_assoc] at joined

theorem intercalate_eq_join (first : String) (others : List String) :
    ", ".intercalate (first :: others) = first ++ String.join (others.map (", " ++ ·)) := by
  induction others generalizing first with
  | nil => simp
  | cons second others ih =>
      rw [String.intercalate_cons_cons, ih]
      simp [String.append_assoc]

/-- A list with commas is a first item and those behind it. -/
theorem commaSeparated_iff {item : Reader α} {c : Cursor} {vs : List α} {d : Cursor} :
    commaSeparated item c = .ok (vs, d) ↔
      Reader.map (fun p => p.1 :: p.2) (andThen item (many atComma (Reader.afterComma item))) c =
        .ok (vs, d) := by
  rw [commaSeparated_eq_ok_iff, map_eq_ok_iff]
  constructor
  · rintro ⟨v, c', others, rfl, hfirst, run⟩
    exact ⟨(v, others), rfl, andThen_eq_ok_iff.mpr ⟨c', hfirst, many_eq_ok_iff.mpr run⟩⟩
  · rintro ⟨⟨v, others⟩, rfl, hread⟩
    rcases andThen_eq_ok_iff.mp hread with ⟨c', hfirst, hmany⟩
    exact ⟨v, c', others, rfl, hfirst, many_eq_ok_iff.mp hmany⟩

/-- A list with commas belongs to the lexemes of its items and the commas between them. -/
theorem copies_commaSeparated {item : Reader α} {render : α → String} {P : α → Prop}
    (hitem : item.Copies fun v own => Prints (render v) own ∧ P v) :
    (commaSeparated item).Copies fun vs own =>
      vs ≠ [] ∧ Prints (", ".intercalate (vs.map render)) own ∧ ∀ v ∈ vs, P v := by
  have parts := hitem.prints_trails (hitem.afterComma.many_trails (onTokens_isAt _))
  refine (parts.map ?_).congr fun _ _ _ => commaSeparated_iff
  rintro ⟨v, others⟩ own ⟨printed, good, goods⟩
  refine ⟨by simp, ?_, ?_⟩
  · rw [List.map_cons, intercalate_eq_join, List.map_map]
    exact printed
  · intro w hw
    rcases List.mem_cons.mp hw with rfl | hw
    · exact good
    · exact goods w hw

/-! ### Parts that are closed -/

/-- A reader whose values stand before a mark that closes them: a value tells the tokens that were
read, and from these it is read again wherever the mark follows. -/
structure Delimited (inner : Reader α) (m : Mark) (lexemes : α → List Lexeme) (P : α → Prop) :
    Prop where
  sound : ∀ ⦃ts n v d⦄, Sourced ts → inner (facing ts n) = .ok (v, d) →
    ∃ rest, d = facing rest n ∧ rest <:+ ts ∧
      ts.map token = (lexemes v).map token ++ rest.map token ∧ P v
  again : ∀ ⦃v us r rest n⦄, P v → r.kind = .mark m → us.map token = (lexemes v).map token →
    inner (facing (us ++ r :: rest) n) = .ok (v, facing (r :: rest) n)

/-- A value and the mark that closes it belong to the lexemes of the value and the mark. -/
theorem Delimited.copies {inner : Reader α} {m : Mark} {lexemes : α → List Lexeme} {P : α → Prop}
    (h : inner.Delimited m lexemes P) :
    (Reader.andThen inner (expect (.mark m))).Copies fun p own =>
      own = lexemes p.1 ++ [ofMark m] ∧ P p.1 := by
  intro ts n p d hts hread
  obtain ⟨v, t⟩ := p
  rcases andThen_eq_ok_iff.mp hread with ⟨c, hinner, hclose⟩
  obtain ⟨mid, rfl, suffix, tokens, good⟩ := h.sound hts hinner
  rcases expect_eq_ok_iff.mp hclose with ⟨r, rest, rfl, hr, rfl, rfl⟩
  have closing := token_of_mark (hts.of_suffix suffix) hr
  refine ⟨lexemes v ++ [ofMark m], rest, rfl,
    ⟨(List.suffix_cons r rest).trans suffix, ?_, ?_⟩, rfl, good⟩
  · rw [tokens, List.map_cons, closing, List.map_append, List.map_singleton, token_ofMark,
      List.append_assoc, List.singleton_append]
  · intro own' rest' k alike _
    obtain ⟨us, ws, rfl, hus, hws⟩ := alike.exists_append
    obtain ⟨r', rfl, hr', htext⟩ := hws.exists_single
    have text : r'.text = r.text := htext.trans (congrArg Prod.snd closing).symm
    rw [List.append_assoc, List.singleton_append, ← text]
    exact andThen_eq_ok_iff.mpr ⟨facing (r' :: rest') k, h.again good hr' hus.tokens,
      expect_facing_cons hr'⟩

/-- A part in brackets, if a bracket opens here. -/
def bracketed (m m' : Mark) (inner : Reader α) : Reader (Option α) := fun c =>
  if c.isAt (.mark m) then do
    let (value, c) ← inner c.next
    let (_, c) ← Reader.expect (.mark m') c
    return (some value, c)
  else return (none, c)

theorem bracketed_iff {m m' : Mark} {inner : Reader α} {c d : Cursor} {value : Option α} :
    bracketed m m' inner c = .ok (value, d) ↔
      branch (Cursor.isAt (.mark m))
        (Reader.map (some ·.1) (Reader.behind fun _ => andThen inner (expect (.mark m'))))
        (fun c => .ok (none, c)) c = .ok (value, d) := by
  unfold bracketed branch
  split
  · rw [map_eq_ok_iff]
    constructor
    · intro h
      rcases Except.bind_eq_ok_iff.mp h with ⟨⟨v, c'⟩, hv, h⟩
      rcases Except.bind_eq_ok_iff.mp h with ⟨⟨t, d'⟩, hclose, h⟩
      cases h
      exact ⟨(v, t), rfl, andThen_eq_ok_iff.mpr ⟨c', hv, hclose⟩⟩
    · rintro ⟨⟨v, t⟩, rfl, hread⟩
      rcases andThen_eq_ok_iff.mp hread with ⟨c', hv, hclose⟩
      simp [hv, hclose, pure, Except.pure]
  · rfl

/-- A part in brackets belongs to the brackets and the lexemes of the part. -/
theorem copies_bracketed {m m' : Mark} {inner : Reader α} (lexemes : α → List Lexeme)
    (render : α → String) (P : α → Prop) (hm : m ∈ breakMarks) (hm' : m' ∈ breakMarks)
    (closed : (andThen inner (expect (.mark m'))).Copies fun p own =>
      own = lexemes p.1 ++ [ofMark m'] ∧ P p.1)
    (spells : ∀ ⦃v⦄, P v → Spells (render v) (lexemes v)) :
    (bracketed m m' inner).Copies fun value own =>
      Trails (value.elim "" fun v => m.text ++ render v ++ m'.text) own ∧ ∀ v ∈ value, P v := by
  refine Copies.congr (Copies.branch (onTokens_isAt _) ?_ ?_) fun _ _ _ => bracketed_iff
  · intro ts n value d hts hmore hmapped
    rcases isAt_facing_iff.mp hmore with ⟨l, us, rfl, hl⟩
    rcases map_eq_ok_iff.mp hmapped with ⟨p, rfl, hread⟩
    rw [Reader.behind, next_facing_cons] at hread
    obtain ⟨own, rest, hd, copied, rfl, good⟩ := closed hts.tail hread
    have opening : (ofMark m).token = l.token := (token_of_mark hts hl).symm
    refine ⟨ofMark m :: (lexemes p.1 ++ [ofMark m']), rest, hd, ?_, (spells good).between hm hm', ?_⟩
    · exact (copied.behind (f := fun _ => andThen inner (expect (.mark m'))) opening).map
    · rintro _ ⟨⟩
      exact good
  · exact copies_pure ⟨Trails.nil, by simp⟩

end Reader

end QasmDiagram
