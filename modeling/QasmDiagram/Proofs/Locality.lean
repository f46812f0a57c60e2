/-
Module: QasmDiagram.Proofs.Locality
Purpose: Readers that do not look further than they read. When more lexemes are put behind those that
  such a reader has left, it reads the same and leaves these lexemes, too. All ways of putting
  readers together keep this.
Trusted boundary: none
Main exports: Reader.Local, Reader.Inside, Reader.Local.andThen, Reader.Local.many,
  Reader.Local.commaSeparated, Reader.Local.bracketed, Reader.Local.repeatFrom_manyStep
-/
import QasmDiagram.Proofs.Copying

namespace QasmDiagram

open Lexeme Cursor

namespace Reader

variable {α β : Type} {R R' : Reader α} {S : Reader β}
  {seam : List Lexeme → List Lexeme → Prop}

/-- What is read from a source is read again when lexemes are put behind those that are left, if
`seam` allows it there. -/
def Local (R : Reader α) (seam : List Lexeme → List Lexeme → Prop) : Prop :=
  ∀ ⦃ts n v d⦄, Sourced ts → R (facing ts n) = .ok (v, d) →
    ∃ rest, d = facing rest n ∧ rest <:+ ts ∧
      ∀ us m, seam rest us → ts ≠ [] ∧ R (facing (ts ++ us) m) = .ok (v, facing (rest ++ us) m)

/-- The seam behind something that is left: what is read is over before it. -/
def Inside (rest _us : List Lexeme) : Prop :=
  rest ≠ []

/-- A condition on what comes next that looks at the next lexeme only. -/
def LooksAtHead (more : Cursor → Bool) : Prop :=
  ∀ ⦃ts : List Lexeme⦄ (us : List Lexeme) (n m : Nat), ts ≠ [] →
    more (facing (ts ++ us) m) = more (facing ts n)

theorem looksAtHead_isAt (kind : TokenKind) : LooksAtHead (Cursor.isAt kind) := by
  intro ts us n m nonempty
  cases ts with
  | nil => exact absurd rfl nonempty
  | cons l ts => simp

/-! ### Single lexemes -/

theorem local_expect (kind : TokenKind) : (expect kind).Local seam := by
  intro ts n v d _ hread
  rcases expect_eq_ok_iff.mp hread with ⟨l, rest, rfl, hl, rfl, rfl⟩
  exact ⟨rest, rfl, List.suffix_cons l rest, fun us m _ => ⟨by simp, expect_facing_cons hl⟩⟩

theorem local_pure (v : α) : Local (fun c => .ok (v, c)) Inside := by
  intro ts n w d _ hread
  cases hread
  exact ⟨ts, rfl, List.suffix_refl ts, fun us m inside => ⟨inside, rfl⟩⟩

theorem local_tooDeep : (tooDeep : Reader α).Local seam := by
  intro ts n v d _ hread
  simp [tooDeep] at hread

/-! ### Readers put together -/

theorem Local.imp {seam' : List Lexeme → List Lexeme → Prop} (h : R.Local seam)
    (allows : ∀ rest us, seam' rest us → seam rest us) : R.Local seam' := by
  intro ts n v d hts hread
  obtain ⟨rest, hd, suffix, again⟩ := h hts hread
  exact ⟨rest, hd, suffix, fun us m allowed => again us m (allows rest us allowed)⟩

theorem Local.congr (h : R.Local seam) (same : ∀ c v d, R' c = .ok (v, d) ↔ R c = .ok (v, d)) :
    R'.Local seam := by
  intro ts n v d hts hread
  obtain ⟨rest, hd, suffix, again⟩ := h hts ((same _ _ _).mp hread)
  refine ⟨rest, hd, suffix, ?_⟩
  intro us m allowed
  obtain ⟨nonempty, read⟩ := again us m allowed
  exact ⟨nonempty, (same _ _ _).mpr read⟩

theorem Local.map (h : R.Local seam) {f : α → β} : (R.map f).Local seam := by
  intro ts n w d hts hmapped
  rcases map_eq_ok_iff.mp hmapped with ⟨v, rfl, hread⟩
  obtain ⟨rest, hd, suffix, again⟩ := h hts hread
  refine ⟨rest, hd, suffix, ?_⟩
  intro us m allowed
  obtain ⟨nonempty, read⟩ := again us m allowed
  exact ⟨nonempty, map_eq_ok_iff.mpr ⟨v, rfl, read⟩⟩

/-- Before the second part is read something is left, so it is enough that the first part is local
there. -/
theorem Local.andThen (hR : R.Local Inside) (hS : S.Local seam) :
    (Reader.andThen R S).Local seam := by
  intro ts n p d hts hread
  obtain ⟨v, w⟩ := p
  rcases andThen_eq_ok_iff.mp hread with ⟨c, hfirst, hsecond⟩
  obtain ⟨mid, rfl, suffix, again⟩ := hR hts hfirst
  obtain ⟨rest, hd, suffix', again'⟩ := hS (hts.of_suffix suffix) hsecond
  refine ⟨rest, hd, suffix'.trans suffix, ?_⟩
  intro us m allowed
  obtain ⟨left, second⟩ := again' us m allowed
  obtain ⟨nonempty, first⟩ := again us m left
  exact ⟨nonempty, andThen_eq_ok_iff.mpr ⟨facing (mid ++ us) m, first, second⟩⟩

theorem Local.behind {f : String → Reader α} (h : ∀ text, (f text).Local seam) :
    (Reader.behind f).Local seam := by
  intro ts n v d hts hread
  cases ts with
  | nil =>
      have next : (facing [] n).next = facing [] n := skip_facing 1
      rw [Reader.behind, next] at hread
      obtain ⟨rest, hd, suffix, again⟩ := h _ hts hread
      refine ⟨rest, hd, suffix, ?_⟩
      intro us m allowed
      exact absurd rfl (again us m allowed).1
  | cons l ts =>
      rw [Reader.behind, text_facing_cons, next_facing_cons] at hread
      obtain ⟨rest, hd, suffix, again⟩ := h l.text hts.tail hread
      refine ⟨rest, hd, suffix.trans (List.suffix_cons l ts), ?_⟩
      intro us m allowed
      refine ⟨by simp, ?_⟩
      rw [Reader.behind, List.cons_append, text_facing_cons, next_facing_cons]
      exact (again us m allowed).2

/-- A reader that goes to another one, whatever is put behind, is as local as this is. -/
theorem Local.of_eq {Q : Reader α} (h : Q.Local seam) {ts : List Lexeme} {n : Nat} {v : α}
    {d : Cursor} (hts : Sourced ts) (hread : Q (facing ts n) = .ok (v, d))
    (same : ∀ us m, ts ≠ [] → R (facing (ts ++ us) m) = Q (facing (ts ++ us) m)) :
    ∃ rest, d = facing rest n ∧ rest <:+ ts ∧
      ∀ us m, seam rest us → ts ≠ [] ∧ R (facing (ts ++ us) m) = .ok (v, facing (rest ++ us) m) := by
  obtain ⟨rest, hd, suffix, again⟩ := h hts hread
  refine ⟨rest, hd, suffix, ?_⟩
  intro us m allowed
  obtain ⟨nonempty, read⟩ := again us m allowed
  exact ⟨nonempty, (same us m nonempty).trans read⟩

theorem Local.branch {more : Cursor → Bool} (looks : LooksAtHead more) (hR : R.Local seam)
    (hR' : R'.Local seam) : (Reader.branch more R R').Local seam := by
  intro ts n v d hts hread
  unfold Reader.branch at hread
  split at hread
  case isTrue hmore =>
    apply hR.of_eq hts hread
    intro us m nonempty
    rw [Reader.branch, looks us n m nonempty, if_pos hmore]
  case isFalse hmore =>
    apply hR'.of_eq hts hread
    intro us m nonempty
    rw [Reader.branch, looks us n m nonempty, if_neg hmore]

/-! ### Repetitions -/

/-- A run that leaves something is the same run when more lexemes are put behind. -/
theorem Local.run {more : Cursor → Bool} (looks : LooksAtHead more) (h : R.Local Inside)
    {c d : Cursor} {vs : List α} (run : Run more R c vs d) :
    ∀ {ts n}, c = facing ts n → Sourced ts →
      ∃ rest, d = facing rest n ∧ rest <:+ ts ∧
        ∀ us m, rest ≠ [] → Run more R (facing (ts ++ us) m) vs (facing (rest ++ us) m) := by
  induction run with
  | stop hmore =>
      rintro ts n rfl _
      refine ⟨ts, rfl, List.suffix_refl ts, ?_⟩
      intro us m nonempty
      exact .stop ((looks us n m nonempty).trans hmore)
  | stall hmore hread stalled =>
      rintro ts n rfl hts
      obtain ⟨rest, rfl, suffix, again⟩ := h hts hread
      refine ⟨rest, rfl, suffix, ?_⟩
      intro us m left
      obtain ⟨nonempty, read⟩ := again us m left
      exact .stall ((looks us n m nonempty).trans hmore) read (by simpa using stalled)
  | next hmore hread shorter _ ih =>
      rintro ts n rfl hts
      obtain ⟨mid, rfl, suffix, again⟩ := h hts hread
      obtain ⟨rest, hd, suffix', others⟩ := ih rfl (hts.of_suffix suffix)
      refine ⟨rest, hd, suffix'.trans suffix, ?_⟩
      intro us m left
      have inside : mid ≠ [] := by
        rintro rfl
        exact left (List.suffix_nil.mp suffix')
      obtain ⟨nonempty, read⟩ := again us m inside
      exact .next ((looks us n m nonempty).trans hmore) read (by simpa using shorter)
        (others us m left)

theorem Local.many {more : Cursor → Bool} (looks : LooksAtHead more) (h : R.Local Inside) :
    (Reader.many more R).Local Inside := by
  intro ts n vs d hts hread
  obtain ⟨rest, hd, suffix, again⟩ := Local.run looks h (many_eq_ok_iff.mp hread) rfl hts
  refine ⟨rest, hd, suffix, ?_⟩
  intro us m left
  refine ⟨?_, many_eq_ok_iff.mpr (again us m left)⟩
  rintro rfl
  exact left (List.suffix_nil.mp suffix)

theorem Local.commaSeparated (h : R.Local Inside) : (Reader.commaSeparated R).Local Inside := by
  have afterComma : (Reader.afterComma R).Local Inside := Local.behind fun _ => h
  exact (h.andThen (afterComma.many (looksAtHead_isAt _))).map.congr fun _ _ _ => commaSeparated_iff

/-- A repetition that ends behind `ts` goes on with the lexemes that are put behind, from the items
it has read. -/
theorem Local.repeatFrom_manyStep {more : Cursor → Bool} (looks : LooksAtHead more)
    (h : R.Local seam) {us : List Lexeme} (allowed : ∀ rest, seam rest us) {c d : Cursor}
    {vs : List α} (run : Run more R c vs d) (stops : more d = false) :
    ∀ {ts n}, c = facing ts n → Sourced ts → ∃ rest, d = facing rest n ∧
      ∀ items m, repeatFrom (manyStep more R) items (facing (ts ++ us) m) =
        repeatFrom (manyStep more R) (vs.reverse ++ items) (facing (rest ++ us) m) := by
  induction run with
  | stop _ =>
      rintro ts n rfl _
      exact ⟨ts, rfl, fun items m => rfl⟩
  | stall hmore hread stalled =>
      -- an item that takes nothing would be read once more
      rintro ts n rfl hts
      obtain ⟨rest, rfl, suffix, _⟩ := h hts hread
      have unread : rest = ts := suffix.eq_of_length_le (by simpa using stalled)
      rw [unread, hmore] at stops
      simp at stops
  | @next _ v _ vs _ hmore hread shorter _ ih =>
      rintro ts n rfl hts
      obtain ⟨mid, rfl, suffix, again⟩ := h hts hread
      obtain ⟨rest, hd, others⟩ := ih stops rfl (hts.of_suffix suffix)
      refine ⟨rest, hd, ?_⟩
      intro items m
      obtain ⟨nonempty, read⟩ := again us m (allowed mid)
      have step : manyStep more R items (facing (ts ++ us) m) =
          .ok (some (v :: items, facing (mid ++ us) m)) := by
        rw [manyStep, looks us n m nonempty, if_pos hmore, read]
        rfl
      rw [repeatFrom_of_some step (by simpa using shorter), others]
      simp

/-! ### Parts that are closed -/

theorem Delimited.isLocal {inner : Reader α} {m : Mark} {lexemes : α → List Lexeme} {P : α → Prop}
    (h : inner.Delimited m lexemes P) : (Reader.andThen inner (expect (.mark m))).Local seam := by
  intro ts n p d hts hread
  obtain ⟨v, t⟩ := p
  rcases andThen_eq_ok_iff.mp hread with ⟨c, hinner, hclose⟩
  obtain ⟨mid, rfl, suffix, tokens, good⟩ := h.sound hts hinner
  rcases expect_eq_ok_iff.mp hclose with ⟨r, rest, rfl, hr, rfl, rfl⟩
  obtain ⟨own, rfl⟩ := suffix
  rw [List.map_append, List.append_cancel_right_eq] at tokens
  refine ⟨rest, rfl, (List.suffix_cons r rest).trans (List.suffix_append _ _), ?_⟩
  intro us k _
  refine ⟨by simp, ?_⟩
  rw [List.append_assoc, List.cons_append]
  exact andThen_eq_ok_iff.mpr ⟨facing (r :: (rest ++ us)) k, h.again good hr tokens,
    expect_facing_cons hr⟩

theorem Local.bracketed {m m' : Mark} {inner : Reader α}
    (closed : (Reader.andThen inner (expect (.mark m'))).Local Inside) :
    (Reader.bracketed m m' inner).Local Inside := by
  refine Local.congr (.branch (looksAtHead_isAt _) ?_ (local_pure none)) fun _ _ _ => bracketed_iff
  exact (Local.behind fun _ => closed).map

end Reader

end QasmDiagram
