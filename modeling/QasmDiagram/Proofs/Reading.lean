/-
Module: QasmDiagram.Proofs.Reading
Purpose: Readers on lists of lexemes: what the basic readers accept and leave, and repetitions as
  runs of their items.
Trusted boundary: none
Main exports: Cursor.facing, Reader.expect_eq_ok_iff, Reader.Run, Reader.repeatFrom_manyStep_iff,
  Reader.commaSeparated_eq_ok_iff
-/
import Mathlib.Tactic.Common
import QasmDiagram.Cursor

namespace QasmDiagram

namespace Cursor

/-- The cursor in front of lexemes. -/
def facing (ts : List Lexeme) (endLine : Nat) : Cursor :=
  let count := ts.length
  ⟨ts, endLine, count, rfl⟩

/-- A cursor is determined by the lexemes ahead and the last line. -/
theorem eq_facing (c : Cursor) : c = facing c.ahead c.endLine := by
  obtain ⟨ahead, endLine, count, rfl⟩ := c
  rfl

variable {l : Lexeme} {ts us : List Lexeme} {n m : Nat}

@[simp] theorem ahead_facing : (facing ts n).ahead = ts := rfl

@[simp] theorem endLine_facing : (facing ts n).endLine = n := rfl

@[simp] theorem count_facing : (facing ts n).count = ts.length := rfl

@[simp] theorem facing_inj : facing ts n = facing us m ↔ ts = us ∧ n = m := by
  constructor
  · intro h
    exact ⟨congrArg ahead h, congrArg endLine h⟩
  · rintro ⟨rfl, rfl⟩
    rfl

@[simp] theorem head?_facing_nil : (facing [] n).head? = none := rfl

@[simp] theorem head?_facing_cons : (facing (l :: ts) n).head? = some l := rfl

@[simp] theorem kind?_facing_nil : (facing [] n).kind? = none := rfl

@[simp] theorem kind?_facing_cons : (facing (l :: ts) n).kind? = some l.kind := rfl

@[simp] theorem text_facing_cons : (facing (l :: ts) n).text = l.text := rfl

@[simp] theorem line_facing_cons : (facing (l :: ts) n).line = l.line := rfl

@[simp] theorem isAt_facing_nil (kind : TokenKind) : (facing [] n).isAt kind = false := rfl

@[simp] theorem isAt_facing_cons (kind : TokenKind) :
    (facing (l :: ts) n).isAt kind = decide (l.kind = kind) := by
  rw [Bool.eq_iff_iff]
  simp [isAt]

@[simp] theorem skip_facing (k : Nat) : (facing ts n).skip k = facing (ts.drop k) n := by
  rw [eq_facing ((facing ts n).skip k)]
  rfl

@[simp] theorem next_facing_cons : (facing (l :: ts) n).next = facing ts n := by
  simp [next]

/-- The text between two cursors is the excerpt of the lexemes between them. -/
@[simp] theorem textBetween_facing :
    (facing (us ++ ts) n).textBetween (facing ts n) = Lexeme.excerpt us := by
  simp [textBetween]

/-- Where the class of the head is asked for, there is a head. -/
theorem isAt_facing_iff {kind : TokenKind} :
    (facing ts n).isAt kind = true ↔ ∃ l rest, ts = l :: rest ∧ l.kind = kind := by
  cases ts with
  | nil => simp
  | cons l ts => simp

end Cursor

open Cursor

/-- A step that succeeds hands its value to the rest of the computation. -/
theorem Except.bind_eq_ok_iff {ε α β : Type} {x : Except ε α} {f : α → Except ε β} {b : β} :
    (x >>= f) = .ok b ↔ ∃ a, x = .ok a ∧ f a = .ok b := by
  cases x with
  | error e => simp [bind, Except.bind]
  | ok a => simp [bind, Except.bind]

@[simp] theorem Except.ok_bind {ε α β : Type} (a : α) (f : α → Except ε β) :
    ((Except.ok a : Except ε α) >>= f) = f a := rfl

@[simp] theorem Except.error_bind {ε α β : Type} (e : ε) (f : α → Except ε β) :
    ((Except.error e : Except ε α) >>= f) = .error e := rfl

namespace Reader

variable {α : Type} {ts : List Lexeme} {n : Nat} {d : Cursor}

@[simp] theorem expect_facing_cons_self (l : Lexeme) (ts : List Lexeme) (n : Nat) :
    Reader.expect l.kind (facing (l :: ts) n) = .ok (l.text, facing ts n) := by
  simp [expect]

/-- A lexeme of the right class is read. -/
theorem expect_facing_cons {kind : TokenKind} {l : Lexeme} (h : l.kind = kind) :
    Reader.expect kind (facing (l :: ts) n) = .ok (l.text, facing ts n) := by
  subst h
  simp

/-- What is expected stands in front and is read. -/
theorem expect_eq_ok_iff {kind : TokenKind} {v : String} :
    Reader.expect kind (facing ts n) = .ok (v, d) ↔
      ∃ l rest, ts = l :: rest ∧ l.kind = kind ∧ v = l.text ∧ d = facing rest n := by
  cases ts with
  | nil => simp [expect]
  | cons l ts =>
      by_cases h : l.kind = kind
      · simp [expect, h, eq_comm]
      · simp [expect, h]

section Repetition

variable {σ : Type} {step : σ → Cursor → Except ParseError (Option (σ × Cursor))}
  {state state' : σ} {c c' : Cursor}

/-- A repetition ends where its step declines. -/
theorem repeatFrom_of_none (h : step state c = .ok none) :
    repeatFrom step state c = .ok (state, c) := by
  rw [repeatFrom, h]

/-- A repetition goes on where its step has moved forward. -/
theorem repeatFrom_of_some (h : step state c = .ok (some (state', c')))
    (shorter : c'.count < c.count) : repeatFrom step state c = repeatFrom step state' c' := by
  rw [repeatFrom, h]
  exact if_pos shorter

/-- A repetition fails where its step fails. -/
theorem repeatFrom_of_error {fault : ParseError} (h : step state c = .error fault) :
    repeatFrom step state c = .error fault := by
  rw [repeatFrom, h]

end Repetition

/-- The step of a repetition that reads one more item where `more` says so. -/
def manyStep (more : Cursor → Bool) (item : Reader α) (items : List α) (c : Cursor) :
    Except ParseError (Option (List α × Cursor)) :=
  if more c then do
    let (value, c) ← item c
    return some (value :: items, c)
  else return none

/-- The items that a repetition reads one after the other. An item that takes no lexeme is the
last. -/
inductive Run (more : Cursor → Bool) (item : Reader α) : Cursor → List α → Cursor → Prop where
  | stop {c} : more c = false → Run more item c [] c
  | stall {c v d} : more c = true → item c = .ok (v, d) → ¬ d.count < c.count →
      Run more item c [v] d
  | next {c v c' vs d} : more c = true → item c = .ok (v, c') → c'.count < c.count →
      Run more item c' vs d → Run more item c (v :: vs) d

/-- A repetition succeeds exactly with the items of a run. -/
theorem repeatFrom_manyStep_iff {more : Cursor → Bool} {item : Reader α} {items result : List α}
    {c : Cursor} :
    repeatFrom (manyStep more item) items c = .ok (result, d) ↔
      ∃ vs, result = vs.reverse ++ items ∧ Run more item c vs d := by
  constructor
  · intro h
    induction hn : c.count using Nat.strongRecOn generalizing items c with
    | ind k ih =>
        unfold repeatFrom at h
        by_cases hmore : more c = true
        · cases hitem : item c with
          | error e => simp [manyStep, hmore, hitem] at h
          | ok pair =>
              obtain ⟨v, c'⟩ := pair
              simp only [manyStep, hmore, hitem, if_true, Except.ok_bind, pure, Except.pure] at h
              by_cases shorter : c'.count < c.count
              · rw [if_pos shorter] at h
                obtain ⟨vs, rfl, run⟩ := ih _ (hn ▸ shorter) h rfl
                exact ⟨v :: vs, by simp, .next hmore hitem shorter run⟩
              · simp only [if_neg shorter, Except.ok.injEq, Prod.mk.injEq] at h
                obtain ⟨rfl, rfl⟩ := h
                exact ⟨[v], rfl, .stall hmore hitem shorter⟩
        · simp only [manyStep, hmore, Bool.false_eq_true, if_false, pure, Except.pure,
            Except.ok.injEq, Prod.mk.injEq] at h
          obtain ⟨rfl, rfl⟩ := h
          exact ⟨[], rfl, .stop (by simpa using hmore)⟩
  · rintro ⟨vs, rfl, run⟩
    induction run generalizing items with
    | stop hmore =>
        unfold repeatFrom
        simp [manyStep, hmore, pure, Except.pure]
    | stall hmore hitem shorter =>
        unfold repeatFrom
        simp [manyStep, hmore, hitem, shorter, pure, Except.pure]
    | next hmore hitem shorter _ ih =>
        unfold repeatFrom
        simp only [manyStep, hmore, hitem, shorter, if_true, Except.ok_bind, pure, Except.pure]
        rw [ih]
        simp

/-- Items that are already there stay behind those that a repetition reads. -/
theorem repeatFrom_manyStep_append (more : Cursor → Bool) (item : Reader α) (done items : List α)
    (c : Cursor) : repeatFrom (manyStep more item) (done ++ items) c =
      (repeatFrom (manyStep more item) done c).map fun found => (found.1 ++ items, found.2) := by
  induction hn : c.count using Nat.strongRecOn generalizing done c with
  | ind k ih =>
      rw [repeatFrom, repeatFrom]
      unfold manyStep
      by_cases hmore : more c = true
      · cases hitem : item c with
        | error e => simp [hmore, Except.map]
        | ok pair =>
            obtain ⟨v, c'⟩ := pair
            simp only [hmore, if_true, Except.ok_bind, pure, Except.pure]
            by_cases shorter : c'.count < c.count
            · simp only [if_pos shorter]
              exact ih _ (hn ▸ shorter) (v :: done) c' rfl
            · simp [if_neg shorter, Except.map]
      · simp [hmore, pure, Except.pure, Except.map]

/-- The item of a comma-separated list behind the first, with its comma. -/
def afterComma (item : Reader α) : Reader α := fun c => item c.next

/-- Whether a comma comes next. -/
def atComma (c : Cursor) : Bool :=
  c.isAt (.mark .comma)

theorem nextItem_eq (item : Reader α) : nextItem item = manyStep atComma (afterComma item) := rfl

/-- A list with commas is a first item and a run of further ones. -/
theorem commaSeparated_eq_ok_iff {item : Reader α} {vs : List α} {c : Cursor} :
    commaSeparated item c = .ok (vs, d) ↔
      ∃ v c' vs', vs = v :: vs' ∧ item c = .ok (v, c') ∧
        Run atComma (afterComma item) c' vs' d := by
  unfold commaSeparated
  rw [Except.bind_eq_ok_iff]
  constructor
  · rintro ⟨⟨v, c'⟩, hfirst, h⟩
    rcases Except.bind_eq_ok_iff.mp h with ⟨⟨items, d'⟩, hrest, h⟩
    simp only [pure, Except.pure, Except.ok.injEq, Prod.mk.injEq] at h
    obtain ⟨rfl, rfl⟩ := h
    rw [nextItem_eq, repeatFrom_manyStep_iff] at hrest
    obtain ⟨vs', rfl, run⟩ := hrest
    exact ⟨v, c', vs', by simp, hfirst, run⟩
  · rintro ⟨v, c', vs', rfl, hfirst, run⟩
    refine ⟨(v, c'), hfirst, ?_⟩
    have rest : repeatFrom (nextItem item) [v] c' = .ok (vs'.reverse ++ [v], d) := by
      rw [nextItem_eq, repeatFrom_manyStep_iff]
      exact ⟨vs', rfl, run⟩
    simp [rest, pure, Except.pure]

end Reader

end QasmDiagram
