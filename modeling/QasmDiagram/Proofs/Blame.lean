/-
Module: QasmDiagram.Proofs.Blame
Purpose: Readers that blame what is there. When such a reader fails, the cause names the line of a
  lexeme of the source, and the text or the delimiter it names is that of the lexeme. All ways of
  putting readers together keep this.
Trusted boundary: none
Main exports: Outcome, Lexeme.opensKept, ParseError.Blames, Cursor.Within, Reader.Blames,
  Reader.Blames.andThen, Reader.Blames.repeatFrom, Reader.Blames.commaSeparated
-/
import QasmDiagram.Program.Reader
import QasmDiagram.Proofs.Copying

namespace QasmDiagram

/-- A computation succeeds with a good value, or fails for a cause that is told. -/
inductive Outcome {ε α : Type} (told : ε → Prop) (good : α → Prop) : Except ε α → Prop where
  | ok {a} : good a → Outcome told good (.ok a)
  | error {e} : told e → Outcome told good (.error e)

theorem Outcome.bind {ε α β : Type} {told : ε → Prop} {good : α → Prop} {good' : β → Prop}
    {x : Except ε α} {f : α → Except ε β} (h : Outcome told good x)
    (goesOn : ∀ a, good a → Outcome told good' (f a)) : Outcome told good' (x >>= f) := by
  cases h with
  | ok ha => exact goesOn _ ha
  | error he => exact .error he

theorem Outcome.told_of_error {ε α : Type} {told : ε → Prop} {good : α → Prop} {e : ε}
    (h : Outcome told good (.error e : Except ε α)) : told e := by
  cases h with
  | error he => exact he

/-- A lexeme with which a statement starts that is kept as text. -/
def Lexeme.opensKept (l : Lexeme) : Bool :=
  l.kind == .keyword .measure || (l.kind == .identifier && (KeptRule.ofWord? l.text).isSome)

/-- The number of lexemes that are the given mark. -/
def Lexeme.countMark (m : Mark) (ts : List Lexeme) : Nat :=
  ts.countP fun l => l.kind = .mark m

theorem Lexeme.countMark_cons (m : Mark) (l : Lexeme) (ts : List Lexeme) :
    countMark m (l :: ts) = countMark m ts + if l.kind = .mark m then 1 else 0 := by
  simp [countMark, List.countP_cons]

/-- What a cause says of the lexemes `ts` of a source that ends on the line `endLine`: it names the
line of the lexeme that was not expected, of the delimiter that is not closed, or of the lexeme at
which the nesting is too deep. A statement that is kept as text and ends inside braces is named by
the line of its first lexeme: the braces that are not closed stand further on. -/
inductive ParseError.Blames (ts : List Lexeme) (endLine : Nat) : ParseError → Prop where
  | unexpectedToken {l expected} : l ∈ ts →
      Blames ts endLine (.unexpectedToken l.line expected l.text)
  | unexpectedEnd {expected} : Blames ts endLine (.unexpectedEnd expected)
  | unclosed {l m} : l ∈ ts → l.kind = .mark m → Blames ts endLine (.unclosed m l.line)
  | keptOpen {l rest} : l :: rest <:+ ts → l.opensKept = true →
      Lexeme.countMark .rightBrace rest < Lexeme.countMark .leftBrace rest →
      Blames ts endLine (.unclosed .leftBrace l.line)
  | nestingTooDeep {l} : l ∈ ts → Blames ts endLine (.nestingTooDeep l.line)
  | nestingAtEnd : Blames ts endLine (.nestingTooDeep endLine)

namespace Cursor

variable {ts : List Lexeme} {n : Nat} {c : Cursor}

/-- The cursor stands somewhere in the lexemes `ts` of a source that ends on the line `n`. -/
structure Within (ts : List Lexeme) (n : Nat) (c : Cursor) : Prop where
  ahead : c.ahead <:+ ts
  endLine : c.endLine = n

/-- Where a class stands at the cursor, a lexeme of that class comes first. -/
theorem exists_ahead_of_kind? {kind : TokenKind} (h : c.kind? = some kind) :
    ∃ l rest, c.ahead = l :: rest ∧ l.kind = kind ∧ c.text = l.text := by
  unfold text
  unfold kind? at h
  unfold head? at h ⊢
  cases ahead : c.ahead with
  | nil => simp [ahead] at h
  | cons l rest => exact ⟨l, rest, rfl, by simpa [ahead] using h, rfl⟩

namespace Within

theorem skip (h : c.Within ts n) (k : Nat) : (c.skip k).Within ts n where
  ahead := (List.drop_suffix k c.ahead).trans h.ahead
  endLine := h.endLine

theorem next (h : c.Within ts n) : c.next.Within ts n :=
  h.skip 1

theorem mem (h : c.Within ts n) {l : Lexeme} (head : c.head? = some l) : l ∈ ts :=
  h.ahead.mem (List.mem_of_mem_head? head)

/-- What stands at the cursor and was not expected is blamed. -/
theorem refuse (h : c.Within ts n) (expected : Expectation) :
    (c.refuse expected).Blames ts n := by
  unfold Cursor.refuse
  cases head : c.head? with
  | none => exact .unexpectedEnd
  | some l => exact .unexpectedToken (h.mem head)

theorem nestingTooDeep (h : c.Within ts n) : (ParseError.nestingTooDeep c.line).Blames ts n := by
  unfold Cursor.line
  cases head : c.head? with
  | none =>
      rw [Option.map_none, Option.getD_none, h.endLine]
      exact .nestingAtEnd
  | some l => exact .nestingTooDeep (h.mem head)

/-- The mark at the cursor is blamed if it is not closed. -/
theorem unclosed (h : c.Within ts n) {m : Mark} (here : c.isAt (.mark m) = true) :
    (ParseError.unclosed m c.line).Blames ts n := by
  unfold Cursor.line
  unfold isAt kind? at here
  cases head : c.head? with
  | none => simp [head] at here
  | some l => exact .unclosed (h.mem head) (by simpa [head] using here)

end Within

end Cursor

open Cursor

namespace Reader

variable {α β σ : Type} {R R' : Reader α} {S : Reader β} {ts : List Lexeme} {n : Nat} {c : Cursor}

/-- Wherever the reader starts in the lexemes of a source, it stops there or blames one of them. -/
def Blames (R : Reader α) : Prop :=
  ∀ ⦃ts n c⦄, c.Within ts n →
    Outcome (ParseError.Blames ts n) (fun read => read.2.Within ts n) (R c)

theorem blames_expect (kind : TokenKind) : (expect kind).Blames := by
  intro ts n c h
  unfold expect
  split
  · exact .ok h.next
  · exact .error (h.refuse _)

theorem blames_tooDeep : (tooDeep : Reader α).Blames :=
  fun _ _ _ h => .error h.nestingTooDeep

theorem blames_pure (v : α) : Blames (fun c => .ok (v, c)) :=
  fun _ _ _ h => .ok h

/-- What goes on from whatever a reader has read. -/
theorem Blames.bind {γ : Type} (h : R.Blames) (within : c.Within ts n) {good : γ → Prop}
    {f : α × Cursor → Except ParseError γ}
    (goesOn : ∀ v d, d.Within ts n → Outcome (ParseError.Blames ts n) good (f (v, d))) :
    Outcome (ParseError.Blames ts n) good (R c >>= f) :=
  (h within).bind fun read behind => goesOn read.1 read.2 behind

theorem Blames.map (h : R.Blames) (f : α → β) : (R.map f).Blames :=
  fun _ _ _ within => h.bind within fun _ _ behind => .ok behind

theorem Blames.andThen (hR : R.Blames) (hS : S.Blames) : (Reader.andThen R S).Blames := by
  intro ts n c within
  apply hR.bind within
  intro v d behind
  exact hS.bind behind fun w e behind => .ok behind

theorem Blames.behind {f : String → Reader α} (h : ∀ text, (f text).Blames) :
    (Reader.behind f).Blames :=
  fun _ _ _ within => h _ within.next

theorem Blames.branch {more : Cursor → Bool} (hR : R.Blames) (hR' : R'.Blames) :
    (Reader.branch more R R').Blames := by
  intro ts n c within
  unfold Reader.branch
  split
  · exact hR within
  · exact hR' within

/-- A repetition blames what its steps blame. -/
theorem blames_repeatFrom {step : σ → Cursor → Except ParseError (Option (σ × Cursor))}
    (steps : ∀ s ⦃c⦄, c.Within ts n → Outcome (ParseError.Blames ts n)
      (fun taken => ∀ read ∈ taken, read.2.Within ts n) (step s c))
    (s : σ) (within : c.Within ts n) :
    Outcome (ParseError.Blames ts n) (fun read => read.2.Within ts n) (repeatFrom step s c) := by
  induction hn : c.count using Nat.strongRecOn generalizing s c with
  | ind k ih =>
      have first := steps s within
      rw [repeatFrom]
      generalize step s c = x at first
      cases first with
      | error told => exact .error told
      | @ok taken good =>
          cases taken with
          | none => exact .ok within
          | some read =>
              have behind : read.2.Within ts n := good read rfl
              by_cases shorter : read.2.count < c.count
              · simp only [if_pos shorter]
                exact ih _ (hn ▸ shorter) read.1 behind rfl
              · simp only [if_neg shorter]
                exact .ok behind

theorem Blames.repeatFrom_manyStep {more : Cursor → Bool} (h : R.Blames) (items : List α)
    (within : c.Within ts n) :
    Outcome (ParseError.Blames ts n) (fun read => read.2.Within ts n)
      (repeatFrom (manyStep more R) items c) := by
  refine blames_repeatFrom ?_ items within
  intro items c within
  unfold manyStep
  split
  · apply h.bind within
    intro v d behind
    exact .ok (by simpa using behind)
  · exact .ok (by simp)

theorem Blames.many {more : Cursor → Bool} (h : R.Blames) : (Reader.many more R).Blames := by
  intro ts n c within
  apply (h.repeatFrom_manyStep [] within).bind
  rintro ⟨vs, d⟩ behind
  exact .ok behind

theorem Blames.commaSeparated (h : R.Blames) : (Reader.commaSeparated R).Blames := by
  have afterComma : (Reader.afterComma R).Blames := Blames.behind fun _ => h
  intro ts n c within
  apply h.bind within
  intro v d behind
  rw [nextItem_eq]
  apply (afterComma.repeatFrom_manyStep [v] behind).bind
  rintro ⟨vs, e⟩ behind
  exact .ok behind

/-- What has been read is answered behind the token that closes it. -/
theorem blames_closed (v : β) (kind : TokenKind) :
    Blames fun c => do let (_, d) ← expect kind c; return (v, d) :=
  fun _ _ _ within => (blames_expect kind).bind within fun _ _ behind => .ok behind

theorem Blames.bracketed {m m' : Mark} (h : R.Blames) : (Reader.bracketed m m' R).Blames := by
  intro ts n c within
  unfold Reader.bracketed
  split
  · apply h.bind within.next
    intro v d behind
    exact blames_closed (some v) _ behind
  · exact .ok within

end Reader

end QasmDiagram
