/-
Module: QasmDiagram.Proofs.Expression.Soundness
Purpose: An expression that is read is canonical, is printed by the tokens that were read, and
  nests no deeper than the levels that were left.
Trusted boundary: none
Main exports: Expression.Stops, Expression.Taken, Expression.binaryAt_sound, Expression.reader_sound
-/
import QasmDiagram.Proofs.Expression.Canonical
import QasmDiagram.Proofs.Reading

namespace QasmDiagram

open Lexeme Cursor

/-- The role that is given to a token is that of the terminal read from it. -/
theorem Cursor.terminal?_facing {role? : TokenKind → Option TerminalKind} {ts : List Lexeme}
    {n : Nat} {t : Terminal} :
    (facing ts n).terminal? role? = some t ↔
      ∃ l rest, ts = l :: rest ∧ role? l.kind = some t.kind ∧ t.text = l.text := by
  cases ts with
  | nil => simp [terminal?]
  | cons l ts =>
      obtain ⟨kind, text⟩ := t
      cases h : role? l.kind with
      | none => simp [terminal?, h]
      | some role => simp [terminal?, h, eq_comm]

namespace TokenKind

theorem binaryOperator?_eq_some {kind : TokenKind} {op : TerminalKind}
    (h : kind.binaryOperator? = some op) :
    op.tokenKind = kind ∧ 0 < op.operatorLevel := by
  unfold binaryOperator? at h
  split at h <;> simp only [Option.some.injEq, reduceCtorEq] at h <;> subst h <;>
    exact ⟨rfl, by decide⟩

theorem unaryOperator?_eq_some {kind : TokenKind} {op : TerminalKind}
    (h : kind.unaryOperator? = some op) : op.tokenKind = kind ∧ op.isSign = true := by
  unfold unaryOperator? at h
  split at h <;> simp only [Option.some.injEq, reduceCtorEq] at h <;> subst h <;>
    exact ⟨rfl, rfl⟩

theorem leaf?_eq_some {kind : TokenKind} {leaf : TerminalKind} (h : kind.leaf? = some leaf) :
    leaf.tokenKind = kind ∧ leaf.isLeaf = true := by
  unfold leaf? at h
  split at h <;> simp only [Option.some.injEq, reduceCtorEq] at h <;> subst h <;>
    exact ⟨rfl, rfl⟩

end TokenKind

namespace TerminalKind

/-- An operator is read with its level as precedence. -/
theorem precedence_eq (op : TerminalKind) : op.precedence = op.operatorLevel := by
  cases op <;> rfl

/-- An operator that the right operand of another does not take up may follow it. -/
theorem fitsLeft_iff {op left : TerminalKind} (hleft : 0 < left.operatorLevel) :
    op.precedence < left.rightPrecedence ↔
      op ≠ .doubleAsterisk ∧ op.operatorLevel ≤ left.operatorLevel := by
  revert hleft
  cases op <;> cases left <;> decide

/-- The operators inside a right operand are those that may stand there. -/
theorem fitsRight_iff {op right : TerminalKind} (hop : 0 < op.operatorLevel) :
    op.rightPrecedence ≤ right.precedence ↔
      if op = .doubleAsterisk then right = .doubleAsterisk
      else op.operatorLevel < right.operatorLevel := by
  revert hop
  cases op <;> cases right <;> decide

end TerminalKind

/-- A terminal with the text of a source's lexeme of its class is that lexeme. -/
theorem Terminal.isLexeme_of_sourced {l : Lexeme} {ts : List Lexeme} (h : Sourced (l :: ts))
    {t : Terminal} (hkind : t.kind.tokenKind = l.kind) (htext : t.text = l.text) :
    t.IsLexeme ∧ t.lexeme.token = l.token := by
  refine ⟨?_, by simp [lexeme, token, hkind, htext]⟩
  rw [IsLexeme, hkind, htext]
  exact h.shapeOf

namespace Expression

/-- No operator of at least the given precedence comes next. -/
def Stops (least : Nat) (rest : List Lexeme) : Prop :=
  ∀ l ∈ rest.head?, ∀ op ∈ l.kind.binaryOperator?, op.precedence < least

/-- What was read in front of `rest` is a canonical expression, printed by the tokens read. -/
structure Taken (ts : List Lexeme) (e : Expression) (rest : List Lexeme) : Prop where
  tokens : ts.map token = e.lexemes.map token ++ rest.map token
  suffix : rest <:+ ts
  canonical : e.Canonical

/-- The operator at the root of a canonical expression is a binary one. -/
theorem operatorLevel_rootOperator? {e : Expression} (h : e.Canonical) {op : TerminalKind}
    (hop : op ∈ e.rootOperator?) : 0 < op.operatorLevel := by
  cases e with
  | binary lhs o rhs =>
      rw [Canonical] at h
      simp only [rootOperator?, Option.mem_some_iff] at hop
      exact hop ▸ h.2.1
  | _ => simp [rootOperator?] at hop

/-- A reader of expressions that answers what it has read. -/
def Sound (R : Reader Expression) (Good : Expression → List Lexeme → Prop) : Prop :=
  ∀ ⦃ts n e d⦄, Sourced ts → R (facing ts n) = .ok (e, d) →
    ∃ rest, d = facing rest n ∧ Taken ts e rest ∧ Good e rest

variable {signed inner operand : Reader Expression} {right : Nat → Reader Expression}
  {levels least : Nat}

/-! ### Lists, leaves, calls and parentheses -/

/-- The items behind the first of a list, each with its comma. -/
theorem run_sound (hinner : Sound inner fun e _ => e.nestingBelow < levels) {c d : Cursor}
    {es : List Expression} (run : Reader.Run Reader.atComma (Reader.afterComma inner) c es d) :
    ∀ {ts n}, c = facing ts n → Sourced ts → ∃ rest, d = facing rest n ∧ rest <:+ ts ∧
      ts.map token = (es.flatMap fun e => (.mark .comma, ",") :: e.lexemes.map token)
        ++ rest.map token ∧ ∀ e ∈ es, e.Canonical ∧ e.nestingBelow < levels := by
  -- Behind a comma the item is read from the remaining lexemes.
  have step : ∀ {ts n e d}, Sourced ts → Reader.atComma (facing ts n) = true →
      Reader.afterComma inner (facing ts n) = .ok (e, d) → ∃ rest, d = facing rest n ∧ rest <:+ ts ∧
        ts.map token = (.mark .comma, ",") :: e.lexemes.map token ++ rest.map token ∧
        e.Canonical ∧ e.nestingBelow < levels := by
    intro ts n e d hts hmore hitem
    rcases isAt_facing_iff.mp hmore with ⟨l, ts, rfl, hl⟩
    simp only [Reader.afterComma, next_facing_cons] at hitem
    obtain ⟨rest, rfl, taken, good⟩ := hinner hts.tail hitem
    refine ⟨rest, rfl, taken.suffix.trans (List.suffix_cons l ts), ?_, taken.canonical, good⟩
    have comma : l.token = (.mark .comma, ",") := by
      rw [token, hl, text_of_mark hts.shapeOf hl]
      rfl
    rw [List.map_cons, comma, taken.tokens]
    rfl
  induction run with
  | stop _ =>
      rintro ts n rfl hts
      exact ⟨ts, rfl, List.suffix_refl ts, by simp, by simp⟩
  | stall hmore hitem _ =>
      rintro ts n rfl hts
      obtain ⟨rest, rfl, suffix, tokens, good⟩ := step hts hmore hitem
      exact ⟨rest, rfl, suffix, by simp [tokens], by simpa using good⟩
  | next hmore hitem _ _ ih =>
      rintro ts n rfl hts
      obtain ⟨mid, rfl, suffix, tokens, good⟩ := step hts hmore hitem
      obtain ⟨rest, rfl, suffix', tokens', good'⟩ := ih rfl
        (hts.of_suffix suffix)
      refine ⟨rest, rfl, suffix'.trans suffix, ?_, ?_⟩
      · simp [tokens, tokens']
      · intro e he
        rcases List.mem_cons.mp he with rfl | he
        · exact good
        · exact good' e he

theorem canonicalAll_iff {es : List Expression} :
    CanonicalAll es ↔ ∀ e ∈ es, e.Canonical := by
  induction es with
  | nil => simp [CanonicalAll]
  | cons e es ih => simp [CanonicalAll, ih]

theorem nestingAll_le_iff {es : List Expression} {k : Nat} :
    nestingAll es ≤ k ↔ ∀ e ∈ es, e.nestingBelow < k := by
  induction es with
  | nil => simp [nestingAll]
  | cons e es ih =>
      rw [nestingAll, Nat.max_le, ih, Nat.add_comm, Nat.succ_le_iff]
      simp

/-- The tokens of a list: those of the first item, and for each other a comma and its own. -/
theorem map_token_lexemesAll (e : Expression) (es : List Expression) :
    (lexemesAll (e :: es)).map token =
      e.lexemes.map token
        ++ es.flatMap fun e => (.mark .comma, ",") :: e.lexemes.map token := by
  induction es generalizing e with
  | nil => simp [lexemesAll]
  | cons second others ih =>
      rw [lexemesAll_cons_cons, List.map_append, List.map_cons, map_token_relead, ih]
      rfl

/-- An expression list is read with the tokens that print it. -/
theorem list_sound (hinner : Sound inner fun e _ => e.nestingBelow < levels) {ts : List Lexeme}
    {n : Nat} {es : List Expression} {d : Cursor} (hts : Sourced ts)
    (h : listReader inner (facing ts n) = .ok (es, d)) :
    ∃ rest, d = facing rest n ∧ rest <:+ ts ∧
      ts.map token = (lexemesAll es).map token ++ rest.map token ∧
      CanonicalAll es ∧ nestingAll es ≤ levels := by
  unfold listReader at h
  split at h
  · simp only [Except.ok.injEq, Prod.mk.injEq] at h
    obtain ⟨rfl, rfl⟩ := h
    exact ⟨ts, rfl, List.suffix_refl ts, rfl, trivial, Nat.zero_le _⟩
  · rcases Reader.commaSeparated_eq_ok_iff.mp h with ⟨e, c, es, rfl, hfirst, run⟩
    obtain ⟨mid, rfl, taken, good⟩ := hinner hts hfirst
    obtain ⟨rest, rfl, suffix, tokens, others⟩ := run_sound hinner run rfl
      (hts.of_suffix taken.suffix)
    refine ⟨rest, rfl, suffix.trans taken.suffix, ?_, ?_, ?_⟩
    · rw [taken.tokens, tokens, map_token_lexemesAll, List.append_assoc]
    · rw [canonicalAll_iff]
      intro x hx
      rcases List.mem_cons.mp hx with rfl | hx
      · exact taken.canonical
      · exact (others x hx).1
    · rw [nestingAll_le_iff]
      intro x hx
      rcases List.mem_cons.mp hx with rfl | hx
      · exact good
      · exact (others x hx).2

/-- A primary expression is read with the tokens that print it. -/
theorem primary_sound (hinner : Sound inner fun e _ => e.nestingBelow < levels) :
    Sound (primaryReader inner) fun e _ => e.rootOperator? = none ∧ e.nestingBelow ≤ levels := by
  intro ts n e d hts h
  unfold primaryReader at h
  split at h
  · rename_i opens
    rcases isAt_facing_iff.mp opens with ⟨l, ts, rfl, hl⟩
    rw [next_facing_cons] at h
    rcases Except.bind_eq_ok_iff.mp h with ⟨⟨x, c⟩, hx, h⟩
    rcases Except.bind_eq_ok_iff.mp h with ⟨⟨_, c'⟩, hclose, h⟩
    simp only [pure, Except.pure, Except.ok.injEq, Prod.mk.injEq] at h
    obtain ⟨rfl, rfl⟩ := h
    obtain ⟨mid, rfl, taken, good⟩ := hinner hts.tail hx
    rcases Reader.expect_eq_ok_iff.mp hclose with ⟨r, rest, rfl, hr, _, rfl⟩
    have hmid : Sourced (r :: rest) := hts.tail.of_suffix taken.suffix
    refine ⟨rest, rfl, ⟨?_, ?_, ?_⟩, rfl, ?_⟩
    · simp [lexemes, taken.tokens, token_of_mark hts hl, token_of_mark hmid hr]
    · exact ((List.suffix_cons r rest).trans taken.suffix).trans (List.suffix_cons l ts)
    · rw [Canonical]
      exact taken.canonical
    · rw [nestingBelow, Nat.add_comm]
      exact good
  · split at h
    · rename_i calls
      rw [Bool.and_eq_true] at calls
      rcases isAt_facing_iff.mp calls.1 with ⟨l, ts, rfl, hl⟩
      rw [next_facing_cons] at calls
      rcases isAt_facing_iff.mp calls.2 with ⟨p, ts, rfl, hp⟩
      simp only [next_facing_cons, text_facing_cons] at h
      rcases Except.bind_eq_ok_iff.mp h with ⟨⟨es, c⟩, hes, h⟩
      rcases Except.bind_eq_ok_iff.mp h with ⟨⟨_, c'⟩, hclose, h⟩
      simp only [pure, Except.pure, Except.ok.injEq, Prod.mk.injEq] at h
      obtain ⟨rfl, rfl⟩ := h
      obtain ⟨mid, rfl, suffix, tokens, canonical, good⟩ := list_sound hinner hts.tail.tail hes
      rcases Reader.expect_eq_ok_iff.mp hclose with ⟨r, rest, rfl, hr, _, rfl⟩
      have hmid : Sourced (r :: rest) := hts.tail.tail.of_suffix suffix
      have hname : l.token = (.identifier, l.text) := by rw [token, hl]
      refine ⟨rest, rfl, ⟨?_, ?_, ?_⟩, rfl, ?_⟩
      · simp [lexemes, tokens, token_of_mark hts.tail hp, token_of_mark hmid hr, hname]
        rfl
      · exact ((List.suffix_cons r rest).trans suffix).trans
          ((List.suffix_cons p ts).trans (List.suffix_cons l _))
      · rw [Canonical]
        have := hts.shapeOf
        rw [hl] at this
        exact ⟨this, canonical⟩
      · rw [nestingBelow]
        exact good
    · split at h
      · rename_i leaf hleaf
        rcases Cursor.terminal?_facing.mp hleaf with ⟨l, ts, rfl, hrole, htext⟩
        simp only [next_facing_cons, Except.ok.injEq, Prod.mk.injEq] at h
        obtain ⟨rfl, rfl⟩ := h
        obtain ⟨hkind, isLeaf⟩ := TokenKind.leaf?_eq_some hrole
        obtain ⟨isLexeme, htoken⟩ := Terminal.isLexeme_of_sourced hts hkind htext
        refine ⟨ts, rfl, ⟨?_, List.suffix_cons l ts, ?_⟩, rfl, ?_⟩
        · simp [lexemes, htoken]
        · rw [Canonical]
          exact ⟨isLexeme, isLeaf⟩
        · simp [nestingBelow]
      · simp at h

/-- An operand with its signs is read with the tokens that print it. -/
theorem operand_sound (hsigned : Sound signed fun e _ =>
      e.rootOperator? = none ∧ e.nestingBelow < levels)
    (hinner : Sound inner fun e _ => e.nestingBelow < levels) :
    Sound (operandReader signed inner) fun e _ =>
      e.rootOperator? = none ∧ e.nestingBelow ≤ levels := by
  intro ts n e d hts h
  unfold operandReader at h
  split at h
  · rename_i op hop
    rcases Cursor.terminal?_facing.mp hop with ⟨l, ts, rfl, hrole, htext⟩
    rw [next_facing_cons] at h
    rcases Except.bind_eq_ok_iff.mp h with ⟨⟨x, c⟩, hx, h⟩
    simp only [pure, Except.pure, Except.ok.injEq, Prod.mk.injEq] at h
    obtain ⟨rfl, rfl⟩ := h
    obtain ⟨rest, rfl, taken, root, good⟩ := hsigned hts.tail hx
    obtain ⟨hkind, isSign⟩ := TokenKind.unaryOperator?_eq_some hrole
    obtain ⟨isLexeme, htoken⟩ := Terminal.isLexeme_of_sourced hts hkind htext
    refine ⟨rest, rfl, ⟨?_, taken.suffix.trans (List.suffix_cons l ts), ?_⟩, rfl, ?_⟩
    · simp [lexemes, taken.tokens, htoken]
    · rw [Canonical]
      exact ⟨isLexeme, isSign, root, taken.canonical⟩
    · rw [nestingBelow, Nat.add_comm]
      exact good
  · exact primary_sound hinner hts h

/-! ### Chains of operators -/

/-- Either no operator comes next that could be taken, or one does. -/
theorem stops_or_operator (least : Nat) (ts : List Lexeme) :
    Stops least ts ∨ ∃ l us op, ts = l :: us ∧ l.kind.binaryOperator? = some op ∧
      least ≤ op.precedence := by
  cases ts with
  | nil => exact .inl (by simp [Stops])
  | cons l us =>
      cases hop : l.kind.binaryOperator? with
      | none => exact .inl (by simp [Stops, hop])
      | some op =>
          by_cases weak : op.precedence < least
          · exact .inl (by simpa [Stops, hop] using weak)
          · exact .inr ⟨l, us, op, rfl, hop, Nat.le_of_not_lt weak⟩

/-- A chain ends where no operator comes next that it could take. -/
theorem operatorStep_of_stops {n : Nat} {lhs : Expression} {ts : List Lexeme} (h : Stops least ts) :
    operatorStep right least lhs (facing ts n) = .ok none := by
  unfold operatorStep
  cases hop : (facing ts n).terminal? TokenKind.binaryOperator? with
  | none => rfl
  | some op =>
      rcases Cursor.terminal?_facing.mp hop with ⟨l, us, rfl, hrole, _⟩
      simp [h l rfl op.kind hrole]

/-- An operator that binds strongly enough is taken together with its right operand. -/
theorem operatorStep_operator {lhs : Expression} {l : Lexeme} {ts : List Lexeme} {n : Nat}
    {op : TerminalKind} (hl : l.kind.binaryOperator? = some op) (strong : least ≤ op.precedence) :
    operatorStep right least lhs (facing (l :: ts) n) = (do
      let (rhs, c) ← right op.rightPrecedence (facing ts n)
      return some (.binary lhs ⟨op, l.text⟩ rhs, c)) := by
  simp [operatorStep, Cursor.terminal?, hl, Nat.not_lt.mpr strong]

/-- Two canonical operands form a canonical expression if neither would have been read
differently. -/
theorem Canonical.binary {lhs rhs : Expression} {op : Terminal} (isLexeme : op.IsLexeme)
    (isOperator : 0 < op.kind.operatorLevel) (hlhs : lhs.Canonical) (hrhs : rhs.Canonical)
    (left : ∀ o ∈ lhs.rootOperator?, op.kind.precedence < o.rightPrecedence)
    (right : ∀ o ∈ rhs.rootOperator?, op.kind.rightPrecedence ≤ o.precedence) :
    (Expression.binary lhs op rhs).Canonical := by
  rw [Canonical]
  refine ⟨isLexeme, isOperator, hlhs, hrhs, ?_, ?_⟩
  · intro o ho
    rw [← TerminalKind.fitsLeft_iff (operatorLevel_rootOperator? hlhs ho)]
    exact left o ho
  · intro o ho
    rw [← TerminalKind.fitsRight_iff isOperator]
    exact right o ho

/-- The operators behind an expression extend it to a canonical one. No operator that the
expression's own right operand would have taken up comes next. -/
theorem operators_sound (hright : ∀ least, Sound (right least) fun e rest =>
      e.nestingBelow < levels ∧ (∀ op ∈ e.rootOperator?, least ≤ op.precedence) ∧ Stops least rest)
    {ts : List Lexeme} {n : Nat} {lhs e : Expression} {d : Cursor} (hts : Sourced ts)
    (canonical : lhs.Canonical) (below : lhs.nestingBelow ≤ levels)
    (root : ∀ op ∈ lhs.rootOperator?, least ≤ op.precedence ∧ Stops op.rightPrecedence ts)
    (h : Reader.repeatFrom (operatorStep right least) lhs (facing ts n) = .ok (e, d)) :
    ∃ rest, d = facing rest n ∧ rest <:+ ts ∧
      lhs.lexemes.map token ++ ts.map token = e.lexemes.map token ++ rest.map token ∧
      e.Canonical ∧ e.nestingBelow ≤ levels ∧ (∀ op ∈ e.rootOperator?, least ≤ op.precedence) ∧
      Stops least rest := by
  induction hn : ts.length using Nat.strongRecOn generalizing ts lhs with
  | ind k ih =>
      rcases stops_or_operator least ts with stops | ⟨l, ts, op, rfl, hrole, strong⟩
      · rw [Reader.repeatFrom_of_none (operatorStep_of_stops stops)] at h
        cases h
        exact ⟨ts, rfl, List.suffix_refl ts, rfl, canonical, below, fun op h => (root op h).1, stops⟩
      · have step : operatorStep right least lhs (facing (l :: ts) n) = _ :=
          operatorStep_operator hrole strong
        cases hrhs : right op.rightPrecedence (facing ts n) with
        | error fault =>
            rw [hrhs, Except.error_bind] at step
            rw [Reader.repeatFrom_of_error step] at h
            simp at h
        | ok pair =>
            obtain ⟨rhs, c⟩ := pair
            obtain ⟨mid, rfl, taken, good, rhsRoot, stops⟩ := hright _ hts.tail hrhs
            have shorter : mid.length < (l :: ts).length :=
              Nat.lt_succ_of_le taken.suffix.length_le
            rw [hrhs, Except.ok_bind] at step
            rw [Reader.repeatFrom_of_some step shorter] at h
            obtain ⟨hkind, isOperator⟩ := TokenKind.binaryOperator?_eq_some hrole
            obtain ⟨isLexeme, htoken⟩ := Terminal.isLexeme_of_sourced (t := ⟨op, l.text⟩) hts hkind rfl
            have extended : (Expression.binary lhs ⟨op, l.text⟩ rhs).Canonical :=
              canonical.binary isLexeme isOperator taken.canonical
                (fun o ho => (root o ho).2 l (by simp) op hrole) rhsRoot
            have depth : (Expression.binary lhs ⟨op, l.text⟩ rhs).nestingBelow ≤ levels := by
              rw [nestingBelow, Nat.max_le]
              omega
            have newRoot : ∀ o ∈ (Expression.binary lhs ⟨op, l.text⟩ rhs).rootOperator?,
                least ≤ o.precedence ∧ Stops o.rightPrecedence mid := by
              intro o ho
              simp only [rootOperator?, Option.mem_some_iff] at ho
              subst ho
              exact ⟨strong, stops⟩
            obtain ⟨rest, rfl, suffix, tokens, results⟩ :=
              ih mid.length (hn ▸ shorter) (hts.tail.of_suffix taken.suffix) extended depth newRoot h
                rfl
            refine ⟨rest, rfl, suffix.trans (taken.suffix.trans (List.suffix_cons l ts)), ?_, results⟩
            rw [← tokens, lexemes, List.map_cons, taken.tokens]
            simp [htoken]

/-- An expression is read with the tokens that print it, and nests no deeper than allowed. -/
theorem readers_sound (levels : Nat) :
    (∀ least, Sound (binaryAt levels least) fun e rest => e.nestingBelow < levels ∧
        (∀ op ∈ e.rootOperator?, least ≤ op.precedence) ∧ Stops least rest) ∧
      Sound (signedAt levels) fun e _ => e.rootOperator? = none ∧ e.nestingBelow < levels := by
  induction levels with
  | zero =>
      constructor
      · intro least ts n e d _ h
        simp [binaryAt, Reader.tooDeep] at h
      · intro ts n e d _ h
        simp [signedAt, Reader.tooDeep] at h
  | succ levels ih =>
      obtain ⟨hbinary, hsigned⟩ := ih
      have hinner : Sound (binaryAt levels 0) fun e _ => e.nestingBelow < levels := by
        intro ts n e d hts h
        obtain ⟨rest, hd, taken, good, _⟩ := hbinary 0 hts h
        exact ⟨rest, hd, taken, good⟩
      have hoperand := operand_sound hsigned hinner
      constructor
      · intro least ts n e d hts h
        rw [binaryAt] at h
        unfold chainReader at h
        rcases Except.bind_eq_ok_iff.mp h with ⟨⟨first, c⟩, hfirst, h⟩
        obtain ⟨mid, rfl, taken, root, below⟩ := hoperand hts hfirst
        obtain ⟨rest, rfl, suffix, tokens, canonical, depth, good, stops⟩ :=
          operators_sound hbinary (hts.of_suffix taken.suffix) taken.canonical below (by simp [root]) h
        refine ⟨rest, rfl, ⟨?_, suffix.trans taken.suffix, canonical⟩, Nat.lt_succ_of_le depth, good,
          stops⟩
        rw [taken.tokens, tokens]
      · intro ts n e d hts h
        rw [signedAt] at h
        obtain ⟨rest, hd, taken, root, below⟩ := hoperand hts h
        exact ⟨rest, hd, taken, root, Nat.lt_succ_of_le below⟩

/-- An expression that is read is canonical, is printed by the tokens read, and takes no more than
the levels that are left. -/
theorem reader_sound (levels : Nat) :
    Sound (reader levels) fun e _ => e.nesting ≤ levels := by
  intro ts n e d hts h
  obtain ⟨rest, hd, taken, good, _⟩ := (readers_sound levels).1 0 hts h
  refine ⟨rest, hd, taken, ?_⟩
  show 1 + e.nestingBelow ≤ levels
  omega

end Expression

end QasmDiagram
