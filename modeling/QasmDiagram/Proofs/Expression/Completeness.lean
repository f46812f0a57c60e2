/-
Module: QasmDiagram.Proofs.Expression.Completeness
Purpose: A canonical expression is read back from its tokens if the levels that are left are as many
  as it takes, and is refused as nested too deep if they are not.
Trusted boundary: none
Main exports: Reader.Fits, Expression.reader_complete, Expression.listReader_complete
-/
import QasmDiagram.Proofs.Expression.Soundness

namespace QasmDiagram

open Lexeme Cursor

/-! ### Levels -/

/-- The first result is the second if as many levels are left as are needed, and else the refusal to
nest deeper. -/
def Reader.Fits {α : Type} (levels needed : Nat) (x y : Except ParseError α) : Prop :=
  (needed ≤ levels → x = y) ∧ (levels < needed → ∃ line, x = .error (.nestingTooDeep line))

namespace Reader.Fits

variable {α β : Type} {levels needed needed' : Nat} {x y z : Except ParseError α}

/-- What needs no level fits. -/
theorem of_eq (h : x = y) : Fits levels 0 x y :=
  ⟨fun _ => h, fun none => absurd none (Nat.not_lt_zero _)⟩

/-- What follows a step fits if the step does. -/
theorem bind {a : α} (h : Fits levels needed x (.ok a)) (f : α → Except ParseError β) :
    Fits levels needed (x >>= f) (f a) := by
  constructor
  · intro enough
    rw [h.1 enough]
    rfl
  · intro few
    obtain ⟨line, failed⟩ := h.2 few
    exact ⟨line, by rw [failed]; rfl⟩

/-- Two steps in a row fit if the deeper of them does. -/
theorem trans (h : Fits levels needed x y) (h' : Fits levels needed' y z) :
    Fits levels (max needed needed') x z := by
  constructor
  · intro enough
    rw [h.1 (by omega), h'.1 (by omega)]
  · intro few
    by_cases first : levels < needed
    · exact h.2 first
    · rw [h.1 (by omega)]
      exact h'.2 (by omega)

theorem trans_eq (h : Fits levels needed x y) (h' : y = z) : Fits levels needed x z :=
  h' ▸ h

/-- One more level is left and one more is needed. -/
theorem succ (h : Fits levels needed x y) : Fits (levels + 1) (1 + needed) x y :=
  ⟨fun enough => h.1 (by omega), fun few => h.2 (by omega)⟩

/-- Where no level is left, a level is refused. -/
theorem tooDeep (c : Cursor) {y : Except ParseError (α × Cursor)} :
    Fits 0 (1 + needed) (Reader.tooDeep c) y :=
  ⟨fun enough => absurd enough (by omega), fun _ => ⟨c.line, rfl⟩⟩

/-- A repetition fits if its next step does and what follows is the rest of it. -/
theorem repeatFrom {σ : Type} {step : σ → Cursor → Except ParseError (Option (σ × Cursor))}
    {state state' : σ} {c c' : Cursor}
    (h : Fits levels needed (step state c) (.ok (some (state', c'))))
    (shorter : c'.count < c.count) :
    Fits levels needed (Reader.repeatFrom step state c) (Reader.repeatFrom step state' c') := by
  constructor
  · intro enough
    exact repeatFrom_of_some (h.1 enough) shorter
  · intro few
    obtain ⟨line, failed⟩ := h.2 few
    exact ⟨line, repeatFrom_of_error failed⟩

end Reader.Fits

/-! ### The tokens of terminals -/

namespace TerminalKind

variable {kind : TerminalKind}

theorem leaf?_tokenKind (h : kind.isLeaf = true) : kind.tokenKind.leaf? = some kind := by
  revert h
  cases kind <;> decide

theorem unaryOperator?_of_isLeaf (h : kind.isLeaf = true) :
    kind.tokenKind.unaryOperator? = none ∧ kind.tokenKind ≠ .mark .leftParen := by
  revert h
  cases kind <;> decide

theorem unaryOperator?_tokenKind (h : kind.isSign = true) :
    kind.tokenKind.unaryOperator? = some kind := by
  revert h
  cases kind <;> decide

theorem binaryOperator?_tokenKind (h : 0 < kind.operatorLevel) :
    kind.tokenKind.binaryOperator? = some kind := by
  revert h
  cases kind <;> decide

theorem precedence_le_rightPrecedence (kind : TerminalKind) :
    kind.precedence ≤ kind.rightPrecedence := by
  unfold rightPrecedence
  split <;> omega

end TerminalKind

namespace Expression

/-- No parenthesis comes next, which would make a name a call. -/
def NotCalled (rest : List Lexeme) : Prop :=
  ∀ l ∈ rest.head?, l.kind ≠ .mark .leftParen

/-- An expression is read as an operand from lexemes with its tokens. -/
def ReadsOperand (e : Expression) : Prop :=
  ∀ levels us rest n, us.map token = e.lexemes.map token → NotCalled rest →
    Reader.Fits levels e.nestingBelow
      (operandReader (signedAt levels) (binaryAt levels 0) (facing (us ++ rest) n))
      (.ok (e, facing rest n))

/-- An expression is read as the beginning of a chain of operators. -/
def ReadsChain (e : Expression) : Prop :=
  ∀ levels least us rest n, us.map token = e.lexemes.map token → NotCalled rest →
    (∀ op ∈ e.rootOperator?, least ≤ op.precedence ∧ Stops op.rightPrecedence rest) →
    Reader.Fits levels e.nestingBelow
      (chainReader (operandReader (signedAt levels) (binaryAt levels 0)) (binaryAt levels) least
        (facing (us ++ rest) n))
      (Reader.repeatFrom (operatorStep (binaryAt levels) least) e (facing rest n))

theorem Stops.mono {least least' : Nat} {rest : List Lexeme} (h : Stops least rest)
    (hle : least ≤ least') : Stops least' rest :=
  fun l hl op hop => Nat.lt_of_lt_of_le (h l hl op hop) hle

/-- A chain ends where no operator that it could take comes next. -/
theorem repeatFrom_of_stops {right : Nat → Reader Expression} {least n : Nat} {e : Expression}
    {rest : List Lexeme} (h : Stops least rest) :
    Reader.repeatFrom (operatorStep right least) e (facing rest n) = .ok (e, facing rest n) :=
  Reader.repeatFrom_of_none (operatorStep_of_stops h)

/-- A single operand is a chain. -/
theorem ReadsOperand.chain {e : Expression} (h : ReadsOperand e) : ReadsChain e := by
  intro levels least us rest n htokens notCalled _
  exact (h levels us rest n htokens notCalled).bind _

/-- A chain is read to its end where no operator that it could take follows. -/
theorem ReadsChain.binaryAt {e : Expression} (h : ReadsChain e) {least : Nat} {us rest : List Lexeme}
    {n : Nat} (levels : Nat) (htokens : us.map token = e.lexemes.map token)
    (notCalled : NotCalled rest) (root : ∀ op ∈ e.rootOperator?, least ≤ op.precedence)
    (stops : Stops least rest) :
    Reader.Fits levels e.nesting (binaryAt levels least (facing (us ++ rest) n))
      (.ok (e, facing rest n)) := by
  cases levels with
  | zero =>
      rw [Expression.binaryAt]
      exact Reader.Fits.tooDeep _
  | succ levels =>
      rw [Expression.binaryAt]
      refine ((h levels least us rest n htokens notCalled ?_).trans_eq
        (repeatFrom_of_stops stops)).succ
      intro op hop
      exact ⟨root op hop, stops.mono
        (Nat.le_trans (root op hop) op.precedence_le_rightPrecedence)⟩

/-! ### One case for each constructor -/

section Cases

variable {l p : Lexeme} {ts rest : List Lexeme} {n : Nat} {signed inner : Reader Expression}

/-- A parenthesis opens a parenthesised expression. -/
theorem operandReader_paren (hl : l.kind = .mark .leftParen) :
    operandReader signed inner (facing (l :: ts) n) = (do
      let (e, c) ← inner (facing ts n)
      let (_, c) ← Reader.expect (.mark .rightParen) c
      return (.paren e, c)) := by
  simp [operandReader, primaryReader, Cursor.terminal?, hl, TokenKind.unaryOperator?]

/-- A name with a parenthesis behind it opens a call. -/
theorem operandReader_call (hl : l.kind = .identifier) (hp : p.kind = .mark .leftParen) :
    operandReader signed inner (facing (l :: p :: ts) n) = (do
      let (items, c) ← listReader inner (facing ts n)
      let (_, c) ← Reader.expect (.mark .rightParen) c
      return (.call l.text items, c)) := by
  simp [operandReader, primaryReader, Cursor.terminal?, hl, hp, TokenKind.unaryOperator?]

/-- A sign opens a signed operand. -/
theorem operandReader_sign {kind : TerminalKind} (hl : l.kind.unaryOperator? = some kind) :
    operandReader signed inner (facing (l :: ts) n) = (do
      let (operand, c) ← signed (facing ts n)
      return (.unary ⟨kind, l.text⟩ operand, c)) := by
  simp [operandReader, Cursor.terminal?, hl]

/-- A leaf is an operand of its own unless it is called. -/
theorem operandReader_leaf {kind : TerminalKind} (leaf : kind.isLeaf = true)
    (hl : l.kind = kind.tokenKind) (notCalled : NotCalled ts) :
    operandReader signed inner (facing (l :: ts) n) =
      .ok (.literal ⟨kind, l.text⟩, facing ts n) := by
  obtain ⟨unsigned, unopened⟩ := TerminalKind.unaryOperator?_of_isLeaf leaf
  have noCall : (facing ts n).isAt (.mark .leftParen) = false := by
    cases ts with
    | nil => rfl
    | cons r ts => simpa using notCalled r rfl
  simp [operandReader, primaryReader, Cursor.terminal?, hl, unsigned, unopened, noCall,
    TerminalKind.leaf?_tokenKind leaf]

/-- What closes a parenthesis or bracket, or sets items apart, ends an expression. -/
theorem stops_of_closer {r : Lexeme} (h : r.kind ∈ [TokenKind.mark .rightParen,
    .mark .rightBracket, .mark .comma, .mark .semicolon]) :
    Stops 0 (r :: rest) ∧ NotCalled (r :: rest) := by
  simp only [List.mem_cons, List.not_mem_nil, or_false] at h
  rcases h with h | h | h | h <;> simp [Stops, NotCalled, h, TokenKind.binaryOperator?]

end Cases

theorem readsOperand_literal {leaf : Terminal} (h : (literal leaf).Canonical) :
    ReadsOperand (.literal leaf) := by
  rw [Canonical] at h
  intro levels us rest n htokens notCalled
  rw [lexemes] at htokens
  obtain ⟨l, us, rfl, hkind, htext, hus⟩ := exists_cons_of_map_token htokens
  obtain rfl : us = [] := by simpa using hus
  apply Reader.Fits.of_eq
  rw [List.singleton_append, operandReader_leaf h.2 hkind notCalled, htext]
  rfl

theorem readsOperand_paren {inner : Expression} (h : ReadsChain inner) :
    ReadsOperand (.paren inner) := by
  intro levels us rest n htokens _
  rw [lexemes] at htokens
  obtain ⟨l, us, rfl, hl, _, hus⟩ := exists_cons_of_map_token htokens
  obtain ⟨vs, ws, rfl, hvs, hws⟩ := exists_append_of_map_token hus
  obtain ⟨r, ws, rfl, hr, _, hnil⟩ := exists_cons_of_map_token hws
  obtain rfl : ws = [] := by simpa using hnil
  obtain ⟨stops, notCalled⟩ : Stops 0 (r :: rest) ∧ NotCalled (r :: rest) :=
    stops_of_closer (by simp [hr, ofMark])
  have inside := h.binaryAt (n := n) levels hvs notCalled (by simp) stops
  have cursor : facing (l :: (vs ++ [r]) ++ rest) n = facing (l :: (vs ++ r :: rest)) n := by simp
  have closes : Reader.expect (.mark .rightParen) (facing (r :: rest) n) =
      .ok (r.text, facing rest n) := Reader.expect_facing_cons hr
  rw [cursor, operandReader_paren hl]
  apply (inside.bind _).trans_eq
  simp [closes, pure, Except.pure]

theorem readsOperand_unary {op : Terminal} {operand : Expression}
    (h : (unary op operand).Canonical) (ih : ReadsOperand operand) :
    ReadsOperand (.unary op operand) := by
  rw [Canonical] at h
  intro levels us rest n htokens notCalled
  rw [lexemes] at htokens
  obtain ⟨l, us, rfl, hl, htext, hus⟩ := exists_cons_of_map_token htokens
  have sign : l.kind.unaryOperator? = some op.kind :=
    hl ▸ TerminalKind.unaryOperator?_tokenKind h.2.1
  have inside : Reader.Fits levels (1 + operand.nestingBelow)
      (signedAt levels (facing (us ++ rest) n)) (.ok (operand, facing rest n)) := by
    cases levels with
    | zero =>
        rw [signedAt]
        exact Reader.Fits.tooDeep _
    | succ levels =>
        rw [signedAt]
        exact (ih levels us rest n hus notCalled).succ
  rw [List.cons_append, operandReader_sign sign, nestingBelow, htext]
  exact inside.bind _

/-- The operators of a canonical expression are taken up one after the other. -/
theorem readsChain_binary {lhs rhs : Expression} {op : Terminal} (h : (binary lhs op rhs).Canonical)
    (left : ReadsChain lhs) (right : ReadsChain rhs) : ReadsChain (.binary lhs op rhs) := by
  rw [Canonical] at h
  obtain ⟨_, isOperator, hlhs, hrhs, fitsLeft, fitsRight⟩ := h
  intro levels least us rest n htokens notCalled root
  obtain ⟨strong, stops⟩ := root op.kind (by simp [rootOperator?])
  rw [lexemes] at htokens
  obtain ⟨vs, ws, rfl, hvs, hws⟩ := exists_append_of_map_token htokens
  obtain ⟨l, ws, rfl, hl, htext, hws⟩ := exists_cons_of_map_token hws
  have role : l.kind.binaryOperator? = some op.kind :=
    hl ▸ TerminalKind.binaryOperator?_tokenKind isOperator
  have before : Reader.Fits levels lhs.nestingBelow _ _ :=
    left levels least vs (l :: ws ++ rest) n hvs (by
      intro m hm
      obtain rfl : m = l := by simpa [eq_comm] using hm
      intro opens
      rw [opens] at role
      simp [TokenKind.binaryOperator?] at role) (by
      intro o ho
      obtain ⟨notPower, level⟩ := fitsLeft o ho
      have levelLeft := operatorLevel_rootOperator? hlhs ho
      refine ⟨?_, ?_⟩
      · rw [TerminalKind.precedence_eq] at strong ⊢
        omega
      · intro m hm o' ho'
        obtain rfl : m = l := by simpa [eq_comm] using hm
        rw [role, Option.mem_some_iff] at ho'
        rw [← ho', TerminalKind.fitsLeft_iff levelLeft]
        exact ⟨notPower, level⟩)
  have after := right.binaryAt (n := n) levels hws notCalled (by
      intro o ho
      rw [TerminalKind.fitsRight_iff isOperator]
      exact fitsRight o ho) stops
  have step : Reader.Fits levels (1 + rhs.nestingBelow)
      (operatorStep (binaryAt levels) least lhs (facing (l :: ws ++ rest) n))
      (.ok (some (.binary lhs op rhs, facing rest n))) := by
    rw [List.cons_append, operatorStep_operator role strong, htext]
    exact after.bind _
  have shorter : rest.length < (l :: ws ++ rest).length := by
    simp only [List.length_append, List.length_cons]
    omega
  rw [nestingBelow, List.append_assoc]
  exact before.trans (step.repeatFrom shorter)

/-! ### Lists -/

/-- The list ends: a parenthesis or bracket closes. -/
def Closes (rest : List Lexeme) : Prop :=
  ∃ r rest', rest = r :: rest' ∧ r.kind ∈ [TokenKind.mark .rightParen, .mark .rightBracket]

theorem stops_of_closes {rest : List Lexeme} (h : Closes rest) :
    Stops 0 rest ∧ NotCalled rest := by
  obtain ⟨r, rest, rfl, hr⟩ := h
  apply stops_of_closer
  simp only [List.mem_cons, List.not_mem_nil, or_false] at hr ⊢
  rcases hr with hr | hr
  · exact .inl hr
  · exact .inr (.inl hr)

/-- The items of a list behind the first are read one after the other. -/
theorem others_complete (levels : Nat) (done : List Expression) {others : List Expression}
    (h : ∀ e ∈ others, ReadsChain e) {us rest : List Lexeme} {n : Nat}
    (htokens : us.map token = (others.flatMap fun e => ofMark .comma :: e.lexemes).map token)
    (closes : Closes rest) :
    Reader.Fits levels (nestingAll others)
      (Reader.repeatFrom (Reader.nextItem (binaryAt levels 0)) done (facing (us ++ rest) n))
      (.ok (others.reverse ++ done, facing rest n)) := by
  induction others generalizing us done with
  | nil =>
      obtain rfl : us = [] := by simpa using htokens
      refine Reader.Fits.of_eq (Reader.repeatFrom_of_none ?_)
      obtain ⟨r, rest, rfl, hr⟩ := closes
      simp only [List.mem_cons, List.not_mem_nil, or_false] at hr
      rcases hr with hr | hr <;> simp [Reader.nextItem, hr, pure, Except.pure]
  | cons e others ih =>
      rw [List.flatMap_cons] at htokens
      obtain ⟨l, us, rfl, hl, _, hus⟩ := exists_cons_of_map_token htokens
      obtain ⟨vs, ws, rfl, hvs, hws⟩ := exists_append_of_map_token hus
      have comma : l.kind = .mark .comma := hl
      have ends : Stops 0 (ws ++ rest) ∧ NotCalled (ws ++ rest) := by
        cases others with
        | nil =>
            obtain rfl : ws = [] := by simpa using hws
            exact stops_of_closes closes
        | cons e' others =>
            rw [List.flatMap_cons] at hws
            obtain ⟨r, ws, rfl, hr, _⟩ := exists_cons_of_map_token hws
            exact stops_of_closer (by simp [hr, ofMark])
      have item := (h e (by simp)).binaryAt (n := n) levels hvs ends.2 (by simp) ends.1
      have step : Reader.Fits levels e.nesting
          (Reader.nextItem (binaryAt levels 0) done (facing (l :: (vs ++ ws) ++ rest) n))
          (.ok (some (e :: done, facing (ws ++ rest) n))) := by
        simp only [Reader.nextItem, List.cons_append, isAt_facing_cons, comma, decide_true, if_true,
          next_facing_cons, List.append_assoc]
        exact item.bind _
      have shorter : (ws ++ rest).length < (l :: (vs ++ ws) ++ rest).length := by
        simp only [List.length_append, List.length_cons]
        omega
      have further := ih (e :: done) (fun e' he' => h e' (List.mem_cons_of_mem _ he')) hws
      rw [nestingAll]
      refine (step.repeatFrom shorter).trans (further.trans_eq ?_)
      simp

/-- The first lexeme of a canonical expression closes nothing. -/
theorem exists_opening_lexeme {e : Expression} (h : e.Canonical) :
    ∃ l ls, e.lexemes = l :: ls ∧
      l.kind ∉ [TokenKind.mark .rightParen, .mark .rightBracket] := by
  cases e with
  | binary lhs op rhs =>
      rw [Canonical] at h
      obtain ⟨l, ls, hlexemes, free⟩ := exists_opening_lexeme h.2.2.1
      exact ⟨l, _, by rw [lexemes, hlexemes, List.cons_append], free⟩
  | literal leaf =>
      rw [Canonical] at h
      refine ⟨_, _, by rw [lexemes], ?_⟩
      have isLeaf := h.2
      revert isLeaf
      show leaf.kind.isLeaf = true → leaf.kind.tokenKind ∉ _
      cases leaf.kind <;> decide
  | paren inner => exact ⟨_, _, by rw [lexemes], by simp [ofMark]⟩
  | unary op operand =>
      rw [Canonical] at h
      refine ⟨_, _, by rw [lexemes], ?_⟩
      have isSign := h.2.1
      revert isSign
      show op.kind.isSign = true → op.kind.tokenKind ∉ _
      cases op.kind <;> decide
  | call name arguments => exact ⟨_, _, by rw [lexemes], by simp⟩

/-- A list of expressions is read back from its tokens where it is closed behind them. -/
def ReadsList (items : List Expression) : Prop :=
  ∀ levels us rest n, us.map token = (lexemesAll items).map token → Closes rest →
    Reader.Fits levels (nestingAll items)
      (listReader (binaryAt levels 0) (facing (us ++ rest) n)) (.ok (items, facing rest n))

theorem readsList_of_forall {items : List Expression} (canonical : CanonicalAll items)
    (h : ∀ e ∈ items, ReadsChain e) : ReadsList items := by
  intro levels us rest n htokens closes
  have closed : ((facing rest n).isAt (.mark .rightParen) ||
      (facing rest n).isAt (.mark .rightBracket)) = true := by
    obtain ⟨r, rest, rfl, hr⟩ := closes
    simpa using hr
  cases items with
  | nil =>
      obtain rfl : us = [] := by simpa [lexemesAll] using htokens
      apply Reader.Fits.of_eq
      rw [listReader, List.nil_append, if_pos closed]
  | cons e others =>
      have hsplit : us.map token =
          (e.lexemes ++ others.flatMap fun e => ofMark .comma :: e.lexemes).map token := by
        rw [htokens, map_token_lexemesAll, List.map_append, List.map_flatMap]
        rfl
      obtain ⟨vs, ws, rfl, hvs, hws⟩ := exists_append_of_map_token hsplit
      have ends : Stops 0 (ws ++ rest) ∧ NotCalled (ws ++ rest) := by
        cases others with
        | nil =>
            obtain rfl : ws = [] := by simpa using hws
            exact stops_of_closes closes
        | cons e' others =>
            rw [List.flatMap_cons] at hws
            obtain ⟨r, ws, rfl, hr, _⟩ := exists_cons_of_map_token hws
            exact stops_of_closer (by simp [hr, ofMark])
      have first := (h e (by simp)).binaryAt (n := n) levels hvs ends.2 (by simp) ends.1
      have further := others_complete (n := n) levels [e]
        (fun e' he' => h e' (List.mem_cons_of_mem _ he')) hws closes
      have opens : ((facing (vs ++ ws ++ rest) n).isAt (.mark .rightParen) ||
          (facing (vs ++ ws ++ rest) n).isAt (.mark .rightBracket)) = false := by
        obtain ⟨m, ms, hm, free⟩ := exists_opening_lexeme canonical.1
        rw [hm] at hvs
        obtain ⟨l, vs, rfl, hl, _⟩ := exists_cons_of_map_token hvs
        rw [← hl] at free
        simpa using free
      rw [listReader, opens, nestingAll, List.append_assoc]
      apply (first.bind _).trans
      apply (further.bind _).trans_eq
      simp [pure, Except.pure]

theorem readsOperand_call {name : String} {arguments : List Expression}
    (h : ReadsList arguments) : ReadsOperand (.call name arguments) := by
  intro levels us rest n htokens _
  rw [lexemes] at htokens
  obtain ⟨l, us, rfl, hl, htext, hus⟩ := exists_cons_of_map_token htokens
  obtain ⟨p, us, rfl, hp, _, hus⟩ := exists_cons_of_map_token hus
  obtain ⟨vs, ws, rfl, hvs, hws⟩ := exists_append_of_map_token hus
  obtain ⟨r, ws, rfl, hr, _, hnil⟩ := exists_cons_of_map_token hws
  obtain rfl : ws = [] := by simpa using hnil
  have inside := h levels vs (r :: rest) n hvs ⟨r, rest, rfl, by simp [hr, ofMark]⟩
  have cursor : facing (l :: p :: (vs ++ [r]) ++ rest) n = facing (l :: p :: (vs ++ r :: rest)) n := by
    simp
  have closes : Reader.expect (.mark .rightParen) (facing (r :: rest) n) =
      .ok (r.text, facing rest n) := Reader.expect_facing_cons hr
  rw [cursor, operandReader_call hl hp, nestingBelow]
  apply (inside.bind _).trans_eq
  simp [closes, htext, pure, Except.pure]

/-! ### Whole expressions -/

mutual

/-- A canonical expression is read as an operand if it is one, and as a chain in any case. -/
theorem reads_of_canonical (e : Expression) (h : e.Canonical) :
    (e.rootOperator? = none → ReadsOperand e) ∧ ReadsChain e := by
  cases e with
  | binary lhs op rhs =>
      refine ⟨by simp [rootOperator?], readsChain_binary h ?_ ?_⟩
      · rw [Canonical] at h
        exact (reads_of_canonical lhs h.2.2.1).2
      · rw [Canonical] at h
        exact (reads_of_canonical rhs h.2.2.2.1).2
  | literal leaf => exact ⟨fun _ => readsOperand_literal h, (readsOperand_literal h).chain⟩
  | paren inner =>
      rw [Canonical] at h
      have operand := readsOperand_paren (reads_of_canonical inner h).2
      exact ⟨fun _ => operand, operand.chain⟩
  | unary op operand =>
      have reads : ReadsOperand operand := by
        rw [Canonical] at h
        exact (reads_of_canonical operand h.2.2.2).1 h.2.2.1
      exact ⟨fun _ => readsOperand_unary h reads, (readsOperand_unary h reads).chain⟩
  | call name arguments =>
      rw [Canonical] at h
      have operand : ReadsOperand (.call name arguments) :=
        readsOperand_call (readsList_of_forall h.2 (reads_of_canonicalAll arguments h.2))
      exact ⟨fun _ => operand, operand.chain⟩

/-- Every expression of a list of canonical ones is read as a chain. -/
theorem reads_of_canonicalAll (items : List Expression) (h : CanonicalAll items) :
    ∀ e ∈ items, ReadsChain e := by
  cases items with
  | nil => simp
  | cons first others =>
      rw [CanonicalAll] at h
      intro e he
      rcases List.mem_cons.mp he with hfirst | he
      · rw [hfirst]
        exact (reads_of_canonical first h.1).2
      · exact reads_of_canonicalAll others h.2 e he

end

/-- A canonical expression is read back from its tokens, before anything that ends an expression, if
as many levels are left as it takes, and is else refused as nested too deep. -/
theorem reader_complete {e : Expression} (h : e.Canonical) (levels : Nat) {us rest : List Lexeme}
    {n : Nat} (htokens : us.map token = e.lexemes.map token) (notCalled : NotCalled rest)
    (stops : Stops 0 rest) :
    Reader.Fits levels e.nesting (reader levels (facing (us ++ rest) n))
      (.ok (e, facing rest n)) :=
  (reads_of_canonical e h).2.binaryAt levels htokens notCalled (by simp) stops

/-- A list of canonical expressions is read back from its tokens where it is closed behind them. -/
theorem listReader_complete {items : List Expression} (h : CanonicalAll items) (levels : Nat)
    {us rest : List Lexeme} {n : Nat} (htokens : us.map token = (lexemesAll items).map token)
    (closes : Closes rest) :
    Reader.Fits levels (nestingAll items) (listReader (reader levels) (facing (us ++ rest) n))
      (.ok (items, facing rest n)) :=
  readsList_of_forall h (reads_of_canonicalAll items h) levels us rest n htokens closes

end Expression

end QasmDiagram
