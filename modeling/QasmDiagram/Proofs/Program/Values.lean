/-
Module: QasmDiagram.Proofs.Program.Values
Purpose: Which expressions of a program have a value, told from their tokens alone. An expression of
  the grammar is determined by its tokens; so those with a value are the ones written as a chain of
  numbers and pi, no longer than the limit on depth allows, and the chain gives the value and the
  symbols.
Trusted boundary: none
Main exports: Expression.Canonical.eq_of_tokens, Expression.Canonical.eq_tree_of_tokens,
  Expression.Canonical.chain_iff, Program.values_are_products
-/
import QasmDiagram.Proofs.Expression.Products
import QasmDiagram.Proofs.Program.Occurrences

namespace QasmDiagram

open Lexeme Cursor

namespace Expression

variable {e e' : Expression}

/-- A canonical expression is determined by its tokens: it is what is read from them. -/
theorem Canonical.eq_of_tokens (h : e.Canonical) (h' : e'.Canonical) (same : e.tokens = e'.tokens) :
    e = e' := by
  have enough : e.Admitted (max e.nesting e'.nesting) := ⟨h, Nat.le_max_left _ _⟩
  have enough' : e'.Admitted (max e.nesting e'.nesting) := ⟨h', Nat.le_max_right _ _⟩
  have closes : (ofMark .semicolon).kind ∈ closers := by decide
  have read := @Admitted.again _ _ e.lexemes [] 0 enough _ closes rfl
  have read' := @Admitted.again _ _ e.lexemes [] 0 enough' _ closes same
  rw [read] at read'
  cases read'
  rfl

/-- Each lexeme that prints a canonical expression is a token. -/
theorem Canonical.shapeOf_of_mem (h : e.Canonical) {l : Lexeme} (hl : l ∈ e.lexemes) :
    Rule.shapeOf? Rule.table l.text.toList = some (.token l.kind) := by
  have sourced : Sourced e.lexemes := ⟨[], spelled_lexemes h nofun⟩
  obtain ⟨front, behind, hsplit⟩ := List.append_of_mem hl
  rw [hsplit] at sourced
  exact sourced.of_append_right.shapeOf

end Expression

namespace Product

open Expression

variable {e : Expression} {p : Product}

theorem mem_tokens_of_mem_factors {f : Factor} (h : f ∈ p.factors) : f.token ∈ p.tokens := by
  rcases List.mem_cons.mp h with rfl | later
  · exact List.mem_cons_self
  · obtain ⟨next, hnext, rfl⟩ := List.mem_map.mp later
    exact List.mem_cons_of_mem _ (List.mem_flatMap.mpr ⟨next, hnext, by simp⟩)

/-- The factors of a chain that is written like a canonical expression are tokens. -/
theorem isLexeme_of_tokens (h : e.Canonical) (same : e.tokens = p.tokens) :
    ∀ f ∈ p.factors, f.leaf.IsLexeme := by
  intro f hf
  have written : f.token ∈ e.lexemes.map token := by
    rw [show e.lexemes.map token = p.tokens from same]
    exact mem_tokens_of_mem_factors hf
  obtain ⟨l, hl, htoken⟩ := List.mem_map.mp written
  have shape := h.shapeOf_of_mem hl
  have kind : l.kind = f.token.1 := congrArg Prod.fst htoken
  have text : l.text = f.token.2 := congrArg Prod.snd htoken
  rw [kind, text] at shape
  cases f <;> exact shape

end Product

namespace Expression

variable {e : Expression} {p : Product}

/-- A canonical expression that is written like a chain is that chain. -/
theorem Canonical.eq_tree_of_tokens (h : e.Canonical) (same : e.tokens = p.tokens) : e = p.tree :=
  h.eq_of_tokens (p.canonical_tree (Product.isLexeme_of_tokens h same))
    (same.trans p.tokens_tree.symm)

/-- A canonical expression is multiplicative and not too deep exactly if it is written as a chain
with no more joints than the limit on depth allows. -/
theorem Canonical.chain_iff (h : e.Canonical) :
    e.Multiplicative ∧ e.height ≤ expressionDepthLimit ↔
      ∃ p : Product, e.tokens = p.tokens ∧ p.others.length ≤ 255 := by
  constructor
  · rintro ⟨multiplicative, shallow⟩
    obtain ⟨p, rfl⟩ := h.exists_product multiplicative
    rw [p.height_tree, expressionDepthLimit] at shallow
    exact ⟨p, p.tokens_tree, Nat.le_of_succ_le_succ shallow⟩
  · rintro ⟨p, same, short⟩
    obtain rfl := h.eq_tree_of_tokens same
    refine ⟨p.multiplicative_tree, ?_⟩
    rw [p.height_tree, expressionDepthLimit]
    exact Nat.succ_le_succ short

/-- A computation behind the check of the depth succeeds where both do. -/
theorem checkDepth_bind_eq_ok_iff {α : Type} {x : Except LowerError α} {a : α} :
    (e.checkDepth >>= fun _ => x) = .ok a ↔ e.height ≤ expressionDepthLimit ∧ x = .ok a := by
  rw [Except.bind_eq_ok_iff, ← checkDepth_eq_ok_iff]
  constructor
  · rintro ⟨⟨⟩, deep, hx⟩
    exact ⟨deep, hx⟩
  · rintro ⟨deep, hx⟩
    exact ⟨(), deep, hx⟩

/-- A canonical expression has a value exactly if it is written as a chain. -/
theorem Canonical.exists_evaluate_iff (h : e.Canonical) : (∃ v, e.evaluate = .ok v) ↔
    ∃ p : Product, e.tokens = p.tokens ∧ p.others.length ≤ 255 := by
  rw [← h.chain_iff, ← exists_value_iff h]
  simp only [evaluate, checkDepth_bind_eq_ok_iff, exists_and_left]
  exact and_comm

/-- A canonical expression has symbols exactly if it is written as a chain. -/
theorem Canonical.exists_symbolic_iff (h : e.Canonical) :
    (∃ text, e.angleText .symbolic = .ok text) ↔
      ∃ p : Product, e.tokens = p.tokens ∧ p.others.length ≤ 255 := by
  rw [← h.chain_iff, ← e.exists_symbols_iff]
  simp only [angleText, checkDepth_bind_eq_ok_iff, exists_and_left]
  exact and_comm

/-- The value of an expression that is written as a chain is that of the chain. -/
theorem Canonical.evaluate_of_tokens (h : e.Canonical) (same : e.tokens = p.tokens)
    (short : p.others.length ≤ 255) : ∃ v, p.value = .ok v ∧ e.evaluate = .ok v := by
  obtain ⟨v, hv⟩ := h.exists_evaluate_iff.mpr ⟨p, same, short⟩
  have value := (checkDepth_bind_eq_ok_iff.mp hv).2
  obtain rfl := h.eq_tree_of_tokens same
  exact ⟨v, p.value_tree ▸ value, hv⟩

/-- What is shown of an expression in symbols is shown token by token, and with the words put back
for the symbols it is the text of the expression. -/
theorem Canonical.symbolic_text (h : e.Canonical) {text : String}
    (shown : e.angleText .symbolic = .ok text) :
    text = String.join (e.tokens.map tokenSymbol) ∧ withoutSymbols text = e.render := by
  obtain ⟨p, same, _⟩ := h.exists_symbolic_iff.mp ⟨text, shown⟩
  have symbols := (checkDepth_bind_eq_ok_iff.mp shown).2
  have lexemes := Product.isLexeme_of_tokens h same
  obtain rfl := h.eq_tree_of_tokens same
  rw [p.symbols_tree] at symbols
  cases symbols
  refine ⟨by rw [same, p.symbols_eq_join], ?_⟩
  rw [Product.withoutSymbols_symbols lexemes, ← String.toList_inj, ← written_lexemes, toList_render]

end Expression

namespace Program

/-- Which expressions of a program have a value is told by their tokens, a stretch of those of the
source: the chains of at most 255 joints, where decimal integers, floating-point literals and pi are
multiplied and divided. The value is that of the chain from left to right. Exactly these have a text
in symbols, which shows token by token what is written; with the words put back for the symbols it
reads as the same expression. -/
theorem values_are_products {source : String} {p : Program} (h : ofText source = .ok p)
    {scopes : Nat} {e : Expression} (he : (scopes, e) ∈ p.expressions) :
    (∃ tokens, Lexeme.tokensOf source = .ok tokens ∧ e.tokens <:+: tokens) ∧
    ((∃ v, e.evaluate = .ok v) ↔
      ∃ chain : Product, e.tokens = chain.tokens ∧ chain.others.length ≤ 255) ∧
    (∀ chain : Product, e.tokens = chain.tokens → chain.others.length ≤ 255 →
      ∃ v, chain.value = .ok v ∧ e.evaluate = .ok v) ∧
    ((∃ text, e.angleText .symbolic = .ok text) ↔ ∃ v, e.evaluate = .ok v) ∧
    ∀ text, e.angleText .symbolic = .ok text →
      text = String.join (e.tokens.map tokenSymbol) ∧
      ofText ("rz(" ++ withoutSymbols text ++ ") q;") = .ok (enclosedRotation 0 e) := by
  obtain ⟨canonical, fits⟩ := canonical_of_ofText h he
  refine ⟨tokens_infix_of_mem_expressions h he, canonical.exists_evaluate_iff, ?_, ?_, ?_⟩
  · intro chain same short
    exact canonical.evaluate_of_tokens same short
  · rw [canonical.exists_symbolic_iff, canonical.exists_evaluate_iff]
  · intro text shown
    obtain ⟨joined, back⟩ := canonical.symbolic_text shown
    refine ⟨joined, ?_⟩
    have source : rotationSource 0 e = "rz(" ++ e.render ++ ") q;" := by
      simp [rotationSource]
    rw [back, ← source]
    exact (ofText_rotationSource canonical 0).1 (by omega)

/-- Two times pi over a half. -/
def overHalf : Product :=
  ⟨.integer "2", [(.times, .pi), (.dividedBy, .float "0.5")]⟩

theorem values_are_products_overHalf :
    ofText "rz(2*pi/0.5) q;" = .ok (enclosedRotation 0 overHalf.tree) ∧
      (0, overHalf.tree) ∈ (enclosedRotation 0 overHalf.tree).expressions ∧
      (∃ v, overHalf.value = .ok v ∧ overHalf.tree.evaluate = .ok v) ∧
      overHalf.tree.angleText .symbolic = .ok "2×π/0.5" ∧
      ofText ("rz(" ++ withoutSymbols "2×π/0.5" ++ ") q;") =
        .ok (enclosedRotation 0 overHalf.tree) := by
  have read : ofText "rz(2*pi/0.5) q;" = .ok (enclosedRotation 0 overHalf.tree) := by
    decide +kernel
  have inside : (0, overHalf.tree) ∈ (enclosedRotation 0 overHalf.tree).expressions := by
    decide +kernel
  have shown : overHalf.tree.angleText .symbolic = .ok "2×π/0.5" := by decide +kernel
  obtain ⟨_, _, value, _, symbols⟩ := values_are_products read inside
  exact ⟨read, inside, value overHalf overHalf.tokens_tree (by decide), shown,
    (symbols _ shown).2⟩

end Program

end QasmDiagram
