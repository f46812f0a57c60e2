/-
Module: QasmDiagram.Proofs.Expression.Products
Purpose: Chains of numbers and pi with multiplication and division between them. A canonical
  expression made of such parts has no parentheses, so it is a chain from left to right: this is its
  tree, its tokens, its value and its symbols, and from the symbols its text is found again.
Trusted boundary: none
Main exports: Product, Product.tokens_tree, Product.value_tree, Product.symbols_tree,
  Product.height_tree, Expression.Canonical.exists_product
-/
import QasmDiagram.Proofs.Expression.Multiplicative

namespace QasmDiagram

/-! ### Chains of factors -/

/-- A factor as it is written: a decimal integer, a floating-point literal, or pi. -/
inductive Factor where
  | integer (text : String)
  | float (text : String)
  | pi
deriving Repr, Inhabited, DecidableEq

namespace Factor

/-- The token that writes a factor. -/
def token : Factor → TokenKind × String
  | .integer text => (.integer .decimal, text)
  | .float text => (.float, text)
  | .pi => (.identifier, "pi")

/-- The value of a factor. -/
def value : Factor → Except LowerError Binary64
  | .integer text | .float text => literalValue text
  | .pi => .ok .pi

/-- The text that shows a factor. -/
def symbol : Factor → String
  | .integer text | .float text => text
  | .pi => "π"

/-- The leaf of a factor. -/
def leaf : Factor → Terminal
  | .integer text => ⟨.decimalInteger, text⟩
  | .float text => ⟨.float, text⟩
  | .pi => ⟨.identifier, "pi"⟩

end Factor

/-- What stands between two factors. -/
inductive Joint where
  | times
  | dividedBy
deriving Repr, Inhabited, DecidableEq

namespace Joint

/-- The token that writes a joint. -/
def token : Joint → TokenKind × String
  | .times => (.mark .star, "*")
  | .dividedBy => (.mark .slash, "/")

/-- The operation of a joint. -/
def apply : Joint → Binary64 → Binary64 → Binary64
  | .times => Binary64.mul
  | .dividedBy => Binary64.div

/-- The text that shows a joint. -/
def symbol : Joint → String
  | .times => "×"
  | .dividedBy => "/"

/-- The operator of a joint. -/
def operator : Joint → Terminal
  | .times => ⟨.asterisk, "*"⟩
  | .dividedBy => ⟨.slash, "/"⟩

theorem isLexeme_operator (j : Joint) : j.operator.IsLexeme := by
  cases j <;> decide

theorem operatorLevel (j : Joint) : j.operator.kind.operatorLevel = 2 := by
  cases j <;> rfl

theorem operator_ne_power (j : Joint) : j.operator.kind ≠ .doubleAsterisk := by
  cases j <;> decide

end Joint

/-- A chain of factors, each but the first with the joint before it. -/
structure Product where
  first : Factor
  others : List (Joint × Factor)
deriving Repr, Inhabited, DecidableEq

namespace Product

/-- The tokens of a chain, as they stand in a row. -/
def tokens (p : Product) : List (TokenKind × String) :=
  p.first.token :: p.others.flatMap fun next => [next.1.token, next.2.token]

/-- The value of a chain: from left to right, each factor is joined to what stands before it. -/
def value (p : Product) : Except LowerError Binary64 := do
  let start ← p.first.value
  p.others.foldlM (fun left next => return next.1.apply left (← next.2.value)) start

/-- The text that shows a chain. -/
def symbols (p : Product) : String :=
  p.first.symbol ++ String.join (p.others.map fun next => next.1.symbol ++ next.2.symbol)

/-- Joins one more factor to an expression. -/
def join (lhs : Expression) (next : Joint × Factor) : Expression :=
  .binary lhs next.1.operator (.literal next.2.leaf)

/-- The expression of a chain. -/
def tree (p : Product) : Expression :=
  p.others.foldl join (.literal p.first.leaf)

/-- Every factor of a chain. -/
def factors (p : Product) : List Factor :=
  p.first :: p.others.map Prod.snd

end Product

namespace Factor

theorem tokens_leaf (f : Factor) :
    (Expression.literal f.leaf).lexemes.map Lexeme.token = [f.token] := by
  cases f <;> rfl

theorem value_leaf (f : Factor) : (Expression.literal f.leaf).value = f.value := by
  cases f <;> rfl

theorem symbols_leaf (f : Factor) : (Expression.literal f.leaf).symbols = .ok f.symbol := by
  cases f <;> rfl

end Factor

namespace Product

open Expression

variable (others : List (Joint × Factor)) (e : Expression)

theorem tokens_foldl : (others.foldl join e).lexemes.map Lexeme.token =
    e.lexemes.map Lexeme.token ++ others.flatMap fun next => [next.1.token, next.2.token] := by
  induction others generalizing e with
  | nil => simp
  | cons next others ih =>
      obtain ⟨j, f⟩ := next
      have operator : j.operator.lexeme.token = j.token := by cases j <;> rfl
      rw [List.foldl_cons, ih, join, lexemes, List.map_append, List.map_cons, f.tokens_leaf, operator]
      simp

theorem value_foldl : (others.foldl join e).value = (do
    let start ← e.value
    others.foldlM (fun left next => return next.1.apply left (← next.2.value)) start) := by
  induction others generalizing e with
  | nil => simp
  | cons next others ih =>
      obtain ⟨j, f⟩ := next
      rw [List.foldl_cons, ih, join, Expression.value, f.value_leaf]
      simp only [List.foldlM_cons, bind_assoc, pure_bind]
      refine bind_congr fun left => bind_congr fun right => ?_
      cases j <;> rfl

theorem symbols_foldl {text : String} (h : e.symbols = .ok text) :
    (others.foldl join e).symbols =
      .ok (text ++ String.join (others.map fun next => next.1.symbol ++ next.2.symbol)) := by
  induction others generalizing e text with
  | nil => simp [h]
  | cons next others ih =>
      obtain ⟨j, f⟩ := next
      have sign : operatorSign j.operator = .ok j.symbol := by cases j <;> rfl
      have joined : (join e (j, f)).symbols = .ok (text ++ j.symbol ++ f.symbol) := by
        rw [join, Expression.symbols, sign, h, f.symbols_leaf]
        rfl
      rw [List.foldl_cons, ih _ joined]
      simp [String.append_assoc]

theorem height_foldl : (others.foldl join e).height = e.height + others.length := by
  induction others generalizing e with
  | nil => simp
  | cons next others ih =>
      have positive : 0 < e.height := by
        rw [height_eq]
        omega
      rw [List.foldl_cons, ih, join, height, height, List.length_cons]
      omega

variable (p : Product)

/-- The tokens of a chain's expression are those of the chain. -/
theorem tokens_tree : p.tree.lexemes.map Lexeme.token = p.tokens := by
  rw [tree, tokens_foldl, p.first.tokens_leaf]
  rfl

/-- The value of a chain's expression is that of the chain. -/
theorem value_tree : p.tree.value = p.value := by
  rw [tree, value_foldl, p.first.value_leaf]
  rfl

/-- The symbols of a chain's expression are those of the chain. -/
theorem symbols_tree : p.tree.symbols = .ok p.symbols :=
  symbols_foldl _ _ p.first.symbols_leaf

/-- A chain's expression is as high as there are factors. -/
theorem height_tree : p.tree.height = p.others.length + 1 := by
  rw [tree, height_foldl, height, Nat.add_comm]

theorem multiplicative_literal (f : Factor) : Multiplicative (.literal f.leaf) := by
  cases f with
  | integer text => exact .number (.inl rfl)
  | float text => exact .number (.inr rfl)
  | pi => exact .pi

theorem multiplicative_foldl (h : e.Multiplicative) : (others.foldl join e).Multiplicative := by
  induction others generalizing e with
  | nil => exact h
  | cons next others ih =>
      obtain ⟨j, f⟩ := next
      apply ih
      refine .binary ?_ h (multiplicative_literal f)
      cases j with
      | times => exact .inl rfl
      | dividedBy => exact .inr rfl

theorem multiplicative_tree : p.tree.Multiplicative :=
  multiplicative_foldl _ _ (multiplicative_literal p.first)

theorem canonical_literal {f : Factor} (h : f.leaf.IsLexeme) : Canonical (.literal f.leaf) := by
  rw [Canonical]
  refine ⟨h, ?_⟩
  cases f <;> rfl

/-- A joint and a factor may stand behind any chain. -/
theorem canonical_join {next : Joint × Factor} (h : e.Canonical)
    (level : ∀ o ∈ e.rootOperator?, o.operatorLevel = 2) (factor : next.2.leaf.IsLexeme) :
    (join e next).Canonical ∧ ∀ o ∈ (join e next).rootOperator?, o.operatorLevel = 2 := by
  obtain ⟨j, f⟩ := next
  have root : (join e (j, f)).rootOperator? = some j.operator.kind := rfl
  rw [root, join, Canonical]
  refine ⟨⟨j.isLexeme_operator, by simp [j.operatorLevel], h, canonical_literal factor, ?_, nofun⟩, ?_⟩
  · intro o ho
    exact ⟨j.operator_ne_power, by rw [level o ho, j.operatorLevel]⟩
  · rintro _ ⟨⟩
    exact j.operatorLevel

theorem canonical_foldl (h : e.Canonical) (level : ∀ o ∈ e.rootOperator?, o.operatorLevel = 2)
    (factors : ∀ next ∈ others, next.2.leaf.IsLexeme) : (others.foldl join e).Canonical := by
  induction others generalizing e with
  | nil => exact h
  | cons next others ih =>
      obtain ⟨joined, level⟩ := canonical_join e h level (factors next (by simp))
      exact ih _ joined level fun next hnext => factors next (by simp [hnext])

/-- A chain of factors that are tokens is canonical. -/
theorem canonical_tree (h : ∀ f ∈ p.factors, f.leaf.IsLexeme) : p.tree.Canonical := by
  apply canonical_foldl
  · exact canonical_literal (h p.first (by simp [factors]))
  · exact nofun
  · intro next hnext
    exact h next.2 (List.mem_cons_of_mem _ (List.mem_map_of_mem hnext))

end Product

namespace Expression

open Product

/-- A multiplicative expression without an operator at its root is a factor. -/
theorem Multiplicative.exists_factor {e : Expression} (h : e.Multiplicative)
    (single : e.rootOperator? = none) : ∃ f : Factor, e = .literal f.leaf := by
  cases h with
  | @number leaf number =>
      obtain ⟨kind, text⟩ := leaf
      rcases number with hkind | hkind
      · exact ⟨.integer text, by rw [show kind = _ from hkind]; rfl⟩
      · exact ⟨.float text, by rw [show kind = _ from hkind]; rfl⟩
  | pi => exact ⟨.pi, rfl⟩
  | binary => cases single

theorem exists_joint {op : Terminal} (h : op.IsLexeme) (kind : op.kind = .asterisk ∨ op.kind = .slash) :
    ∃ j : Joint, op = j.operator := by
  obtain ⟨_, text⟩ := op
  rcases kind with hkind | hkind
  · cases hkind
    exact ⟨.times, congrArg _ (Lexeme.text_of_mark (l := ⟨.mark .star, text, "", 0⟩) h rfl)⟩
  · cases hkind
    exact ⟨.dividedBy, congrArg _ (Lexeme.text_of_mark (l := ⟨.mark .slash, text, "", 0⟩) h rfl)⟩

/-- A canonical multiplicative expression is a chain: to the right of such an operator stands
nothing but a factor, since what has such an operator itself would need parentheses there. -/
theorem Canonical.exists_product {e : Expression} (h : e.Canonical) (m : e.Multiplicative) :
    ∃ p : Product, e = p.tree := by
  cases e with
  | binary lhs op rhs =>
      rw [Canonical] at h
      obtain ⟨hop, _, hlhs, _, _, fits⟩ := h
      cases m with
      | binary kind mlhs mrhs =>
          obtain ⟨p, rfl⟩ := hlhs.exists_product mlhs
          obtain ⟨j, rfl⟩ := exists_joint hop kind
          have single : rhs.rootOperator? = none := by
            cases mrhs with
            | number _ => rfl
            | pi => rfl
            | @binary _ _ inner other =>
                have tighter := fits inner.kind rfl
                have level : inner.kind.operatorLevel = 2 := by
                  rcases other with other | other <;> rw [other] <;> rfl
                rw [if_neg j.operator_ne_power, j.operatorLevel, level] at tighter
                exact absurd tighter (Nat.lt_irrefl 2)
          obtain ⟨f, rfl⟩ := mrhs.exists_factor single
          exact ⟨⟨p.first, p.others ++ [(j, f)]⟩, by simp [tree, List.foldl_append, join]⟩
  | literal leaf =>
      obtain ⟨f, hf⟩ := m.exists_factor rfl
      exact ⟨⟨f, []⟩, hf⟩
  | paren inner => cases m
  | unary op operand => cases m
  | call name arguments => cases m

end Expression

/-! ### Texts in symbols -/

/-- The text that shows a token of a chain: pi and multiplication have symbols of their own, and all
else is shown as it is written. -/
def tokenSymbol : TokenKind × String → String
  | (.identifier, "pi") => "π"
  | (.mark .star, _) => "×"
  | (_, text) => text

/-- A text with the words put back for the symbols of pi and of multiplication. -/
def withoutSymbols (text : String) : String :=
  String.ofList (text.toList.flatMap fun c =>
    if c = 'π' then "pi".toList else if c = '×' then "*".toList else [c])

theorem withoutSymbols_append (a b : String) :
    withoutSymbols (a ++ b) = withoutSymbols a ++ withoutSymbols b := by
  simp [withoutSymbols]

/-- A text without symbols stays as it is. -/
theorem withoutSymbols_of_avoids {text : String} (h : ∀ c ∈ text.toList, c ≠ 'π' ∧ c ≠ '×') :
    withoutSymbols text = text := by
  have each : ∀ c ∈ text.toList,
      (if c = 'π' then "pi".toList else if c = '×' then "*".toList else [c]) = [c] := by
    intro c hc
    rw [if_neg (h c hc).1, if_neg (h c hc).2]
  rw [withoutSymbols, List.flatMap_def, List.map_congr_left each, ← List.flatMap_def,
    List.flatMap_singleton', String.ofList_toList]

theorem Rule.numerals_avoid_symbols :
    ∀ p ∈ numeralPatterns, CharSet.avoids p.classes ['π', '×'] = true := by
  decide

/-- The numbers of the lexical grammar have no symbols in them. -/
theorem withoutSymbols_numeral {text : String} {kind : TokenKind}
    (h : Rule.shapeOf? Rule.table text.toList = some (.token kind))
    (number : kind = .float ∨ kind = .integer .decimal) : withoutSymbols text = text := by
  obtain ⟨rule, hrule, hshape, matched⟩ := Rule.exists_matches_of_shapeOf? h
  have numeral := Rule.table_numerals rule hrule (by simpa [hshape] using number)
  have avoids := Rule.numerals_avoid_symbols _ numeral
  apply withoutSymbols_of_avoids
  intro c hc
  obtain ⟨set, hset, inside⟩ := Pattern.covers_classes matched c hc
  constructor
  · rintro rfl
    rw [CharSet.not_contains_of_avoids avoids hset (by simp)] at inside
    cases inside
  · rintro rfl
    rw [CharSet.not_contains_of_avoids avoids hset (by simp)] at inside
    cases inside

theorem Factor.symbol_eq (f : Factor) : f.symbol = tokenSymbol f.token := by
  cases f <;> rfl

theorem Factor.withoutSymbols_symbol {f : Factor} (h : f.leaf.IsLexeme) :
    withoutSymbols f.symbol = f.token.2 := by
  cases f with
  | integer text => exact withoutSymbols_numeral h (.inr rfl)
  | float text => exact withoutSymbols_numeral h (.inl rfl)
  | pi => decide

theorem Joint.symbol_eq (j : Joint) : j.symbol = tokenSymbol j.token := by
  cases j <;> rfl

theorem Joint.withoutSymbols_symbol (j : Joint) : withoutSymbols j.symbol = j.token.2 := by
  cases j <;> decide

namespace Product

/-- A chain is shown token by token. -/
theorem symbols_eq_join (p : Product) : p.symbols = String.join (p.tokens.map tokenSymbol) := by
  obtain ⟨first, others⟩ := p
  rw [symbols, tokens, List.map_cons, String.join_cons, ← first.symbol_eq]
  congr 1
  induction others with
  | nil => rfl
  | cons next others ih =>
      rw [List.map_cons, String.join_cons, ih, List.flatMap_cons, List.map_append,
        String.join_append, next.1.symbol_eq, next.2.symbol_eq]
      simp

theorem text_foldl (others : List (Joint × Factor)) (e : Expression) :
    (others.foldl join e).text = e.text ++ String.join (others.map fun next =>
      next.1.token.2 ++ next.2.token.2) := by
  induction others generalizing e with
  | nil => simp
  | cons next others ih =>
      obtain ⟨j, f⟩ := next
      have operator : j.operator.text = j.token.2 := by cases j <;> rfl
      have leaf : f.leaf.text = f.token.2 := by cases f <;> rfl
      rw [List.foldl_cons, ih, join, Expression.text, Expression.text, operator, leaf]
      simp [String.append_assoc]

/-- A chain of tokens is found again from its symbols. -/
theorem withoutSymbols_symbols {p : Product} (h : ∀ f ∈ p.factors, f.leaf.IsLexeme) :
    withoutSymbols p.symbols = p.tree.text := by
  obtain ⟨first, others⟩ := p
  have leaf : first.leaf.text = first.token.2 := by cases first <;> rfl
  rw [symbols, tree, text_foldl, withoutSymbols_append, Expression.text, leaf,
    Factor.withoutSymbols_symbol (h first (by simp [factors]))]
  congr 1
  have others_lexemes : ∀ next ∈ others, next.2.leaf.IsLexeme := fun next hnext =>
    h next.2 (List.mem_cons_of_mem _ (List.mem_map_of_mem hnext))
  clear h
  induction others with
  | nil => rfl
  | cons next others ih =>
      simp only [List.map_cons, String.join_cons, withoutSymbols_append]
      rw [next.1.withoutSymbols_symbol,
        Factor.withoutSymbols_symbol (others_lexemes next List.mem_cons_self),
        ih fun next hnext => others_lexemes next (List.mem_cons_of_mem _ hnext)]

end Product

end QasmDiagram
