/-
Module: QasmDiagram.Proofs.Boundary
Purpose: Where one token ends. A token stands as it is before a blank, a bracket, a comma or a
  semicolon; an operator does before the start of an operand, and an operand before an operator. A
  token that stands before some text keeps standing when what follows that text is exchanged.
Trusted boundary: none
Main exports: Rule.breaks, Rule.OpensBreak, Rule.stands_before_break, Rule.Longest.exchange,
  Rule.stands_mark, Rule.stands_bracket, Rule.stands_operand
-/
import QasmDiagram.Expression.Reader
import QasmDiagram.Proofs.Alphabet
import QasmDiagram.Proofs.Enclosure

namespace QasmDiagram

namespace Rule

open Pattern Segment

/-- The characters that end every token before them. -/
def breaks : List Char :=
  [' ', '\n', ',', ';', '(', ')', '[', ']']

/-- A text that is empty or starts with a break. -/
def OpensBreak (text : List Char) : Prop :=
  ∀ c ∈ text.head?, c ∈ breaks

theorem opensBreak_nil : OpensBreak [] := by
  simp [OpensBreak]

theorem opensBreak_cons {c : Char} {text : List Char} (h : c ∈ breaks) :
    OpensBreak (c :: text) := by
  simpa [OpensBreak] using h

/-! ### Breaks -/

/-- Behind its first character a text holds a break only if it may hold any character. -/
theorem table_breaks : ∀ rule ∈ table, rule.pattern ∈ enclosing ∨
    CharSet.avoids rule.pattern.later breaks = true := by
  decide

theorem enclosing_of_break {rule : Rule} (hrule : rule ∈ table) {a u : List Char} {d : Char}
    (ha : a ≠ []) (hd : d ∈ breaks) (h : rule.pattern.Matches (a ++ d :: u)) :
    rule.pattern ∈ enclosing := by
  rcases table_breaks rule hrule with inside | free
  · exact inside
  · cases a with
    | nil => exact absurd rfl ha
    | cons c a =>
        obtain ⟨set, hset, hc⟩ := covers_later h d (by simp)
        rw [CharSet.not_contains_of_avoids free hset hd] at hc
        simp at hc

/-- The rules of tokens match no empty text, and none that starts with a blank. -/
theorem table_tokens : ∀ rule ∈ table, rule.shape = .layout ∨ rule.shape = .invalid ∨
    (rule.pattern.acceptsEmpty = false ∧
      CharSet.avoids rule.pattern.opens " \t\r\n".toList = true) := by
  decide

/-- A token that starts with a slash goes on with equals signs only. -/
theorem table_slash : ∀ rule ∈ table, rule.shape = .layout ∨ rule.shape = .invalid ∨
    (∀ set ∈ rule.pattern.opens, set.contains '/' = false) ∨
      ∀ set ∈ rule.pattern.later, set = .of "=" := by
  decide

/-- A token that starts with a quote is a string. -/
theorem table_quote : ∀ rule ∈ table, rule.shape = .layout ∨ rule.shape = .invalid ∨
    (∀ set ∈ rule.pattern.opens, set.contains '"' = false) ∨ rule.pattern = closedString := by
  decide

section Token

variable {a : List Char} {kind : TokenKind}

/-- A token comes from a rule of tokens. -/
theorem exists_token_rule (h : shapeOf? table a = some (.token kind)) :
    ∃ rule ∈ table, rule.shape = .token kind ∧ rule.shape ≠ .layout ∧ rule.shape ≠ .invalid ∧
      rule.pattern.Matches a := by
  obtain ⟨rule, hrule, hshape, hmatch⟩ := exists_matches_of_shapeOf? h
  exact ⟨rule, hrule, hshape, by simp [hshape], by simp [hshape], hmatch⟩

/-- A token has at least one character. -/
theorem token_ne_nil (h : shapeOf? table a = some (.token kind)) : a ≠ [] := by
  obtain ⟨rule, hrule, _, notLayout, notInvalid, hmatch⟩ := exists_token_rule h
  rintro rfl
  rcases table_tokens rule hrule with h | h | ⟨nonempty, _⟩
  · exact notLayout h
  · exact notInvalid h
  · rw [acceptsEmpty_of_matches_nil hmatch] at nonempty
    simp at nonempty

/-- A token does not start with a blank. -/
theorem token_head_not_blank (h : shapeOf? table a = some (.token kind)) {c : Char}
    {t : List Char} (ha : a = c :: t) : c ∉ " \t\r\n".toList := by
  obtain ⟨rule, hrule, _, notLayout, notInvalid, hmatch⟩ := exists_token_rule h
  intro blank
  rcases table_tokens rule hrule with h | h | ⟨_, free⟩
  · exact notLayout h
  · exact notInvalid h
  · subst ha
    obtain ⟨set, hset, hc⟩ := covers_opens hmatch
    rw [CharSet.not_contains_of_avoids free hset blank] at hc
    simp at hc

/-- A token that starts with a slash is followed, if at all, by equals signs within itself. -/
theorem token_after_slash (h : shapeOf? table a = some (.token kind)) {t : List Char}
    (ha : a = '/' :: t) : ∀ d ∈ t, d = '=' := by
  obtain ⟨rule, hrule, _, notLayout, notInvalid, hmatch⟩ := exists_token_rule h
  subst ha
  rcases table_slash rule hrule with h | h | free | equals
  · exact absurd h notLayout
  · exact absurd h notInvalid
  · obtain ⟨set, hset, hc⟩ := covers_opens hmatch
    rw [free set hset] at hc
    simp at hc
  · intro d hd
    obtain ⟨set, hset, hc⟩ := covers_later hmatch d hd
    rw [equals set hset] at hc
    simpa using CharSet.contains_of_iff.mp hc

/-- A token that starts with a quote has its second quote at its end. -/
theorem token_after_quote (h : shapeOf? table a = some (.token kind)) {t : List Char}
    (ha : a = '"' :: t) : ∃ b, a = '"' :: (b ++ ['"']) := by
  obtain ⟨rule, hrule, _, notLayout, notInvalid, hmatch⟩ := exists_token_rule h
  rcases table_quote rule hrule with h | h | free | string
  · exact absurd h notLayout
  · exact absurd h notInvalid
  · subst ha
    obtain ⟨set, hset, hc⟩ := covers_opens hmatch
    rw [free set hset] at hc
    simp at hc
  · rw [string] at hmatch
    rcases matches_closedString.mp hmatch with ⟨b, hb, _⟩
    exact ⟨b, hb⟩

/-- A token followed by a break does not open a comment: that would take the first two characters
of the token, or the break. -/
theorem token_opens_no_comment (h : shapeOf? table a = some (.token kind)) {y d : Char}
    {u t : List Char} (hy : y ∈ breaks) (ht : a ++ y :: u = '/' :: d :: t)
    (hd : d = '/' ∨ d = '*') : False := by
  cases a with
  | nil => exact token_ne_nil h rfl
  | cons c a =>
      simp only [List.cons_append, List.cons.injEq] at ht
      obtain ⟨rfl, ht⟩ := ht
      cases a with
      | nil =>
          simp only [List.nil_append, List.cons.injEq] at ht
          rw [ht.1] at hy
          rcases hd with rfl | rfl <;> revert hy <;> decide
      | cons e a =>
          simp only [List.cons_append, List.cons.injEq] at ht
          have equals := token_after_slash h rfl e (by simp)
          rw [equals] at ht
          rcases hd with rfl | rfl <;> exact absurd ht.1 (by decide)

/-- A token followed by anything is no beginning of a string: its quotes stand inside. -/
theorem token_opens_no_string (h : shapeOf? table a = some (.token kind)) {y : Char}
    {u t s : List Char} (ht : a ++ y :: u = '"' :: (t ++ s)) (inside : '"' ∉ t)
    (hs : s = [] ∨ s = ['"']) : False := by
  cases a with
  | nil => exact token_ne_nil h rfl
  | cons c a =>
      simp only [List.cons_append, List.cons.injEq] at ht
      obtain ⟨rfl, ht⟩ := ht
      obtain ⟨b, hb⟩ := token_after_quote h rfl
      simp only [List.cons.injEq, true_and] at hb
      subst hb
      apply inside
      rcases hs with rfl | rfl
      · rw [List.append_nil] at ht
        simp [← ht]
      · rw [List.append_assoc, List.singleton_append] at ht
        rcases List.append_eq_append_iff.mp ht with ⟨m, hm, hv⟩ | ⟨m, hm, hv⟩
        · cases m with
          | nil => simp at hv
          | cons d m =>
              simp only [List.cons_append, List.cons.injEq] at hv
              rw [hm, hv.1]
              simp
        · have := congrArg List.length hv
          simp only [List.length_append, List.length_cons, List.length_nil] at this
          omega

/-- A token followed by a break is no beginning of an enclosing text. -/
theorem not_enclosing_of_token (h : shapeOf? table a = some (.token kind)) {p : Pattern}
    (hp : p ∈ enclosing) {y : Char} {u : List Char} (hy : y ∈ breaks) :
    ¬ p.Matches (a ++ y :: u) := by
  intro hmatch
  simp only [enclosing, List.mem_cons, List.not_mem_nil, or_false] at hp
  rcases hp with rfl | rfl | rfl | rfl | rfl | rfl
  · cases a with
    | nil => exact token_ne_nil h rfl
    | cons c a => exact token_head_not_blank h rfl ((matches_blanks.mp hmatch).2 c (by simp))
  · rcases matches_lineComment.mp hmatch with ⟨t, ht, _⟩
    exact token_opens_no_comment h hy ht (.inl rfl)
  · rcases matches_closedComment.mp hmatch with ⟨t, ht, _⟩
    exact token_opens_no_comment h hy ht (.inr rfl)
  · rcases matches_closedString.mp hmatch with ⟨t, ht, inside⟩
    exact token_opens_no_string h ht inside (.inr rfl)
  · rcases matches_openString.mp hmatch with ⟨t, ht, inside⟩
    exact token_opens_no_string h (s := []) (by simpa using ht) inside (.inl rfl)
  · rcases matches_openComment.mp hmatch with ⟨t, ht, _⟩
    exact token_opens_no_comment h hy ht (.inr rfl)

/-- A token stands before a break. -/
theorem stands_before_break (h : shapeOf? table a = some (.token kind)) {rest : List Char}
    (hrest : OpensBreak rest) : Stands a (.token kind) rest := by
  refine ⟨token_ne_nil h, h, ?_⟩
  intro u hu pre
  cases u with
  | nil => exact absurd rfl hu
  | cons d u =>
      have hd : d ∈ breaks := by
        obtain ⟨v, rfl⟩ := pre
        exact hrest d (by simp)
      rw [shapeOf?_eq_none_iff]
      intro rule hrule hmatch
      have hp := enclosing_of_break hrule (token_ne_nil h) hd hmatch
      exact not_enclosing_of_token h hp hd hmatch

end Token

/-- What stands before a text keeps standing when what follows that text is exchanged for something
that starts with a break. -/
theorem Longest.exchange {a x y z : List Char} {shape : Shape} (h : Stands a shape (x ++ y))
    (hx : x ≠ []) (hz : OpensBreak z) : Stands a shape (x ++ z) := by
  refine ⟨h.nonempty, h.shapeOf, ?_⟩
  intro u hu pre
  by_cases short : u <+: x
  · exact h.maximal u hu (short.trans (List.prefix_append x y))
  · obtain ⟨v, hv⟩ := pre
    rcases List.append_eq_append_iff.mp hv with ⟨m, hm, _⟩ | ⟨m, hm, hmz⟩
    · exact absurd ⟨m, hm.symm⟩ short
    · subst hm
      cases m with
      | nil => exact absurd (by simp) short
      | cons d m =>
          have hd : d ∈ breaks := hz d (by simp [hmz])
          rw [shapeOf?_eq_none_iff]
          intro rule hrule hmatch
          rw [← List.append_assoc] at hmatch
          have hp := enclosing_of_break hrule (by simp [h.nonempty]) hd hmatch
          -- One character of `x` would already have made the match longer.
          cases x with
          | nil => exact hx rfl
          | cons c x =>
              have longer := shapeOf?_of_prefix_enclosing hp (u := a ++ [c])
                (v := x ++ d :: m) (by simp) (by simpa using hmatch)
              exact longer (h.maximal [c] (by simp) ⟨x ++ y, rfl⟩)

/-! ### Operators and operands -/

theorem mem_allMarks (m : Mark) : m ∈ Mark.all := by
  cases m <;> decide

theorem shapeOf?_mark (m : Mark) :
    shapeOf? table m.text.toList = some (.token (.mark m)) := by
  cases m <;> decide

/-- What may follow a mark within a token. -/
theorem table_after_marks : ∀ m ∈ Mark.all, ∀ rule ∈ table,
    ∀ set ∈ (rule.pattern.deriveAll m.text.toList).opens,
      set ∈ ['=', '>', '*', '/'].map fun c => CharSet.of (String.singleton c) := by
  decide

/-- The marks that no longer token starts with. -/
def brackets : List Mark :=
  [.leftParen, .rightParen, .leftBracket, .rightBracket, .leftBrace, .rightBrace, .semicolon,
    .colon, .comma, .at, .tilde, .percent]

theorem table_after_brackets : ∀ m ∈ brackets, ∀ rule ∈ table,
    (rule.pattern.deriveAll m.text.toList).opens = [] := by
  decide

/-- A token longer than `a` takes a character that the rules allow behind `a`. -/
theorem covers_of_shapeOf? {a u : List Char} {c : Char}
    (h : shapeOf? table (a ++ c :: u) ≠ none) :
    ∃ rule ∈ table, covers (rule.pattern.deriveAll a).opens c := by
  rw [Ne, shapeOf?_eq_none_iff] at h
  push Not at h
  obtain ⟨rule, hrule, hmatch⟩ := h
  exact ⟨rule, hrule, covers_opens (matches_deriveAll.mpr hmatch)⟩

/-- A mark stands before what does not start with `=`, `>`, `*` or `/`. -/
theorem stands_mark (m : Mark) {rest : List Char}
    (h : ∀ c ∈ rest.head?, c ∉ ['=', '>', '*', '/']) :
    Stands m.text.toList (.token (.mark m)) rest := by
  refine ⟨token_ne_nil (shapeOf?_mark m), shapeOf?_mark m, ?_⟩
  intro u hu pre
  cases u with
  | nil => exact absurd rfl hu
  | cons c u =>
      by_contra longer
      obtain ⟨rule, hrule, set, hset, hc⟩ := covers_of_shapeOf? longer
      obtain ⟨d, hd, rfl⟩ := List.mem_map.mp
        (table_after_marks m (mem_allMarks m) rule hrule set hset)
      have hcd : c = d := by simpa using CharSet.contains_of_iff.mp hc
      obtain ⟨v, rfl⟩ := pre
      exact h c (by simp) (hcd ▸ hd)

/-- A bracket stands before anything. -/
theorem stands_bracket {m : Mark} (hm : m ∈ brackets) (rest : List Char) :
    Stands m.text.toList (.token (.mark m)) rest := by
  refine ⟨token_ne_nil (shapeOf?_mark m), shapeOf?_mark m, ?_⟩
  intro u hu _
  cases u with
  | nil => exact absurd rfl hu
  | cons c u =>
      by_contra longer
      obtain ⟨rule, hrule, set, hset, _⟩ := covers_of_shapeOf? longer
      rw [table_after_brackets m hm rule hrule] at hset
      simp at hset

/-- The characters that may open a number. -/
def numberStart : CharSet :=
  ⟨[('0', '9'), ('.', '.')], false⟩

/-- The characters of numbers: digits, letters, the underscore, the point and the two signs. -/
def numberChar : CharSet :=
  ⟨[('0', '9'), ('a', 'z'), ('A', 'Z'), ('_', '_'), ('.', '.'), ('+', '+'), ('-', '-')], false⟩

/-- The characters of names. -/
def nameChar : CharSet :=
  CharSet.nameStart.union .digit

/-- What starts like a name is made of the characters of names. -/
theorem table_names : ∀ rule ∈ table,
    (∀ set ∈ rule.pattern.opens, set.apart .nameStart = true) ∨
      ∀ set ∈ rule.pattern.classes, set.within nameChar = true := by
  decide

/-- Whether the texts of a pattern are made of the characters of numbers, with a sign only behind
the letter of an exponent, and with a sign only where no `x` can stand. -/
def numeric (p : Pattern) : Bool :=
  p.classes.all (·.within numberChar) && ['+', '-'].all fun y =>
    (p.before y).isEmpty || ((p.before y).all (· == .of "eE") &&
      p.classes.all fun set => ['x', 'X'].all fun c => !set.contains c)

/-- What starts with a digit, or with a point and another character, is a number. -/
theorem table_numbers : ∀ rule ∈ table, numeric rule.pattern = true ∨
    ((∀ set ∈ rule.pattern.opens, set.apart .digit = true) ∧
      (rule.pattern.derive '.').opens = []) := by
  decide

/-- The numbers of base sixteen. -/
def hexNumber : Pattern :=
  Pattern.sequence [word "0", one (.of "xX"), atLeastOnce (one (CharSet.hexDigit.union (.of "_")))]

/-- A leaf of an expression starts like a name or like a number, and ends in no letter of an
exponent unless it starts like a name or is of base sixteen. -/
theorem table_leaves : ∀ rule ∈ table, ∀ kind ∈ [TokenKind.boolean, .imaginary, .float,
    .integer .decimal, .integer .binary, .integer .octal, .integer .hexadecimal, .identifier],
    rule.shape = .token kind → (∀ set ∈ rule.pattern.opens, set.within .nameStart = true) ∨
      ((∀ set ∈ rule.pattern.opens, set.within numberStart = true) ∧
        (rule.pattern = hexNumber ∨
          ∀ set ∈ rule.pattern.closes, set.apart (.of "eE") = true)) := by
  decide

/-- The classes of tokens that are leaves. -/
theorem mem_of_leaf? {kind : TokenKind} (h : kind.leaf?.isSome = true) :
    kind ∈ [TokenKind.boolean, .imaginary, .float, .integer .decimal, .integer .binary,
      .integer .octal, .integer .hexadecimal, .identifier] := by
  cases kind with
  | integer radix => cases radix <;> decide
  | mark m => cases m <;> simp [TokenKind.leaf?] at h
  | keyword word => simp [TokenKind.leaf?] at h
  | _ => first | decide | simp [TokenKind.leaf?] at h

theorem contains_x_of_hexNumber {a : List Char} (h : hexNumber.Matches a) :
    ∃ c ∈ ['x', 'X'], c ∈ a := by
  unfold hexNumber at h
  simp only [matches_sequence_cons, matches_word] at h
  obtain ⟨_, _, rfl, rfl, _, _, rfl, hx, _⟩ := h
  rcases matches_one.mp hx with ⟨c, rfl, hc⟩
  refine ⟨c, ?_, by simp⟩
  have := CharSet.contains_of_iff.mp hc
  simpa using this

section Leaf

variable {a : List Char} {kind : TokenKind}

/-- A leaf starts like a name or like a number. -/
theorem leaf_head (h : shapeOf? table a = some (.token kind)) (leaf : kind.leaf?.isSome = true) :
    ∃ c t, a = c :: t ∧
      (CharSet.nameStart.contains c = true ∨ numberStart.contains c = true) := by
  obtain ⟨rule, hrule, hshape, _, _, hmatch⟩ := exists_token_rule h
  cases a with
  | nil => exact absurd rfl (token_ne_nil h)
  | cons c t =>
      refine ⟨c, t, rfl, ?_⟩
      obtain ⟨set, hset, hc⟩ := covers_opens hmatch
      rcases table_leaves rule hrule kind (mem_of_leaf? leaf) hshape with name | ⟨number, _⟩
      · exact .inl (CharSet.contains_of_within (name set hset) hc)
      · exact .inr (CharSet.contains_of_within (number set hset) hc)

/-- What starts like a number and has another character is a number. -/
theorem numeric_of_head {rule : Rule} (hrule : rule ∈ table) {c d : Char} {u : List Char}
    (hc : numberStart.contains c = true) (h : rule.pattern.Matches (c :: d :: u)) :
    numeric rule.pattern = true := by
  rcases table_numbers rule hrule with number | ⟨far, dead⟩
  · exact number
  · exfalso
    by_cases point : c = '.'
    · subst point
      obtain ⟨set, hset, _⟩ := covers_opens (matches_derive.mpr h)
      rw [dead] at hset
      simp at hset
    · obtain ⟨set, hset, hset_c⟩ := covers_opens h
      have apart := CharSet.not_contains_of_apart (far set hset) hset_c
      obtain ⟨range, hrange, lower, upper⟩ := CharSet.mem_range_of_contains rfl hc
      simp only [numberStart, List.mem_cons, List.not_mem_nil, or_false] at hrange
      rcases hrange with rfl | rfl
      · have := CharSet.contains_of_mem_range (s := .digit) rfl (List.mem_singleton.mpr rfl)
          lower upper
        rw [apart] at this
        simp at this
      · exact point (Char.le_antisymm upper lower)

/-- No leaf followed by a sign is the beginning of a number. -/
theorem not_numeric_of_sign (h : shapeOf? table a = some (.token kind))
    (leaf : kind.leaf?.isSome = true) {c : Char} {t : List Char} (ha : a = c :: t)
    (start : numberStart.contains c = true) {p : Pattern} (hp : numeric p = true) {y : Char}
    (hy : y ∈ ['+', '-']) {u : List Char} : ¬ p.Matches (a ++ y :: u) := by
  intro longer
  simp only [numeric, Bool.and_eq_true, List.all_eq_true, Bool.or_eq_true, beq_iff_eq,
    List.isEmpty_iff, Bool.not_eq_true'] at hp
  obtain ⟨b, x, hb⟩ : ∃ b x, a = b ++ [x] := by
    rcases List.eq_nil_or_concat a with h | ⟨b, x, h⟩
    · simp [h] at ha
    · exact ⟨b, x, by rw [h, List.concat_eq_append]⟩
  have split : a ++ y :: u = b ++ x :: y :: u := by simp [hb]
  obtain ⟨exponent, hexponent, hx⟩ := covers_before longer b x u split
  rcases hp.2 y hy with none | ⟨letters, noX⟩
  · simp [none] at hexponent
  · rw [letters exponent hexponent] at hx
    obtain ⟨rule, hrule, hshape, _, _, hmatch⟩ := exists_token_rule h
    rcases table_leaves rule hrule kind (mem_of_leaf? leaf) hshape with name | ⟨_, hex | last⟩
    · obtain ⟨set, hset, hc⟩ := covers_opens (ha ▸ hmatch)
      have letter := CharSet.contains_of_within (name set hset) hc
      have far : CharSet.apart .nameStart numberStart = true := by decide
      rw [CharSet.not_contains_of_apart far letter] at start
      simp at start
    · rw [hex] at hmatch
      obtain ⟨e, he, hmem⟩ := contains_x_of_hexNumber hmatch
      obtain ⟨set, hset, hcover⟩ := covers_classes longer e (List.mem_append_left _ hmem)
      rw [noX set hset e he] at hcover
      simp at hcover
    · obtain ⟨set, hset, hclose⟩ := covers_closes hmatch b x hb
      rw [CharSet.not_contains_of_apart (last set hset) hclose] at hx
      simp at hx

/-- A leaf stands before an operator. -/
theorem stands_operand (h : shapeOf? table a = some (.token kind))
    (leaf : kind.leaf?.isSome = true) {y : Char} (hy : y ∈ ['+', '-', '*', '/', '%'])
    (rest : List Char) : Stands a (.token kind) (y :: rest) := by
  refine ⟨token_ne_nil h, h, ?_⟩
  intro u hu pre
  cases u with
  | nil => exact absurd rfl hu
  | cons d u =>
      rcases List.cons_prefix_cons.mp pre with ⟨rfl, _⟩
      rw [shapeOf?_eq_none_iff]
      intro rule hrule longer
      obtain ⟨c, t, ha, start⟩ := leaf_head h leaf
      obtain ⟨inside, hinside, hd⟩ := covers_classes longer d (by simp)
      rcases start with name | number
      · have noName : CharSet.avoids [nameChar] ['+', '-', '*', '/', '%'] = true := by decide
        rcases table_names rule hrule with far | chars
        · obtain ⟨opening, hopening, hc⟩ := covers_opens (ha ▸ longer)
          rw [CharSet.not_contains_of_apart (far opening hopening) hc] at name
          simp at name
        · have := CharSet.contains_of_within (chars inside hinside) hd
          rw [CharSet.not_contains_of_avoids noName (by simp) hy] at this
          simp at this
      · have isNumber : numeric rule.pattern = true := by
          subst ha
          cases t with
          | nil => exact numeric_of_head hrule number longer
          | cons e t => exact numeric_of_head hrule number longer
        by_cases sign : d ∈ ['+', '-']
        · exact not_numeric_of_sign h leaf ha number isNumber sign longer
        · simp only [numeric, Bool.and_eq_true, List.all_eq_true] at isNumber
          have := CharSet.contains_of_within (isNumber.1 inside hinside) hd
          have noNumber : CharSet.avoids [numberChar] ['*', '/', '%'] = true := by decide
          have product : d ∈ ['*', '/', '%'] := by
            simp only [List.mem_cons, List.not_mem_nil, or_false] at hy sign ⊢
            tauto
          rw [CharSet.not_contains_of_avoids noNumber (by simp) product] at this
          simp at this

end Leaf

end Rule

end QasmDiagram
