/-
Module: QasmDiagram.Proofs.Spelling
Purpose: Lexemes that print a text: written one after the other with the layout between them they
  are the text, and the lexer finds them there again. Printed texts are put together with a blank,
  a line end or nothing between them.
Trusted boundary: none
Main exports: Lexeme.relead, Lexeme.ofMark, Lexeme.Sourced, Lexeme.Prints, Lexeme.Prints.append,
  Lexeme.Prints.of_sourced, Lexeme.Spells, Lexeme.Trails
-/
import QasmDiagram.Proofs.Boundary

namespace QasmDiagram

namespace Segment

open Rule

/-- Layout that stands before a text keeps standing when what follows that text is exchanged. -/
theorem LaidOut.exchange {a x y z : List Char} (h : LaidOut a (x ++ y)) (hx : x ≠ [])
    (hz : OpensBreak z) : LaidOut a (x ++ z) := by
  generalize hrest : x ++ y = rest at h
  induction h with
  | nil => exact .nil
  | @more a b _ stands _ ih =>
      subst hrest
      refine .more ?_ (ih rfl)
      rw [← List.append_assoc] at stands ⊢
      exact Longest.exchange stands (by simp [hx]) hz

end Segment

namespace Lexeme

open Rule Segment

/-! ### Parts of spelled lexemes -/

/-- Spelled lexemes stay spelled when what stands behind the text that follows them is exchanged. -/
theorem Spelled.exchange_behind {ls : List Lexeme} {x y z : List Char} (h : Spelled ls (x ++ y))
    (hz : OpensBreak z) : Spelled ls (x ++ z) := by
  induction ls with
  | nil => trivial
  | cons l ls ih =>
      rcases h with ⟨lead, here, behind⟩
      refine ⟨?_, ?_, ih behind⟩
      · simp only [← List.append_assoc] at lead ⊢
        exact lead.exchange (by simp [here.nonempty]) hz
      · by_cases last : written ls ++ x = []
        · rw [← List.append_assoc, last]
          exact stands_before_break here.shapeOf hz
        · rw [← List.append_assoc] at here ⊢
          exact Longest.exchange here last hz

/-- Spelled lexemes stay spelled when what follows them is exchanged. -/
theorem Spelled.exchange {ls : List Lexeme} {y z : List Char} (h : Spelled ls y)
    (hz : OpensBreak z) : Spelled ls z := by
  have behind : Spelled ls ([] ++ y) := h
  exact behind.exchange_behind hz

/-- Lexemes as they stand in some source. -/
def Sourced (ls : List Lexeme) : Prop :=
  ∃ after, Spelled ls after

theorem Sourced.of_append_right {ls ms : List Lexeme} (h : Sourced (ls ++ ms)) : Sourced ms := by
  obtain ⟨after, h⟩ := h
  exact ⟨after, (spelled_append.mp h).2⟩

theorem Sourced.of_append_left {ls ms : List Lexeme} (h : Sourced (ls ++ ms)) : Sourced ls := by
  obtain ⟨after, h⟩ := h
  exact ⟨_, (spelled_append.mp h).1⟩

/-- What remains of the lexemes of a source is as it stands there. -/
theorem Sourced.of_suffix {ls ms : List Lexeme} (h : Sourced ls) (suffix : ms <:+ ls) :
    Sourced ms := by
  obtain ⟨front, rfl⟩ := suffix
  exact h.of_append_right

theorem Sourced.tail {l : Lexeme} {ls : List Lexeme} (h : Sourced (l :: ls)) : Sourced ls :=
  h.of_suffix (List.suffix_cons l ls)

/-- A lexeme of a source has the text of a token of its class. -/
theorem Sourced.shapeOf {l : Lexeme} {ls : List Lexeme} (h : Sourced (l :: ls)) :
    shapeOf? table l.text.toList = some (.token l.kind) := by
  obtain ⟨_, h⟩ := h
  exact h.2.1.shapeOf

/-- The rules for a class with one spelling. -/
theorem table_spellings : (∀ rule ∈ table, ∀ m ∈ Mark.all,
      rule.shape = .token (.mark m) → rule.pattern = Pattern.word m.text) ∧
    ∀ rule ∈ table, ∀ k ∈ Keyword.all,
      rule.shape = .token (.keyword k) → rule.pattern = Pattern.word k.text := by
  decide

theorem mem_allKeywords (k : Keyword) : k ∈ Keyword.all := by
  cases k <;> decide

/-- A mark has its spelling. -/
theorem text_of_mark {l : Lexeme} {m : Mark}
    (h : shapeOf? table l.text.toList = some (.token l.kind)) (hm : l.kind = .mark m) :
    l.text = m.text := by
  obtain ⟨rule, hrule, hshape, hmatch⟩ := exists_matches_of_shapeOf? h
  rw [hm] at hshape
  rw [table_spellings.1 rule hrule m (mem_allMarks m) hshape, Pattern.matches_word] at hmatch
  exact String.toList_inj.mp hmatch

/-- A keyword has its spelling. -/
theorem text_of_keyword {l : Lexeme} {k : Keyword}
    (h : shapeOf? table l.text.toList = some (.token l.kind)) (hk : l.kind = .keyword k) :
    l.text = k.text := by
  obtain ⟨rule, hrule, hshape, hmatch⟩ := exists_matches_of_shapeOf? h
  rw [hk] at hshape
  rw [table_spellings.2 rule hrule k (mem_allKeywords k) hshape, Pattern.matches_word] at hmatch
  exact String.toList_inj.mp hmatch

/-- A mark that is read is the token of its spelling. -/
theorem token_of_mark {l : Lexeme} {ts : List Lexeme} (h : Sourced (l :: ts)) {m : Mark}
    (hm : l.kind = .mark m) : l.token = (.mark m, m.text) := by
  rw [token, hm, text_of_mark h.shapeOf hm]

/-- Lexemes with the tokens of others start as they do. -/
theorem exists_cons_of_map_token {ts ms : List Lexeme} {m : Lexeme}
    (h : ts.map token = (m :: ms).map token) :
    ∃ l us, ts = l :: us ∧ l.kind = m.kind ∧ l.text = m.text ∧ us.map token = ms.map token := by
  cases ts with
  | nil => simp at h
  | cons l us =>
      simp only [List.map_cons, List.cons.injEq, token, Prod.mk.injEq] at h
      exact ⟨l, us, rfl, h.1.1, h.1.2, h.2⟩

/-- Lexemes with the tokens of others are divided as they are. -/
theorem exists_append_of_map_token {ts ls ms : List Lexeme}
    (h : ts.map token = (ls ++ ms).map token) :
    ∃ us vs, ts = us ++ vs ∧ us.map token = ls.map token ∧ vs.map token = ms.map token := by
  rw [List.map_append] at h
  exact List.map_eq_append_iff.mp h

/-! ### Other layout before the first lexeme -/

/-- Lexemes with `lead` in place of the layout before the first. -/
def relead (lead : String) : List Lexeme → List Lexeme
  | [] => []
  | l :: ls => { l with lead := lead } :: ls

@[simp] theorem relead_nil (lead : String) : relead lead [] = [] := rfl

@[simp] theorem relead_cons (lead : String) (l : Lexeme) (ls : List Lexeme) :
    relead lead (l :: ls) = { l with lead := lead } :: ls := rfl

@[simp] theorem relead_eq_nil {lead : String} {ls : List Lexeme} :
    relead lead ls = [] ↔ ls = [] := by
  cases ls <;> simp

@[simp] theorem relead_relead (a b : String) (ls : List Lexeme) :
    relead a (relead b ls) = relead a ls := by
  cases ls <;> rfl

theorem relead_append {lead : String} {ls ms : List Lexeme} (h : ls ≠ []) :
    relead lead (ls ++ ms) = relead lead ls ++ ms := by
  cases ls with
  | nil => exact absurd rfl h
  | cons l ls => rfl

@[simp] theorem map_token_relead (lead : String) (ls : List Lexeme) :
    (relead lead ls).map token = ls.map token := by
  cases ls <;> rfl

@[simp] theorem written_relead {lead : String} {ls : List Lexeme} (h : ls ≠ []) :
    written (relead lead ls) = lead.toList ++ written (relead "" ls) := by
  cases ls with
  | nil => exact absurd rfl h
  | cons l ls => simp

/-- Lexemes that agree in all but their lines agree as tokens. -/
theorem map_token_of_map_face {ls ms : List Lexeme} (h : ls.map face = ms.map face) :
    ls.map token = ms.map token := by
  have forget : ∀ l, token l = ((face l).1, (face l).2.1) := fun _ => rfl
  have := congrArg (List.map fun f => (f.1, f.2.1)) h
  simpa [List.map_map, Function.comp_def, ← forget] using this

/-- Lexemes that agree in all but their lines agree in this also with other layout in front. -/
theorem map_face_relead {lead : String} {ls ms : List Lexeme} (h : ls.map face = ms.map face) :
    (relead lead ls).map face = (relead lead ms).map face := by
  cases ls with
  | nil =>
      rw [List.map_nil, eq_comm, List.map_eq_nil_iff] at h
      rw [h]
  | cons l ls =>
      cases ms with
      | nil => simp at h
      | cons m ms =>
          simp only [List.map_cons, List.cons.injEq, face, Prod.mk.injEq] at h
          simp [face, h.1, h.2]

theorem written_of_map_face {ls ms : List Lexeme} (h : ls.map face = ms.map face) :
    written ls = written ms := by
  induction ls generalizing ms with
  | nil =>
      rw [List.map_nil, eq_comm, List.map_eq_nil_iff] at h
      rw [h]
  | cons l ls ih =>
      cases ms with
      | nil => simp at h
      | cons m ms =>
          simp only [List.map_cons, List.cons.injEq, face, Prod.mk.injEq] at h
          simp [h.1, ih h.2]

/-- An excerpt is what its lexemes write without the layout before the first. -/
theorem toList_excerpt (ls : List Lexeme) : (excerpt ls).toList = written (relead "" ls) := by
  cases ls with
  | nil => rfl
  | cons l ls =>
      have fold : ∀ (ms : List Lexeme) (text : String),
          (ms.foldl (fun text lexeme => text ++ lexeme.lead ++ lexeme.text) text).toList
            = text.toList ++ written ms := by
        intro ms
        induction ms with
        | nil => simp
        | cons m ms ih =>
            intro text
            rw [List.foldl_cons, ih]
            simp
      rw [excerpt, fold]
      simp

/-! ### Printed texts -/

/-- The lexemes, without layout before the first, write a text and are found in it by the lexer,
whatever break follows. -/
structure Prints (text : String) (ls : List Lexeme) : Prop where
  nonempty : ls ≠ []
  written_eq : written (relead "" ls) = text.toList
  spelled : ∀ after, OpensBreak after → Spelled (relead "" ls) after

/-- What lexemes print does not depend on the layout before the first. -/
theorem Prints.relead {text : String} {ls : List Lexeme} (h : Prints text ls) (lead : String) :
    Prints text (relead lead ls) where
  nonempty := by simpa using h.nonempty
  written_eq := by simpa using h.written_eq
  spelled := by simpa using h.spelled

/-- The layout that a printer puts between lexemes. -/
def separators : List String :=
  ["", " ", "  ", "\n"]

/-- Only blanks start with a blank. -/
theorem table_blanks : ∀ rule ∈ table, rule.pattern = blanks ∨
    CharSet.avoids rule.pattern.opens " \t\r\n".toList = true := by
  decide

/-- Blanks are layout before anything that does not start with a blank. -/
theorem stands_blanks {text rest : List Char} (nonempty : text ≠ [])
    (blank : ∀ c ∈ text, c ∈ " \t\r\n".toList) (h : ∀ c ∈ rest.head?, c ∉ " \t\r\n".toList) :
    Stands text .layout rest where
  nonempty := nonempty
  shapeOf := by
    have first : table = ⟨blanks, .layout⟩ :: table.tail := rfl
    have accepted : blanks.accepts text = true :=
      Pattern.accepts_iff.mpr (matches_blanks.mpr ⟨nonempty, blank⟩)
    rw [shapeOf?, first, List.find?_cons, accepted]
    rfl
  maximal := by
    intro u hu pre
    rw [shapeOf?_eq_none_iff]
    intro rule hrule hmatch
    cases text with
    | nil => exact nonempty rfl
    | cons c text =>
        rcases table_blanks rule hrule with only | free
        · rw [only, matches_blanks] at hmatch
          cases u with
          | nil => exact hu rfl
          | cons d u =>
              obtain ⟨v, rfl⟩ := pre
              exact h d (by simp) (hmatch.2 d (by simp))
        · obtain ⟨set, hset, hopen⟩ := Pattern.covers_opens hmatch
          rw [CharSet.not_contains_of_avoids free hset (blank c (by simp))] at hopen
          simp at hopen

/-- Blanks, be they none, are layout before anything that does not start with a blank. -/
theorem laidOut_blanks {text rest : List Char} (blank : ∀ c ∈ text, c ∈ " \t\r\n".toList)
    (h : ∀ c ∈ rest.head?, c ∉ " \t\r\n".toList) : LaidOut text rest := by
  by_cases empty : text = []
  · rw [empty]
    exact .nil
  · have stands : Stands text .layout ([] ++ rest) := stands_blanks empty blank h
    simpa using LaidOut.more stands .nil

theorem blank_of_separator : ∀ sep ∈ separators, ∀ c ∈ sep.toList, c ∈ " \t\r\n".toList := by
  simp [separators]

/-- A separator is layout before anything that does not start with a blank. -/
theorem laidOut_separator {sep : String} (hsep : sep ∈ separators) {rest : List Char}
    (h : ∀ c ∈ rest.head?, c ∉ " \t\r\n".toList) : LaidOut sep.toList rest :=
  laidOut_blanks (blank_of_separator sep hsep) h

/-- Spelled lexemes stay spelled behind a separator. -/
theorem Spelled.relead {ls : List Lexeme} {after : List Char} (h : Spelled (relead "" ls) after)
    {sep : String} (hsep : sep ∈ separators) : Spelled (relead sep ls) after := by
  cases ls with
  | nil => trivial
  | cons l ls =>
      rcases h with ⟨_, here, behind⟩
      refine ⟨laidOut_separator hsep ?_, here, behind⟩
      intro c hc
      have shape := here.shapeOf
      cases htext : l.text.toList with
      | nil => exact absurd htext (token_ne_nil shape)
      | cons d t =>
          simp only [htext, List.cons_append, List.head?_cons, Option.mem_some_iff] at hc
          subst hc
          exact token_head_not_blank shape htext

/-- Two printed texts with a separator between them, if the first stands before it. -/
theorem Prints.append_of_spelled {a b sep : String} {ls ms : List Lexeme} (ha : Prints a ls)
    (hb : Prints b ms) (hsep : sep ∈ separators)
    (seam : ∀ after, OpensBreak after → Spelled (Lexeme.relead "" ls) ((sep ++ b).toList ++ after)) :
    Prints (a ++ sep ++ b) (ls ++ Lexeme.relead sep ms) where
  nonempty := by simp [ha.nonempty]
  written_eq := by
    rw [relead_append ha.nonempty, written_append, ha.written_eq, written_relead hb.nonempty,
      hb.written_eq]
    simp
  spelled := by
    intro after hafter
    rw [relead_append ha.nonempty, spelled_append]
    refine ⟨?_, (hb.spelled after hafter).relead hsep⟩
    rw [written_relead hb.nonempty, hb.written_eq, ← String.toList_append]
    exact seam after hafter

/-- Two printed texts with a separator between them, if the separator or the second opens with a
break. -/
theorem Prints.append {a b sep : String} {ls ms : List Lexeme} (ha : Prints a ls)
    (hb : Prints b ms) (hsep : sep ∈ separators) (hbreak : OpensBreak (sep ++ b).toList)
    (htext : (sep ++ b).toList ≠ []) : Prints (a ++ sep ++ b) (ls ++ Lexeme.relead sep ms) := by
  apply ha.append_of_spelled hb hsep
  intro after _
  apply ha.spelled _
  cases htext' : (sep ++ b).toList with
  | nil => exact absurd htext' htext
  | cons c t =>
      rw [htext'] at hbreak
      exact opensBreak_cons (hbreak c (by simp))

/-- The lexeme of a mark, without layout before it. -/
def ofMark (m : Mark) : Lexeme :=
  ⟨.mark m, m.text, "", 0⟩

@[simp] theorem token_ofMark (m : Mark) : (ofMark m).token = (.mark m, m.text) := rfl

/-- A single token prints its text. -/
theorem Prints.single {l : Lexeme} (h : shapeOf? table l.text.toList = some (.token l.kind)) :
    Prints l.text [l] where
  nonempty := by simp
  written_eq := by simp
  spelled := by
    intro after hafter
    exact ⟨.nil, stands_before_break h hafter, trivial⟩

theorem Prints.mark (m : Mark) : Prints m.text [ofMark m] :=
  Prints.single (l := ofMark m) (shapeOf?_mark m)

/-- Lexemes of a source print their excerpt. -/
theorem Prints.of_sourced {ls : List Lexeme} (h : Sourced ls) (nonempty : ls ≠ []) :
    Prints (excerpt ls) ls where
  nonempty := nonempty
  written_eq := (toList_excerpt ls).symm
  spelled := by
    intro after hafter
    obtain ⟨y, spelled⟩ := h
    cases ls with
    | nil => trivial
    | cons l ls =>
        have whole := spelled.exchange hafter
        exact ⟨.nil, whole.2⟩

/-! ### Texts that may be empty -/

/-- The lexemes, layout before the first included, write a text and are found in it by the lexer,
whatever break follows. -/
structure Spells (text : String) (ls : List Lexeme) : Prop where
  written_eq : written ls = text.toList
  spelled : ∀ after, OpensBreak after → Spelled ls after

theorem Spells.nil : Spells "" [] where
  written_eq := rfl
  spelled := fun _ _ => trivial

theorem Prints.spells {text : String} {ls : List Lexeme} (h : Prints text ls) :
    Spells text (Lexeme.relead "" ls) where
  written_eq := h.written_eq
  spelled := h.spelled

/-- Lexemes of a source write their excerpt, be it empty. -/
theorem spells_excerpt {ls : List Lexeme} (h : Sourced ls) :
    Spells (excerpt ls) (Lexeme.relead "" ls) := by
  cases ls with
  | nil => exact Spells.nil
  | cons l ls => exact (Prints.of_sourced h (by simp)).spells

/-- Lexemes that write a text which may stand directly behind another. -/
structure Trails (text : String) (ls : List Lexeme) : Prop extends Spells text ls where
  opens : OpensBreak text.toList

theorem Trails.nil : Trails "" [] where
  toSpells := Spells.nil
  opens := opensBreak_nil

/-- A text that is empty or opens with a break is a break to what stands before it. -/
theorem Trails.opensBreak {text : String} {ls : List Lexeme} (h : Trails text ls)
    {after : List Char} (hafter : OpensBreak after) : OpensBreak (text.toList ++ after) := by
  cases htext : text.toList with
  | nil => exact hafter
  | cons c t =>
      have hc := h.opens
      rw [htext] at hc
      exact opensBreak_cons (hc c (by simp))

theorem Trails.append {a b : String} {ls ms : List Lexeme} (ha : Trails a ls) (hb : Trails b ms) :
    Trails (a ++ b) (ls ++ ms) where
  written_eq := by rw [written_append, ha.written_eq, hb.written_eq, String.toList_append]
  spelled := by
    intro after hafter
    rw [spelled_append, hb.written_eq]
    exact ⟨ha.spelled _ (hb.opensBreak hafter), hb.spelled after hafter⟩
  opens := by
    rw [String.toList_append]
    exact ha.opensBreak hb.opens

/-- What trails a printed text is printed with it. -/
theorem Prints.append_trails {a b : String} {ls ms : List Lexeme} (ha : Prints a ls)
    (hb : Trails b ms) : Prints (a ++ b) (ls ++ ms) where
  nonempty := by simp [ha.nonempty]
  written_eq := by
    rw [relead_append ha.nonempty, written_append, ha.written_eq, hb.written_eq,
      String.toList_append]
  spelled := by
    intro after hafter
    rw [relead_append ha.nonempty, spelled_append, hb.written_eq]
    exact ⟨ha.spelled _ (hb.opensBreak hafter), hb.spelled after hafter⟩

/-- A printed text behind a separator trails what stands before it. -/
theorem Prints.trails {text sep : String} {ls : List Lexeme} (h : Prints text ls)
    (hsep : sep ∈ separators) (opens : OpensBreak (sep ++ text).toList) :
    Trails (sep ++ text) (Lexeme.relead sep ls) where
  written_eq := by rw [written_relead h.nonempty, h.written_eq, String.toList_append]
  spelled := fun after hafter => (h.spelled after hafter).relead hsep
  opens := opens

/-- What starts with a blank is a break to what stands before it. -/
theorem opensBreak_blank (text : String) : OpensBreak (" " ++ text).toList := by
  rw [String.toList_append]
  exact opensBreak_cons (by decide)

theorem blank_mem_separators : " " ∈ separators := by
  decide

/-- Two printed texts with a blank between them. -/
theorem Prints.append_blank {a b : String} {ls ms : List Lexeme} (ha : Prints a ls)
    (hb : Prints b ms) : Prints (a ++ " " ++ b) (ls ++ Lexeme.relead " " ms) :=
  ha.append hb blank_mem_separators (opensBreak_blank b) (by simp)

/-- A printed text behind a blank trails what stands before it. -/
theorem Prints.trails_blank {text : String} {ls : List Lexeme} (h : Prints text ls) :
    Trails (" " ++ text) (Lexeme.relead " " ls) :=
  h.trails blank_mem_separators (opensBreak_blank text)

/-- The marks that are breaks. -/
def breakMarks : List Mark :=
  [.leftParen, .rightParen, .leftBracket, .rightBracket, .comma, .semicolon]

theorem exists_break {m : Mark} (hm : m ∈ breakMarks) :
    m ∈ brackets ∧ ∃ c ∈ breaks, m.text.toList = [c] := by
  simp only [breakMarks, List.mem_cons, List.not_mem_nil, or_false] at hm
  rcases hm with rfl | rfl | rfl | rfl | rfl | rfl <;> exact ⟨by decide, _, by decide, rfl⟩

/-- What starts with the spelling of such a mark is a break to what stands before it. -/
theorem opensBreak_mark {m : Mark} (hm : m ∈ breakMarks) (after : List Char) :
    OpensBreak (m.text.toList ++ after) := by
  obtain ⟨_, c, hc, htext⟩ := exists_break hm
  rw [htext]
  exact opensBreak_cons hc

/-- A text between brackets trails what stands before it. -/
theorem Spells.between {text : String} {ls : List Lexeme} (h : Spells text ls) {m m' : Mark}
    (hm : m ∈ breakMarks) (hm' : m' ∈ breakMarks) :
    Trails (m.text ++ text ++ m'.text) (ofMark m :: (ls ++ [ofMark m'])) where
  written_eq := by simp [h.written_eq, ofMark]
  spelled := by
    intro after _
    refine ⟨.nil, stands_bracket (exists_break hm).1 _, ?_⟩
    rw [spelled_append]
    refine ⟨h.spelled _ ?_, .nil, stands_bracket (exists_break hm').1 _, trivial⟩
    simpa [ofMark] using opensBreak_mark hm' after
  opens := by simpa using opensBreak_mark hm (text.toList ++ m'.text.toList)

/-- A mark that is a break trails what stands before it. -/
theorem Trails.mark {m : Mark} (hm : m ∈ breakMarks) : Trails m.text [ofMark m] where
  written_eq := by simp [ofMark]
  spelled := fun _ _ => ⟨.nil, stands_bracket (exists_break hm).1 _, trivial⟩
  opens := by simpa using opensBreak_mark hm []

theorem Trails.comma : Trails "," [ofMark .comma] :=
  Trails.mark (m := .comma) (by decide)

theorem Trails.semicolon : Trails ";" [ofMark .semicolon] :=
  Trails.mark (m := .semicolon) (by decide)

end Lexeme

end QasmDiagram
