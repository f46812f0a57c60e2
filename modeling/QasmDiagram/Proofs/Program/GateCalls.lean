/-
Module: QasmDiagram.Proofs.Program.GateCalls
Purpose: Gate calls are printed by the tokens that were read and are read again from them. Modifiers
  are kept as the text between their first lexeme and the sign behind them.
Trusted boundary: none
Main exports: GateCall.modifierReader_copies, GateCall.reader_copies
-/
import QasmDiagram.Proofs.Program.Operands

namespace QasmDiagram

open Lexeme Cursor Rule Expression

namespace GateCall

variable {levels n : Nat} {ts : List Lexeme} {d : Cursor}

/-! ### Modifiers -/

/-- Whether a modifier opens. -/
def atModifier (c : Cursor) : Bool :=
  c.kind?.any opensModifier

/-- The end of a modifier: behind its parentheses if it has any. -/
def modifierEnd (levels : Nat) : Cursor → Except ParseError Cursor := fun c =>
  if c.isAt (.mark .leftParen) then do
    let (_, c) ← Expression.reader levels c.next
    let (_, c) ← Reader.expect (.mark .rightParen) c
    pure c
  else pure c

/-- One modifier with the sign behind it. -/
def modifierReader (levels : Nat) : Reader String := fun start => do
  let c ← modifierEnd levels start.next
  let (_, behind) ← Reader.expect (.mark .at) c
  return (start.textBetween c, behind)

theorem modifierStep_eq (levels : Nat) :
    modifierStep levels = Reader.manyStep atModifier (modifierReader levels) := by
  funext modifiers start
  unfold modifierStep Reader.manyStep atModifier modifierReader modifierEnd
  cases opens : start.next.isAt (.mark .leftParen) <;> simp [opens, bind_assoc]

/-- Where a modifier ends, and from which tokens its end is found again. -/
theorem modifierEnd_sound (hts : Sourced ts) {c : Cursor}
    (h : modifierEnd levels (facing ts n) = .ok c) :
    ∃ used rest, ts = used ++ rest ∧ c = facing rest n ∧
      ∀ us a rest' m, us.map token = used.map token → a.kind = .mark .at →
        modifierEnd levels (facing (us ++ a :: rest') m) = .ok (facing (a :: rest') m) := by
  unfold modifierEnd at h
  split at h
  · rename_i opens
    rcases isAt_facing_iff.mp opens with ⟨p, ts, rfl, hp⟩
    rw [next_facing_cons] at h
    rcases Except.bind_eq_ok_iff.mp h with ⟨⟨e, c'⟩, he, h⟩
    rcases Except.bind_eq_ok_iff.mp h with ⟨⟨_, c''⟩, hclose, h⟩
    cases h
    obtain ⟨mid, rfl, taken, fits⟩ := reader_sound levels hts.tail he
    rcases Reader.expect_eq_ok_iff.mp hclose with ⟨r, rest, rfl, hr, _, rfl⟩
    obtain ⟨es, rfl⟩ := taken.suffix
    have inside : es.map token = e.lexemes.map token := by
      have := taken.tokens
      rwa [List.map_append, List.append_cancel_right_eq] at this
    refine ⟨p :: (es ++ [r]), rest, by simp, rfl, ?_⟩
    intro us a rest' m htokens ha
    obtain ⟨p', us, rfl, hp', _, hus⟩ := exists_cons_of_map_token htokens
    obtain ⟨vs, ws, rfl, hvs, hws⟩ := exists_append_of_map_token hus
    obtain ⟨r', ws, rfl, hr', _, hnil⟩ := exists_cons_of_map_token hws
    obtain rfl : ws = [] := by simpa using hnil
    have admitted : e.Admitted levels := ⟨taken.canonical, fits⟩
    have read : Expression.reader levels (facing (vs ++ r' :: a :: rest') m) =
        .ok (e, facing (r' :: a :: rest') m) :=
      admitted.again (by simp [closers, hr', hr]) (hvs.trans inside)
    have closes : Reader.expect (.mark .rightParen) (facing (r' :: a :: rest') m) =
        .ok (r'.text, facing (a :: rest') m) := Reader.expect_facing_cons (hr'.trans hr)
    simp [modifierEnd, hp', hp, read, closes, pure, Except.pure]
  · cases h
    refine ⟨[], ts, rfl, rfl, ?_⟩
    intro us a rest' m htokens ha
    obtain rfl : us = [] := by simpa using htokens
    simp [modifierEnd, ha, pure, Except.pure]

theorem modifierReader_eq_ok_iff {l : Lexeme} {us : List Lexeme} {modifier : String} :
    modifierReader levels (facing (l :: us) n) = .ok (modifier, d) ↔
      ∃ c t, modifierEnd levels (facing us n) = .ok c ∧ Reader.expect (.mark .at) c = .ok (t, d) ∧
        modifier = (facing (l :: us) n).textBetween c := by
  constructor
  · intro h
    rcases Except.bind_eq_ok_iff.mp h with ⟨c, hend, h⟩
    rcases Except.bind_eq_ok_iff.mp h with ⟨⟨t, d'⟩, hat, h⟩
    cases h
    exact ⟨c, t, by rwa [next_facing_cons] at hend, hat, rfl⟩
  · rintro ⟨c, t, hend, hat, rfl⟩
    simp [modifierReader, hend, hat, pure, Except.pure]

/-- The lexemes of a modifier are its text and the sign behind it. -/
theorem modifierReader_copies (levels : Nat) :
    Reader.CopiesWhen atModifier (modifierReader levels) fun modifier own =>
      own ≠ [] ∧ Prints (modifier ++ " @") own := by
  intro ts n modifier d hts hmore h
  obtain ⟨l, us, rfl⟩ : ∃ l us, ts = l :: us := by
    cases ts with
    | nil => simp [atModifier] at hmore
    | cons l us => exact ⟨l, us, rfl⟩
  rcases modifierReader_eq_ok_iff.mp h with ⟨c, t, hend, hat, rfl⟩
  obtain ⟨used, mid, rfl, rfl, again⟩ := modifierEnd_sound hts.tail hend
  rcases Reader.expect_eq_ok_iff.mp hat with ⟨a, rest, rfl, ha, _, rfl⟩
  have text : ∀ l used a rest n, (facing (l :: (used ++ a :: rest)) n).textBetween
      (facing (a :: rest) n) = excerpt (l :: used) := by
    intro l used a rest n
    rw [← List.cons_append, textBetween_facing]
  have whole : Sourced (l :: used ++ a :: rest) := by simpa using hts
  have behind : a :: rest <:+ l :: (used ++ a :: rest) := ⟨l :: used, by simp⟩
  have sign : a.token = (.mark .at, "@") := token_of_mark (hts.of_suffix behind) ha
  refine ⟨l :: used ++ relead " " [ofMark .at], rest, rfl,
    ⟨(List.suffix_cons a rest).trans behind, ?_, ?_⟩, by simp, ?_⟩
  · simp [sign]
    rfl
  · intro own' rest' m alike htokens
    obtain ⟨us, ws, rfl, hus, hws⟩ := alike.exists_append
    obtain ⟨a', rfl, ha', _⟩ := hws.exists_single
    obtain ⟨l', us, rfl, hl', htext, hus'⟩ := hus.exists_cons
    have found := again us a' rest' m (Alike.of_map_face hus').tokens ha'
    have cursor : l' :: us ++ [a'] ++ rest' = l' :: (us ++ a' :: rest') := by simp
    rw [cursor]
    refine modifierReader_eq_ok_iff.mpr ⟨_, a'.text, found, Reader.expect_facing_cons ha', ?_⟩
    rw [text, text, hus.excerpt_eq]
  · rw [text]
    have printed := Prints.of_sourced whole.of_append_left (by simp)
    have joined := printed.append_blank (Prints.mark .at)
    have spelling : " " ++ Mark.text .at = " @" := rfl
    rwa [String.append_assoc, spelling] at joined

/-! ### Operands and whole calls -/

/-- The operands of a gate call, up to the semicolon. -/
def operandsReader (levels : Nat) : Reader (List Operand) :=
  Reader.branch (Cursor.isAt (.mark .semicolon)) (fun c => .ok ([], c))
    (Reader.commaSeparated (Operand.reader levels))

/-- The lexemes of the operands of a call are those of each and the commas between them. -/
theorem operandsReader_copies (levels : Nat) : (operandsReader levels).Copies fun operands own =>
    Trails (renderOperands operands) own ∧
      ∀ operand ∈ operands, ∀ e ∈ operand.held, e.Admitted levels := by
  apply Reader.Copies.branch (Reader.onTokens_isAt _)
  · exact (Reader.copies_pure ⟨Trails.nil, by simp⟩).when _
  · intro ts n operands d hts h
    obtain ⟨own, rest, hd, copied, nonempty, printed, good⟩ :=
      Reader.copies_commaSeparated (Operand.reader_copies levels) hts h
    refine ⟨relead " " own, rest, hd, copied.relead " ", ?_, good⟩
    cases operands with
    | nil => exact absurd rfl nonempty
    | cons first others => exact printed.trails_blank

/-- A gate call behind its modifiers, in the order it is written. -/
def namedReader (levels : Nat) : Reader
    (String × Option (List Expression) × Option Expression × List Operand × String) :=
  Reader.andThen (Reader.expect .identifier) <|
    Reader.andThen (argumentsReader levels) <|
      Reader.andThen (designatorReader levels) <|
        Reader.andThen (operandsReader levels) (Reader.expect (.mark .semicolon))

/-- A gate call is a run of modifiers, a name, and what may stand behind it up to the semicolon. -/
theorem reader_eq (levels : Nat) : reader levels =
    Reader.map (fun p => ⟨p.1, p.2.1, p.2.2.1, p.2.2.2.1, p.2.2.2.2.1⟩)
      (Reader.andThen (Reader.many atModifier (modifierReader levels)) (namedReader levels)) := by
  funext c
  simp only [reader, namedReader, operandsReader, modifierStep_eq, Reader.map, Reader.andThen,
    Reader.many, Reader.branch, bind_assoc, pure_bind]
  refine bind_congr fun _ => bind_congr fun _ => bind_congr fun _ => bind_congr fun _ => ?_
  split <;> rfl

/-- The expressions that a gate call holds. -/
def held (call : GateCall) : List Expression :=
  call.arguments.getD [] ++ call.designator.toList ++ call.operands.flatMap Operand.held

theorem onTokens_atModifier : Reader.OnTokens atModifier := by
  intro ts us n m h
  cases ts with
  | nil =>
      obtain rfl : us = [] := by simpa using h.symm
      rfl
  | cons l ts =>
      obtain ⟨l', us, rfl, hkind, _⟩ := exists_cons_of_map_token h.symm
      simp [atModifier, hkind]

/-- A modifier is written with a blank behind its sign. -/
theorem join_modifiers (m : String) (modifiers : List String) (text : String) :
    String.join ((m :: modifiers).map (· ++ " @ ")) ++ text =
      m ++ " @" ++ (" " ++ (String.join (modifiers.map (· ++ " @ ")) ++ text)) := by
  have spelling : m ++ " @ " = m ++ " @" ++ " " := by
    rw [String.append_assoc]
    rfl
  rw [List.map_cons, String.join_cons, spelling]
  simp only [String.append_assoc]

section Modifiers

variable {modifiers : List String} {owns : List (List Lexeme)} {text : String} {own : List Lexeme}

/-- Modifiers and what they stand in front of trail a blank. -/
theorem trails_modifiers
    (h : List.Forall₂ (fun m own => own ≠ [] ∧ Prints (m ++ " @") own) modifiers owns)
    (printed : Prints text own) :
    Trails (" " ++ (String.join (modifiers.map (· ++ " @ ")) ++ text))
      ((owns.map (relead " ")).flatten ++ relead " " own) := by
  induction h with
  | nil => simpa using printed.trails_blank
  | @cons m first modifiers owns hfirst _ ih =>
      rw [join_modifiers, List.map_cons, List.flatten_cons, List.append_assoc, ← String.append_assoc]
      exact hfirst.2.trails_blank.append ih

/-- Modifiers stand in front of what is printed behind them, a blank behind each. -/
theorem prints_modifiers
    (h : List.Forall₂ (fun m own => own ≠ [] ∧ Prints (m ++ " @") own) modifiers owns)
    (printed : Prints text own) :
    Prints (String.join (modifiers.map (· ++ " @ ")) ++ text)
      ((owns.map (relead " ")).flatten ++ relead " " own) := by
  cases h with
  | nil => simpa using printed.relead " "
  | @cons m first modifiers owns hfirst others =>
      rw [join_modifiers, List.map_cons, List.flatten_cons, List.append_assoc]
      exact (hfirst.2.relead " ").append_trails (trails_modifiers others printed)

end Modifiers

/-- The lexemes of a gate call are those of its parts and a semicolon. -/
theorem reader_copies (levels : Nat) : (reader levels).Copies fun call own =>
    Prints call.render own ∧ ∀ e ∈ call.held, e.Admitted levels := by
  have named := (Reader.copies_expect .identifier).prints_trails <|
    (argumentsReader_copies levels).trails_trails <|
      (designatorReader_copies levels).trails_trails <|
        (operandsReader_copies levels).trails_trails Reader.copies_semicolon
  rw [reader_eq]
  intro ts n call d hts h
  rcases Reader.map_eq_ok_iff.mp h with ⟨⟨modifiers, parts⟩, rfl, hread⟩
  rcases Reader.andThen_eq_ok_iff.mp hread with ⟨c, hmodifiers, hparts⟩
  obtain ⟨owns, mid, rfl, goods, copied⟩ :=
    (modifierReader_copies levels).many (fun _ _ good => good.1) onTokens_atModifier hts hmodifiers
  -- all but the first modifier stand behind a blank, and so does the name
  have front := copied (owns.map (relead " ")) (forall₂_alike_relead " " owns)
  obtain ⟨own, rest, hd, behind, printed, _, arguments, size, operands, _⟩ :=
    named (front.sourced hts) hparts
  refine ⟨_, rest, hd, (front.andThen (behind.relead " ")).map, ?_, ?_⟩
  · simpa [GateCall.render, String.append_assoc] using prints_modifiers goods printed
  · intro e he
    simp only [held, List.mem_append, List.mem_flatMap, Option.mem_toList] at he
    rcases he with (he | he) | ⟨operand, hoperand, he⟩
    · cases written : parts.2.1 with
      | none => simp [written] at he
      | some items => exact arguments items written e (by simpa [written] using he)
    · exact size e he
    · exact operands operand hoperand e he

end GateCall

end QasmDiagram
