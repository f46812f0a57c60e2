/-
Module: QasmDiagram.Proofs.RenderRequest.Layout
Purpose: Layout and comments carry no meaning. What a program keeps of its source as text decides
  neither whether it has a circuit nor what the circuit is; so sources with the same tokens give the
  same request, or fail in the same stage for the same kind of cause.
Trusted boundary: none
Main exports: Draft.elements_bare, Program.circuit_bare,
  RenderRequest.layout_carries_no_meaning
-/
import QasmDiagram.Proofs.Draft
import QasmDiagram.Proofs.Program.Layout
import QasmDiagram.RenderRequest.Source

namespace QasmDiagram

open LowerError (SameKind)

/-! ### Kept texts in drafts -/

/-- Ranges and sets are refused as indices, whatever their text. -/
theorem Registry.resolveOperand_bare (r : Registry) (operand : Operand) :
    Agree SameKind Eq (r.resolveOperand operand) (r.resolveOperand operand.bare) := by
  cases operand with
  | hardware name => exact LowerError.agree_rfl _
  | indexed target =>
      obtain ⟨name, indices⟩ := target
      match indices with
      | [] => exact LowerError.agree_rfl _
      | [.expressions []] => exact .error rfl
      | [.expressions [e]] => exact LowerError.agree_rfl _
      | [.expressions (_ :: _ :: _)] => exact .error rfl
      | [.verbatim _] => exact .error rfl
      | .expressions [] :: _ :: _ => exact .error rfl
      | .expressions [_] :: _ :: _ => exact .error rfl
      | .expressions (_ :: _ :: _) :: _ :: _ => exact .error rfl
      | .verbatim _ :: _ :: _ => exact .error rfl

namespace Draft

variable (config : LowerConfig) (r : Registry) (d : Draft)

theorem rotation_bare (gate : GateKind) (call : GateCall) :
    Agree SameKind Eq (rotation config r gate call) (rotation config r gate call.bare) := by
  obtain ⟨modifiers, name, arguments, designator, operands⟩ := call
  simp only [rotation, GateCall.bare]
  rcases arguments.getD [] with _ | ⟨angle, _ | ⟨_, _⟩⟩
  · exact .error rfl
  · rcases operands with _ | ⟨operand, _ | ⟨_, _⟩⟩
    · exact .error rfl
    · apply (r.resolveOperand_bare operand).bind
      rintro target _ rfl
      exact LowerError.agree_rfl _
    · exact .error rfl
  · exact .error rfl

theorem controlledX_bare (call : GateCall) :
    Agree SameKind Eq (controlledX r call) (controlledX r call.bare) := by
  obtain ⟨modifiers, name, arguments, designator, operands⟩ := call
  simp only [controlledX, GateCall.bare]
  rcases arguments.getD [] with _ | ⟨_, _⟩
  · rcases operands with _ | ⟨first, _ | ⟨second, _ | ⟨_, _⟩⟩⟩
    · exact .error rfl
    · exact .error rfl
    · apply (r.resolveOperand_bare first).bind
      rintro control _ rfl
      apply (r.resolveOperand_bare second).bind
      rintro target _ rfl
      exact LowerError.agree_rfl _
    · exact .error rfl
  · exact .error rfl

/-- A call with a modifier is refused, whatever the text of the modifier. -/
theorem operationOf_bare (call : GateCall) :
    Agree SameKind Eq (operationOf config r call) (operationOf config r call.bare) := by
  have modifiers : call.bare.modifiers.isEmpty = call.modifiers.isEmpty := by
    cases hmodifiers : call.modifiers <;> simp [GateCall.bare, hmodifiers]
  have designator : call.bare.designator = call.designator := rfl
  have gate : call.bare.gate = call.gate := rfl
  unfold operationOf
  rw [modifiers, designator, gate]
  split
  · exact .error rfl
  · split
    · exact rotation_bare config r .rz call
    · exact rotation_bare config r .rx call
    · exact controlledX_bare r call
    · exact .error rfl

theorem measuredQubit_bare (a : Assignment) :
    Agree SameKind Eq (measuredQubit config r a) (measuredQubit config r a.bare) := by
  have op : a.bare.op = a.op := rfl
  have value : a.bare.value = a.value.bare := rfl
  unfold measuredQubit
  rw [op, value]
  split
  · exact .error rfl
  · cases a.value with
    | measure operand => exact r.resolveOperand_bare operand
    | expression e => exact .error rfl

theorem statement_bare (s : Statement) :
    Agree SameKind Eq (d.statement config s) (d.statement config s.bare) := by
  cases s with
  | inclusion path => exact LowerError.agree_rfl _
  | declaration declaration => exact LowerError.agree_rfl _
  | gateCall call =>
      apply (operationOf_bare config d.registry call).bind
      rintro op _ rfl
      exact LowerError.agree_rfl _
  | assignment a =>
      apply (measuredQubit_bare config d.registry a).bind
      rintro qubit _ rfl
      exact LowerError.agree_rfl _
  | kept rule text => exact .error rfl

theorem element_bare (position : Nat) (e : Element) :
    Agree SameKind Eq (d.element config position e) (d.element config position e.bare) := by
  cases e with
  | version specifier => exact LowerError.agree_rfl _
  | item i =>
      cases i with
      | statement s => exact statement_bare config d s
      | scope body => exact .error rfl
  | endOfInput => exact LowerError.agree_rfl _

/-- Elements have the same effect without the texts that are kept from the source. -/
theorem elements_bare (position : Nat) (body : List Element) :
    Agree SameKind Eq (d.elements config position body)
      (d.elements config position (body.map Element.bare)) := by
  induction body generalizing d position with
  | nil => exact LowerError.agree_rfl _
  | cons e body ih =>
      rw [List.map_cons, elements_cons, elements_cons]
      apply (element_bare config d position e).bind
      rintro next _ rfl
      exact ih next (position + 1)

end Draft

/-- A program has the same circuit without the texts that are kept from the source, or is refused for
the same kind of cause. -/
theorem Program.circuit_bare (config : LowerConfig) (p : Program) :
    Agree SameKind Eq (p.circuit config) (p.bare.circuit config) := by
  have body := Draft.elements_bare config .empty 0 p.children.dropLast
  unfold Program.circuit Program.bare
  rw [List.getLast?_map, ← List.map_dropLast]
  cases p.children.getLast? with
  | none => exact .error rfl
  | some last =>
      cases last with
      | version _ => exact .error rfl
      | item _ => exact .error rfl
      | endOfInput =>
          generalize Draft.empty.elements config 0 _ = x at body
          generalize Draft.empty.elements config 0 _ = y at body
          cases body with
          | error kind => exact .error kind
          | ok same =>
              cases same
              exact LowerError.agree_rfl _

namespace RenderRequest

/-- Layout and comments carry no meaning: two sources with the same tokens give the same request, or
fail in the same stage for the same kind of cause. -/
theorem layout_carries_no_meaning {source source' : String} {tokens : List (TokenKind × String)}
    (h : Lexeme.tokensOf source = .ok tokens) (h' : Lexeme.tokensOf source' = .ok tokens)
    (settings : Settings) :
    (∃ request, ofSource settings source = .ok request ∧ ofSource settings source' = .ok request) ∨
    (∃ e e', ofSource settings source = .error (.parse e) ∧
      ofSource settings source' = .error (.parse e') ∧ e.kind = e'.kind) ∨
    (∃ e e', ofSource settings source = .error (.lower e) ∧
      ofSource settings source' = .error (.lower e') ∧ e.kind = e'.kind) := by
  have read := Program.ofText_agree h h'
  unfold ofSource
  generalize Program.ofText source = x at read
  generalize Program.ofText source' = y at read
  cases read with
  | error kind => exact .inr (.inl ⟨_, _, rfl, rfl, kind⟩)
  | @ok p p' alike =>
      have lowered := (p.circuit_bare settings.lower).trans
        (alike ▸ (p'.circuit_bare settings.lower).symm)
      simp only
      generalize p.circuit settings.lower = x at lowered
      generalize p'.circuit settings.lower = y at lowered
      cases lowered with
      | error kinds =>
          obtain ⟨_, first, second⟩ := kinds
          exact .inr (.inr ⟨_, _, rfl, rfl, Eq.trans first (Eq.symm second)⟩)
      | ok same =>
          obtain ⟨_, first, second⟩ := same
          cases Eq.trans first (Eq.symm second)
          exact .inl ⟨_, rfl, rfl⟩

/-- A modifier is kept as it is written, so its layout shows in the cause of the refusal, but not in
the kind of it. -/
theorem layout_carries_no_meaning_modifier :
    ∃ tokens, Lexeme.tokensOf "pow(2)@rz(1)q;" = .ok tokens ∧
      Lexeme.tokensOf "pow( 2 )/*;*/@ rz(1)\nq;" = .ok tokens ∧
      ∃ e e', ofSource {} "pow(2)@rz(1)q;" = .error (.lower e) ∧
        ofSource {} "pow( 2 )/*;*/@ rz(1)\nq;" = .error (.lower e') ∧ e.kind = e'.kind := by
  have compact : Lexeme.tokensOf "pow(2)@rz(1)q;" = .ok
      [(.keyword .pow, "pow"), (.mark .leftParen, "("), (.integer .decimal, "2"),
        (.mark .rightParen, ")"), (.mark .at, "@"), (.identifier, "rz"), (.mark .leftParen, "("),
        (.integer .decimal, "1"), (.mark .rightParen, ")"), (.identifier, "q"),
        (.mark .semicolon, ";")] := by
    decide +kernel
  have loose : Lexeme.tokensOf "pow( 2 )/*;*/@ rz(1)\nq;" =
      Lexeme.tokensOf "pow(2)@rz(1)q;" := by
    decide +kernel
  have read : Program.ofText "pow(2)@rz(1)q;" = .ok ⟨[.item (.statement (.gateCall ⟨["pow(2)"], "rz",
      some [.literal ⟨.decimalInteger, "1"⟩], none, [.indexed ⟨"q", []⟩]⟩)), .endOfInput]⟩ := by
    decide +kernel
  have refused : ∃ e, ofSource {} "pow(2)@rz(1)q;" = .error (.lower e) := by
    rw [ofSource, read]
    exact ⟨_, rfl⟩
  obtain ⟨e, refused⟩ := refused
  refine ⟨_, compact, loose.trans compact, ?_⟩
  rcases layout_carries_no_meaning compact (loose.trans compact) {} with
    ⟨_, accepted, _⟩ | ⟨_, _, unread, _⟩ | same
  · rw [refused] at accepted
    cases accepted
  · rw [refused] at unread
    cases unread
  · exact same

end RenderRequest

end QasmDiagram
