/-
Module: QasmDiagram.Proofs.Draft.Fitness
Purpose: The check of the finished circuit never fails: not after any sequence of calls, and not for
  any program.
Trusted boundary: none
Main exports: LowerError.Spares, Draft.elements_spares, Draft.calls_form_circuit
-/
import QasmDiagram.Proofs.Draft

namespace QasmDiagram

/-- A computation that does not fail with a fault of the finished circuit. -/
def LowerError.Spares {α : Type} (x : Except LowerError α) : Prop :=
  ∀ fault, x ≠ .error (.circuit fault)

open LowerError

section Closure

variable {α β : Type}

@[simp] theorem LowerError.spares_ok (a : α) : Spares (.ok a) := by
  intro fault h
  cases h

@[simp] theorem LowerError.spares_pure (a : α) : Spares (pure a) :=
  spares_ok a

/-- Steps in a row spare the circuit if each of them does. -/
theorem LowerError.Spares.bind {x : Except LowerError α} {f : α → Except LowerError β}
    (hx : Spares x) (hf : ∀ a, Spares (f a)) : Spares (x >>= f) := by
  intro fault h
  cases x with
  | error e =>
      cases h
      exact hx fault rfl
  | ok a => exact hf a fault h

end Closure

namespace Expression

theorem checkDepth_spares (e : Expression) : Spares e.checkDepth := by
  unfold checkDepth
  split <;> simp [Spares]

theorem literalValue_spares (text : String) : Spares (literalValue text) := by
  unfold literalValue
  split <;> simp [Spares]

/-- The evaluation of an expression, one case for each constructor. -/
theorem value_spares (e : Expression) : Spares e.value := by
  cases e with
  | binary lhs op rhs =>
      rw [value]
      refine (value_spares lhs).bind fun left => (value_spares rhs).bind fun right => ?_
      split <;> simp [Spares, throw, throwThe, MonadExceptOf.throw, pure, Except.pure]
  | literal leaf =>
      rw [value]
      split
      · exact literalValue_spares leaf.text
      · exact literalValue_spares leaf.text
      · split <;> simp [Spares]
      · simp [Spares]
  | paren inner => simp [value, Spares]
  | unary op operand => simp [value, Spares]
  | call name arguments => simp [value, Spares]

theorem evaluate_spares (e : Expression) : Spares e.evaluate :=
  (checkDepth_spares e).bind fun _ => value_spares e

theorem operatorSign_spares (op : Terminal) : Spares (operatorSign op) := by
  unfold operatorSign
  split <;> simp [Spares]

/-- The text of an expression in symbols, one case for each constructor. -/
theorem symbols_spares (e : Expression) : Spares e.symbols := by
  cases e with
  | binary lhs op rhs =>
      rw [symbols]
      exact (operatorSign_spares op).bind fun sign => (symbols_spares lhs).bind fun left =>
        (symbols_spares rhs).bind fun right => spares_pure _
  | literal leaf =>
      rw [symbols]
      split
      · simp
      · simp
      · split <;> simp [Spares]
      · simp [Spares]
  | paren inner => simp [symbols, Spares]
  | unary op operand => simp [symbols, Spares]
  | call name arguments => simp [symbols, Spares]

theorem angleText_spares (mode : DisplayMode) (e : Expression) : Spares (e.angleText mode) := by
  cases mode with
  | numeric => exact (evaluate_spares e).bind fun _ => spares_pure _
  | symbolic => exact (checkDepth_spares e).bind fun _ => symbols_spares e

end Expression

namespace Registry

theorem checkFresh_spares (r : Registry) (name : String) (count : Nat) :
    Spares (r.checkFresh name count) := by
  unfold checkFresh
  split
  · simp [Spares]
  · split <;> simp [Spares]

theorem resolve_spares (r : Registry) (name : String) (index : Option Nat) :
    Spares (r.resolve name index) := by
  unfold resolve
  split
  · simp [Spares]
  · simp
  · simp [Spares]
  · split <;> simp [Spares]
  · simp [Spares]

theorem resolveOperand_spares (r : Registry) (operand : Operand) :
    Spares (r.resolveOperand operand) := by
  unfold resolveOperand
  split
  · simp [Spares]
  · split
    · exact resolve_spares r _ none
    · refine (Expression.evaluate_spares _).bind fun value => ?_
      split
      · exact resolve_spares r _ _
      · simp [Spares, throw, throwThe, MonadExceptOf.throw]
    · simp [Spares]

end Registry

namespace Draft

theorem operationOf_spares (config : LowerConfig) (r : Registry) (call : GateCall) :
    Spares (operationOf config r call) := by
  have rotations : ∀ kind, Spares (rotation config r kind call) := by
    intro kind
    unfold rotation
    split
    · exact (r.resolveOperand_spares _).bind fun _ =>
        (Expression.angleText_spares _ _).bind fun _ => spares_pure _
    · simp [Spares]
    · simp [Spares]
  have negations : Spares (controlledX r call) := by
    unfold controlledX
    split
    · exact (r.resolveOperand_spares _).bind fun _ => (r.resolveOperand_spares _).bind fun _ =>
        spares_pure _
    · simp [Spares]
    · simp [Spares]
  unfold operationOf
  split
  · simp [Spares]
  · split
    · exact rotations .rz
    · exact rotations .rx
    · exact negations
    · simp [Spares]

theorem measuredQubit_spares (config : LowerConfig) (r : Registry) (a : Assignment) :
    Spares (measuredQubit config r a) := by
  unfold measuredQubit
  split
  · simp [Spares]
  · split
    · exact r.resolveOperand_spares _
    · simp [Spares]

theorem declare_spares (d : Draft) (declaration : Declaration) :
    Spares (d.declare declaration) := by
  unfold declare
  split
  · simp
  · split
    · exact ((d.registry.checkFresh_spares _ 1).bind fun _ => spares_pure _).bind fun _ =>
        spares_pure _
    · refine (Expression.evaluate_spares _).bind fun value => ?_
      split
      · simp [Spares, throw, throwThe, MonadExceptOf.throw]
      · exact ((d.registry.checkFresh_spares _ _).bind fun _ => spares_pure _).bind fun _ =>
          spares_pure _
  · simp [Spares]

theorem statement_spares (config : LowerConfig) (d : Draft) (s : Statement) :
    Spares (d.statement config s) := by
  cases s with
  | inclusion path => simp [statement]
  | declaration declaration => exact d.declare_spares declaration
  | gateCall call => exact (operationOf_spares config d.registry call).bind fun _ => spares_pure _
  | assignment a => exact (measuredQubit_spares config d.registry a).bind fun _ => spares_pure _
  | kept rule text => simp [statement, Spares]

theorem element_spares (config : LowerConfig) (position : Nat) (d : Draft) (e : Element) :
    Spares (d.element config position e) := by
  unfold element
  split
  · split
    · simp [Spares]
    · split <;> simp [Spares]
  · exact d.statement_spares config _
  · simp [Spares]
  · simp [Spares]

/-- No element of a program fails with a fault of the finished circuit. -/
theorem elements_spares (config : LowerConfig) (position : Nat) (d : Draft)
    (body : List Element) : Spares (d.elements config position body) := by
  induction body generalizing d position with
  | nil => simp [elements]
  | cons e body ih =>
      rw [elements]
      split
      · rename_i fault he
        intro circuitFault h
        cases h
        exact d.element_spares config position e circuitFault he
      · exact ih _ _

/-- However a draft is built up from nothing, with single allocations only within the limit, its
parts form a circuit, and what is measured is marked. So no program is refused for a fault of its
finished circuit. -/
theorem calls_form_circuit :
    (∀ (config : LowerConfig) (calls : List Call), AllocatesWithin config empty calls →
      (∃ circuit, Circuit.ofParts (empty.afterCalls config calls).registry.qubits
        (empty.afterCalls config calls).operations = .ok circuit) ∧
      ∀ op ∈ (empty.afterCalls config calls).operations, op.gate = .measure →
        ∀ id ∈ op.qubits, (empty.afterCalls config calls).registry.Measured id) ∧
    ∀ (config : LowerConfig) (program : Program) (fault : CircuitError),
      program.circuit config ≠ .error (.circuit fault) := by
  constructor
  · intro config calls within
    have sound := afterCalls_sound sound_empty within
    exact ⟨sound.ofParts, sound.measured⟩
  · intro config program fault h
    unfold Program.circuit at h
    split at h
    · split at h
      · rename_i draft hdraft
        obtain ⟨circuit, hfinish⟩ := (elements_sound sound_empty hdraft).finish
        rw [hfinish] at h
        cases h
      · rename_i e he
        cases h
        exact elements_spares config 0 empty _ fault he
    · cases h
    · cases h

/-- An allocated qubit, a declared one and a measurement of it form a circuit. -/
theorem calls_form_circuit_allocate_measure :
    AllocatesWithin ⟨.numeric, true⟩ empty [.allocate, .declareScalar "a",
      .assign ⟨⟨"c", []⟩, ⟨.equals, "="⟩, .measure (.indexed ⟨"a", []⟩)⟩] ∧
    ∃ circuit, Circuit.ofParts
      (empty.afterCalls ⟨.numeric, true⟩ [.allocate, .declareScalar "a",
        .assign ⟨⟨"c", []⟩, ⟨.equals, "="⟩, .measure (.indexed ⟨"a", []⟩)⟩]).registry.qubits
      (empty.afterCalls ⟨.numeric, true⟩ [.allocate, .declareScalar "a",
        .assign ⟨⟨"c", []⟩, ⟨.equals, "="⟩, .measure (.indexed ⟨"a", []⟩)⟩]).operations
        = .ok circuit := by
  have within : AllocatesWithin ⟨.numeric, true⟩ empty [.allocate, .declareScalar "a",
      .assign ⟨⟨"c", []⟩, ⟨.equals, "="⟩, .measure (.indexed ⟨"a", []⟩)⟩] :=
    ⟨fun _ => by decide, nofun, nofun, trivial⟩
  exact ⟨within, (calls_form_circuit.1 _ _ within).1⟩

end Draft

end QasmDiagram
