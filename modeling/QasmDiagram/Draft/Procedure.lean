/-
Module: QasmDiagram.Draft.Procedure
Purpose: The calls by which a draft is built, as procedures that change it in place one step after
  the other. Nothing is undone: where a procedure fails, the changes before the failure stay.
Trusted boundary: none
Main exports: Draft.Procedure, Draft.Procedure.declareScalar, Draft.Procedure.declareArray,
  Draft.Procedure.gateCall, Draft.Procedure.assign, Draft.Procedure.call, Draft.Procedure.carryOut
-/
import QasmDiagram.Draft

namespace QasmDiagram

/-- A computation that changes a draft in place and may fail on the way. -/
abbrev Draft.Procedure (α : Type) := EStateM LowerError Draft α

namespace Draft.Procedure

/-! ### Single steps -/

/-- Asks something of the registry and fails if there is no answer. -/
def ask {α : Type} (question : Registry → Except LowerError α) : Procedure α := do
  match question (← get).registry with
  | .ok answer => return answer
  | .error e => throw e

/-- Adds a fresh qubit that no register holds. -/
def allocate : Procedure QubitId :=
  modifyGet fun ⟨registry, operations⟩ =>
    let (id, registry) := registry.allocate
    (id, ⟨registry, operations⟩)

/-- Adds fresh qubits one by one. The answer lists them in the order in which they were added. -/
def allocateMany : Nat → Procedure (List QubitId)
  | 0 => return []
  | count + 1 => do
      let id ← allocate
      let ids ← allocateMany count
      return id :: ids

/-- Lets a name stand for a register. -/
def bindName (name : String) (b : Binding) : Procedure Unit :=
  modify fun ⟨⟨qubits, bindings⟩, operations⟩ => ⟨⟨qubits, bindings.insert name b⟩, operations⟩

/-- Records a result wire on a qubit. -/
def mark (id : QubitId) : Procedure Unit :=
  modify fun ⟨registry, operations⟩ => ⟨registry.markMeasured id, operations⟩

/-- Puts an operation behind the others. -/
def place (op : Operation) : Procedure Unit :=
  modify fun ⟨registry, operations⟩ => ⟨registry, operations.push op⟩

/-! ### Calls -/

/-- Declares a register of one qubit. -/
def declareScalar (name : String) : Procedure QubitId := do
  ask fun r => r.checkFresh name 1
  let id ← allocate
  bindName name (.scalar id)
  return id

/-- Declares a register of `count` qubits. The answer is the position of the first. -/
def declareArray (name : String) (count : Nat) : Procedure Nat := do
  ask fun r => r.checkFresh name count
  let first ← ask fun r => .ok r.size
  let _ ← allocateMany count
  bindName name (.array first count)
  return first

/-- Places the operation of a gate call. -/
def gateCall (config : LowerConfig) (call : GateCall) : Procedure Unit := do
  let op ← ask fun r => operationOf config r call
  place op

/-- Marks the qubit that an assignment measures, and places its measurement. -/
def assign (config : LowerConfig) (a : Assignment) : Procedure Unit := do
  let qubit ← ask fun r => measuredQubit config r a
  mark qubit
  place (.measure qubit)

/-- Any one call. -/
def call (config : LowerConfig) : Call → Procedure Answer
  | .allocate => return .qubit (← allocate)
  | .declareScalar name => return .qubit (← declareScalar name)
  | .declareArray name count => return .range (← declareArray name count) count
  | .markMeasured id => do
      mark id
      return .done
  | .gateCall statement => do
      gateCall config statement
      return .done
  | .assign a => do
      assign config a
      return .done

/-- Carries a procedure out on a draft: what it answers, or why it failed, and the draft it leaves
behind in either case. -/
def carryOut {α : Type} (p : Procedure α) (d : Draft) : Except LowerError α × Draft :=
  match p.run d with
  | .ok answer d => (.ok answer, d)
  | .error e d => (.error e, d)

end Draft.Procedure

end QasmDiagram
