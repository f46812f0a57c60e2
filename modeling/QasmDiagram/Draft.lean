/-
Module: QasmDiagram.Draft
Purpose: Circuits under construction: the effect of gate calls, assignments and declarations, and
  the circuit of a whole program. A refused call leaves the draft as it was, since the new draft
  comes with success only.
Trusted boundary: none
Main exports: LowerConfig, Registry.resolveOperand, Draft, Draft.gateCall, Draft.assign,
  Draft.declare, Program.circuit, Draft.Call, Draft.attempt, Draft.afterCalls
-/
import QasmDiagram.Angle
import QasmDiagram.Program
import QasmDiagram.Registry

namespace QasmDiagram

/-- The choices that govern how a program becomes a circuit. -/
structure LowerConfig where
  format : DisplayMode := .numeric
  measurement : Bool := true
deriving Repr, Inhabited, DecidableEq

/-- The qubit that an operand names: a register alone, or one with a single index. -/
def Registry.resolveOperand (r : Registry) (operand : Operand) : Except LowerError QubitId :=
  match operand with
  | .hardware text => .error (.malformedOperand text)
  | .indexed target =>
      match target.indices with
      | [] => r.resolve target.name none
      | [.expressions [e]] => do
          let value ← e.evaluate
          match value.asIndex? with
          | some index => r.resolve target.name (some index)
          | none => throw (.invalidIndex target.name (.notNatural e.render))
      | _ => .error (.malformedOperand target.render)

/-- The registers and operations of a circuit under construction. -/
structure Draft where
  registry : Registry
  operations : Array Operation

namespace Draft

/-- Nothing declared and nothing placed. -/
def empty : Draft :=
  ⟨.empty, #[]⟩

/-- A rotation by its one argument of its one operand. The operand is judged before the angle. -/
def rotation (config : LowerConfig) (r : Registry) (gate : GateKind) (call : GateCall) :
    Except LowerError Operation :=
  match call.arguments.getD [], call.operands with
  | [angle], [operand] => do
      let target ← r.resolveOperand operand
      return .rotation gate target (← angle.angleText config.format)
  | [_], operands => .error (.wrongOperandCount call.gate 1 operands.length)
  | arguments, _ => .error (.wrongArgumentCount call.gate 1 arguments.length)

/-- A controlled negation: no argument, a control and a target. -/
def controlledX (r : Registry) (call : GateCall) : Except LowerError Operation :=
  match call.arguments.getD [], call.operands with
  | [], [first, second] => do
      let control ← r.resolveOperand first
      let target ← r.resolveOperand second
      return .controlledX control target
  | [], operands => .error (.wrongOperandCount call.gate 2 operands.length)
  | arguments, _ => .error (.wrongArgumentCount call.gate 0 arguments.length)

/-- The operation that a gate call stands for. -/
def operationOf (config : LowerConfig) (r : Registry) (call : GateCall) :
    Except LowerError Operation :=
  if !call.modifiers.isEmpty || call.designator.isSome then
    .error (.unexpectedStatement call.render)
  else
    match call.gate with
    | "rz" => rotation config r .rz call
    | "rx" => rotation config r .rx call
    | "cx" => controlledX r call
    | gate => .error (.unsupportedGate gate call.render)

/-- Places the operation of a gate call. -/
def gateCall (config : LowerConfig) (d : Draft) (call : GateCall) : Except LowerError Draft := do
  let op ← operationOf config d.registry call
  return { d with operations := d.operations.push op }

/-- The qubit that an assignment measures. -/
def measuredQubit (config : LowerConfig) (r : Registry) (a : Assignment) :
    Except LowerError QubitId :=
  if !config.measurement || a.op.kind != .equals then .error (.unexpectedStatement a.render)
  else
    match a.value with
    | .measure operand => r.resolveOperand operand
    | .expression _ => .error (.unexpectedStatement a.render)

/-- Places the measurement of an assignment and records it on the qubit. -/
def assign (config : LowerConfig) (d : Draft) (a : Assignment) : Except LowerError Draft := do
  let qubit ← measuredQubit config d.registry a
  return ⟨d.registry.markMeasured qubit, d.operations.push (.measure qubit)⟩

/-- Carries out a declaration: classical registers have no effect. -/
def declare (d : Draft) (declaration : Declaration) : Except LowerError Draft :=
  match declaration.keyword.kind with
  | .creg => .ok d
  | .qreg =>
      match declaration.size with
      | none => do
          let (_, registry) ← d.registry.declareScalar declaration.name
          return { d with registry := registry }
      | some size => do
          let value ← size.evaluate
          match value.asIndex? with
          | none => throw (.invalidSize (.notNatural declaration.render))
          | some count =>
              let (_, registry) ← d.registry.declareArray declaration.name count
              return { d with registry := registry }
  | _ => .error (.unexpectedStatement declaration.render)

/-- Carries out a statement: inclusions have no effect. -/
def statement (config : LowerConfig) (d : Draft) : Statement → Except LowerError Draft
  | .inclusion _ => .ok d
  | .declaration declaration => d.declare declaration
  | .gateCall call => d.gateCall config call
  | .assignment a => d.assign config a
  | .kept _ text => .error (.unexpectedStatement text)

/-- Carries out the element at a position: a version may only come first. -/
def element (config : LowerConfig) (position : Nat) (d : Draft) (e : Element) :
    Except LowerError Draft :=
  match e with
  | .version specifier =>
      if position ≠ 0 then .error (.unexpectedElement e.render)
      else if specifier = supportedVersion then .ok d
      else .error (.unsupportedVersion specifier)
  | .item (.statement s) => d.statement config s
  | .item (.scope _) | .endOfInput => .error (.unexpectedElement e.render)

/-- Carries out elements in order; `position` is that of the head. -/
def elements (config : LowerConfig) (position : Nat) (d : Draft) :
    List Element → Except LowerError Draft
  | [] => .ok d
  | e :: rest =>
      match d.element config position e with
      | .error fault => .error fault
      | .ok d => elements config (position + 1) d rest

/-- The finished circuit. -/
def finish (d : Draft) : Except LowerError Circuit :=
  match Circuit.ofParts d.registry.qubits d.operations with
  | .ok circuit => .ok circuit
  | .error e => .error (.circuit e)

/-- The single calls by which a draft may be built. -/
inductive Call where
  | allocate
  | declareScalar (name : String)
  | declareArray (name : String) (count : Nat)
  | markMeasured (id : QubitId)
  | gateCall (call : GateCall)
  | assign (a : Assignment)
deriving Repr

/-- What a call answers: the number of a qubit, the range of a register, or nothing. -/
inductive Answer where
  | qubit (id : QubitId)
  | range (first size : Nat)
  | done
deriving Repr, Inhabited, DecidableEq

/-- Carries out one call. -/
def perform (config : LowerConfig) (d : Draft) : Call → Except LowerError (Answer × Draft)
  | .allocate =>
      let (id, registry) := d.registry.allocate
      .ok (.qubit id, { d with registry := registry })
  | .declareScalar name => do
      let (id, registry) ← d.registry.declareScalar name
      return (.qubit id, { d with registry := registry })
  | .declareArray name count => do
      let (first, registry) ← d.registry.declareArray name count
      return (.range first count, { d with registry := registry })
  | .markMeasured id => .ok (.done, { d with registry := d.registry.markMeasured id })
  | .gateCall call => do
      return (.done, ← d.gateCall config call)
  | .assign a => do
      return (.done, ← d.assign config a)

/-- Carries out one call if it is allowed; a refused one leaves the draft as it was. -/
def attempt (config : LowerConfig) (d : Draft) (call : Call) : Except LowerError Answer × Draft :=
  match d.perform config call with
  | .ok (answer, next) => (.ok answer, next)
  | .error e => (.error e, d)

/-- The draft after calls in order. A refused call does not end the sequence. -/
def afterCalls (config : LowerConfig) (d : Draft) (calls : List Call) : Draft :=
  calls.foldl (fun d call => (d.attempt config call).2) d

end Draft

/-- The circuit of a program, whose last element must be the end of input. -/
def Program.circuit (config : LowerConfig) (program : Program) : Except LowerError Circuit :=
  match program.children.getLast? with
  | some .endOfInput =>
      match Draft.empty.elements config 0 program.children.dropLast with
      | .ok draft => draft.finish
      | .error e => .error e
  | some last => .error (.unexpectedElement last.render)
  | none => .error (.unexpectedElement "empty program")

end QasmDiagram
