/-
Module: QasmDiagram.Circuit
Purpose: Circuits: qubit wires and the operations placed on them. A circuit carries the proof that
  its qubits are numbered by position and that its operations use no other qubits.
Trusted boundary: none
Main exports: QubitId, Qubit, Wire, GateKind, Operation, CircuitError, Circuit, Circuit.ofParts
-/

namespace QasmDiagram

/-- The number of a qubit. -/
structure QubitId where
  index : UInt32
deriving Repr, Inhabited, DecidableEq

/-- The text of a qubit's number. -/
def QubitId.render (id : QubitId) : String :=
  "q" ++ toString id.index.toNat

/-- A qubit wire, with the number of result wires that hang off it once it has been measured. -/
structure Qubit where
  id : QubitId
  children : Option UInt32
deriving Repr, Inhabited, DecidableEq

namespace Qubit

/-- A qubit that has not been measured. -/
def fresh (id : QubitId) : Qubit :=
  ⟨id, none⟩

/-- The qubit with a result wire. However often it is measured, it has one. -/
def measured (q : Qubit) : Qubit :=
  { q with children := some 1 }

/-- Whether a result wire has been recorded. -/
def isMeasured (q : Qubit) : Bool :=
  q.children.isSome

/-- The text of a qubit. -/
def render (q : Qubit) : String :=
  if q.isMeasured then q.id.render ++ " (measured)" else q.id.render

end Qubit

/-- The kinds of wire that an operation may refer to. -/
inductive WireKind where
  | quantum
  | classical
deriving Repr, Inhabited, DecidableEq

/-- A reference to a wire: the qubit's own, or a result wire by its number. -/
structure Wire where
  kind : WireKind
  qubit : QubitId
  child : Option UInt32
deriving Repr, Inhabited, DecidableEq

namespace Wire

/-- The wire of a qubit itself. -/
def quantum (id : QubitId) : Wire :=
  ⟨.quantum, id, none⟩

/-- A result wire of a qubit. -/
def classical (id : QubitId) (child : UInt32) : Wire :=
  ⟨.classical, id, some child⟩

/-- The text of a wire: a result wire has its number behind the qubit's. -/
def render (w : Wire) : String :=
  match w.kind, w.child with
  | .classical, some child => w.qubit.render ++ ".c" ++ toString child.toNat
  | _, _ => w.qubit.render

end Wire

/-- The kinds of operation. -/
inductive GateKind where
  | rz
  | rx
  | x
  | measure
deriving Repr, Inhabited, DecidableEq

/-- The name of a kind of operation. -/
def GateKind.name : GateKind → String
  | .rz => "RZ"
  | .rx => "RX"
  | .x => "X"
  | .measure => "Measure"

/-- Every kind of operation once. -/
def GateKind.all : List GateKind :=
  [.rz, .rx, .x, .measure]

/-- An operation placed on wires, with the angle shown beside it if it has one. -/
structure Operation where
  gate : GateKind
  angle : Option String
  isControlled : Bool
  isMeasurement : Bool
  controls : List Wire
  targets : List Wire
deriving Repr, Inhabited, DecidableEq

namespace Operation

/-- A rotation of one qubit by a shown angle. -/
def rotation (gate : GateKind) (target : QubitId) (angle : String) : Operation :=
  ⟨gate, some angle, false, false, [], [.quantum target]⟩

/-- A negation of `target` controlled by `control`. -/
def controlledX (control target : QubitId) : Operation :=
  ⟨.x, none, true, false, [.quantum control], [.quantum target]⟩

/-- A measurement of a qubit into its first result wire. -/
def measure (qubit : QubitId) : Operation :=
  ⟨.measure, none, false, true, [.quantum qubit], [.classical qubit 0]⟩

/-- Every qubit that an operation refers to, controls first. -/
def qubits (op : Operation) : List QubitId :=
  (op.controls ++ op.targets).map Wire.qubit

/-- The texts of wires with a comma and a blank between them. -/
def renderWires (wires : List Wire) : String :=
  ", ".intercalate (wires.map Wire.render)

/-- The text of an operation. -/
def render (op : Operation) : String :=
  op.gate.name
    ++ (match op.angle with
      | none => ""
      | some angle => "(" ++ angle ++ ")")
    ++ (if op.controls.isEmpty then "" else " [" ++ renderWires op.controls ++ "] ->")
    ++ " " ++ renderWires op.targets

end Operation

/-- Why qubits and operations do not form a circuit. -/
inductive CircuitError where
  | danglingQubit (position : Nat) (gate : GateKind) (qubit : QubitId)
  | misnumberedQubit (position : Nat) (found : QubitId)
deriving Repr, Inhabited, DecidableEq

/-- The name of the kind of a violation. -/
def CircuitError.kind : CircuitError → String
  | .danglingQubit _ _ _ => "DanglingQubit"
  | .misnumberedQubit _ _ => "NonContiguousQubit"

/-- The text shown to the user. -/
def CircuitError.message : CircuitError → String
  | .danglingQubit position gate qubit =>
      "Operation " ++ toString position ++ " (" ++ gate.name ++ ") references unknown qubit "
        ++ qubit.render
  | .misnumberedQubit position found =>
      "Qubit at position " ++ toString position ++ " has id " ++ found.render ++ ", expected q"
        ++ toString position

namespace Circuit

/-- The first qubit whose number is not its position; `position` is that of the head. -/
def firstMisnumbered? (position : Nat) : List Qubit → Option CircuitError
  | [] => none
  | q :: rest =>
      if q.id.index.toNat = position then firstMisnumbered? (position + 1) rest
      else some (.misnumberedQubit position q.id)

/-- The first operation that refers to a qubit outside the first `count`; `position` is that of the
head. -/
def firstDangling? (count position : Nat) : List Operation → Option CircuitError
  | [] => none
  | op :: rest =>
      match op.qubits.find? fun q => count ≤ q.index.toNat with
      | some q => some (.danglingQubit position op.gate q)
      | none => firstDangling? count (position + 1) rest

/-- The first violation, qubits before operations. -/
def fault? (qubits : Array Qubit) (operations : Array Operation) : Option CircuitError :=
  match firstMisnumbered? 0 qubits.toList with
  | some e => some e
  | none => firstDangling? qubits.size 0 operations.toList

end Circuit

/-- A circuit: qubits in order and operations in order, free of violations. -/
structure Circuit where
  qubits : Array Qubit
  operations : Array Operation
  valid : Circuit.fault? qubits operations = none
deriving DecidableEq

namespace Circuit

/-- The circuit of the given parts, or the first violation. -/
def ofParts (qubits : Array Qubit) (operations : Array Operation) : Except CircuitError Circuit :=
  match h : fault? qubits operations with
  | some e => .error e
  | none => .ok ⟨qubits, operations, h⟩

/-- The qubit of a number. -/
def qubit? (c : Circuit) (id : QubitId) : Option Qubit :=
  c.qubits[id.index.toNat]?

/-- The number of operations of a kind. -/
def countGate (c : Circuit) (gate : GateKind) : Nat :=
  (c.operations.filter fun op => op.gate == gate).size

end Circuit

end QasmDiagram
