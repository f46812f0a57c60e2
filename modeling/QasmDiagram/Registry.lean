/-
Module: QasmDiagram.Registry
Purpose: The qubits declared so far and the names of the registers that hold them.
Trusted boundary: none
Main exports: Binding, Registry, Registry.declareScalar, Registry.declareArray, Registry.resolve,
  Registry.markMeasured
-/
import Std.Data.HashMap
import QasmDiagram.LowerError

namespace QasmDiagram

/-- What a register's name stands for: one qubit, or `size` consecutive ones. -/
inductive Binding where
  | scalar (id : QubitId)
  | array (first size : Nat)
deriving Repr, Inhabited, DecidableEq

/-- The qubits in the order of their numbers, and the registers. -/
structure Registry where
  qubits : Array Qubit
  bindings : Std.HashMap String Binding

namespace Registry

/-- No qubits and no registers. -/
def empty : Registry :=
  ⟨#[], ∅⟩

/-- The number of qubits. -/
def size (r : Registry) : Nat :=
  r.qubits.size

/-- The number of the qubit at a position. -/
def idAt (position : Nat) : QubitId :=
  ⟨UInt32.ofNat position⟩

/-- Adds a fresh qubit with the next number. -/
def addQubit (qubits : Array Qubit) : Array Qubit :=
  qubits.push (.fresh (idAt qubits.size))

/-- Adds fresh qubits with the next numbers. -/
def addQubits (count : Nat) (qubits : Array Qubit) : Array Qubit :=
  match count with
  | 0 => qubits
  | count + 1 => addQubits count (addQubit qubits)

/-- A fresh qubit that no register holds. -/
def allocate (r : Registry) : QubitId × Registry :=
  (idAt r.size, { r with qubits := addQubit r.qubits })

/-- Whether a register of the name is declared. -/
def contains (r : Registry) (name : String) : Bool :=
  r.bindings.contains name

/-- Refuses a name that is taken, and then a count that would exceed the limit. The difference is
exact, since there are never more qubits than the limit as long as single allocations keep within
it. -/
def checkFresh (r : Registry) (name : String) (count : Nat) : Except LowerError Unit :=
  if r.contains name then .error (.duplicateDeclaration name)
  else if qubitLimit - r.size < count then .error (.invalidSize (.overLimit name count))
  else .ok ()

/-- Declares a register of one qubit, which is used without an index. -/
def declareScalar (r : Registry) (name : String) : Except LowerError (QubitId × Registry) := do
  r.checkFresh name 1
  let (id, r) := r.allocate
  return (id, { r with bindings := r.bindings.insert name (.scalar id) })

/-- Declares a register of `count` qubits, which is used with an index. The answer holds the
position of the first. -/
def declareArray (r : Registry) (name : String) (count : Nat) :
    Except LowerError (Nat × Registry) := do
  r.checkFresh name count
  let ⟨qubits, bindings⟩ := r
  let first := qubits.size
  return (first, ⟨addQubits count qubits, bindings.insert name (.array first count)⟩)

/-- The qubit that a register and an index name. -/
def resolve (r : Registry) (name : String) (index : Option Nat) : Except LowerError QubitId :=
  match r.bindings[name]?, index with
  | none, _ => .error (.undeclaredRegister name)
  | some (.scalar id), none => .ok id
  | some (.scalar _), some i => .error (.invalidIndex name (.indexedScalar i))
  | some (.array first size), some i =>
      if i < size then .ok (idAt (first + i))
      else .error (.invalidIndex name (.outOfBounds i size))
  | some (.array _ size), none => .error (.invalidIndex name (.missing size))

/-- Records a result wire on a qubit; a number that no qubit has changes nothing. -/
def markMeasured (r : Registry) (id : QubitId) : Registry :=
  { r with qubits := r.qubits.modify id.index.toNat Qubit.measured }

end Registry

end QasmDiagram
