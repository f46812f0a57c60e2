/-
Module: QasmDiagram.Circuit.Encoding
Purpose: Circuits and render requests as JSON values and back. Fields that hold their default are
  left out and taken as the default where they are missing.
Trusted boundary: none
Main exports: Circuit.encode, Circuit.decode, RenderRequest.encode, RenderRequest.decode
-/
import QasmDiagram.Json.Decode
import QasmDiagram.RenderRequest

namespace QasmDiagram

namespace Json

/-- A field that is left out under a condition. -/
def fieldUnless (omitted : Bool) (name : String) (value : Json) : List (String × Json) :=
  if omitted then [] else [(name, value)]

/-- A field that is left out if there is no value. -/
def fieldIfSome (name : String) : Option Json → List (String × Json)
  | none => []
  | some value => [(name, value)]

/-- A part that may be missing. -/
def ifPresent {α : Type} {whole : Json} (content : Json → Except DecodeError α) :
    Option (Part whole) → Except DecodeError (Option α)
  | none => .ok none
  | some part => do return some (← content part.1)

/-- A part with a value for the case that it is missing. -/
def withDefault {α : Type} {whole : Json} (absent : α) (content : Json → Except DecodeError α)
    (part : Option (Part whole)) : Except DecodeError α := do
  return (← ifPresent content part).getD absent

/-- A decoded part that must have been there. -/
def present {α : Type} : Option α → Except DecodeError α
  | some value => .ok value
  | none => .error .malformed

/-- A whole number of 32 bits. -/
def asWord (j : Json) : Except DecodeError UInt32 := do
  return UInt32.ofNat (← asNatBelow UInt32.size j)

/-- A whole number of 32 bits as a value. -/
def ofWord (word : UInt32) : Json :=
  .integer word.toNat

end Json

/-- A qubit's number as a value. -/
def QubitId.encode (id : QubitId) : Json :=
  Json.ofWord id.index

/-- A qubit's number from a value. -/
def QubitId.decode (j : Json) : Except DecodeError QubitId := do
  return ⟨← j.asWord⟩

/-- A qubit as a record. -/
def Qubit.encode (q : Qubit) : Json :=
  .object ([("id", q.id.encode)] ++ Json.fieldIfSome "numChildren" (q.children.map Json.ofWord))

/-- A qubit from a record. -/
def Qubit.decode (j : Json) : Except DecodeError Qubit := do
  let r ← j.parts ["id", "numChildren"]
  let id := Json.ifPresent QubitId.decode (r.part "id")
  let children := Json.optional Json.asWord (r.part "numChildren")
  r.settle [("id", Json.fault? id), ("numChildren", Json.fault? children)]
  return ⟨← Json.present (← id), ← children⟩

/-- The number that stands for a kind of wire. -/
def WireKind.tag : WireKind → Nat
  | .quantum => 0
  | .classical => 1

/-- The kind of wire of a number of eight bits; the numbers above one are refused. -/
def WireKind.decode (j : Json) : Except DecodeError WireKind := do
  match ← Json.asNatBelow 256 j with
  | 0 => return .quantum
  | 1 => return .classical
  | tag => throw (.refused ("unknown register type tag " ++ toString tag))

/-- A wire as a record. -/
def Wire.encode (w : Wire) : Json :=
  .object (Json.fieldUnless (w.kind == .quantum) "type" (.integer w.kind.tag)
    ++ [("qId", w.qubit.encode)]
    ++ Json.fieldIfSome "cId" (w.child.map Json.ofWord))

/-- A wire from a record. -/
def Wire.decode (j : Json) : Except DecodeError Wire := do
  let r ← j.parts ["type", "qId", "cId"]
  let kind := Json.withDefault .quantum WireKind.decode (r.part "type")
  let qubit := Json.ifPresent QubitId.decode (r.part "qId")
  let child := Json.optional Json.asWord (r.part "cId")
  r.settle [("type", Json.fault? kind), ("qId", Json.fault? qubit), ("cId", Json.fault? child)]
  return ⟨← kind, ← Json.present (← qubit), ← child⟩

/-- An operation as a record. -/
def Operation.encode (op : Operation) : Json :=
  .object ([("gate", Json.string op.gate.name)]
    ++ Json.fieldIfSome "displayArgs" (op.angle.map Json.string)
    ++ Json.fieldUnless (!op.isControlled) "isControlled" (.bool op.isControlled)
    ++ Json.fieldUnless (!op.isMeasurement) "isMeasurement" (.bool op.isMeasurement)
    ++ Json.fieldUnless op.controls.isEmpty "controls" (.array (op.controls.map Wire.encode))
    ++ [("targets", .array (op.targets.map Wire.encode))])

/-- An operation from a record. -/
def Operation.decode (j : Json) : Except DecodeError Operation := do
  let r ← j.parts ["gate", "displayArgs", "isControlled", "isMeasurement", "controls", "targets"]
  let gate := Json.ifPresent (Json.choice GateKind.all GateKind.name) (r.part "gate")
  let angle := Json.optional Json.asString (r.part "displayArgs")
  let isControlled := Json.withDefault false Json.asBool (r.part "isControlled")
  let isMeasurement := Json.withDefault false Json.asBool (r.part "isMeasurement")
  let controls := Json.withDefault [] (Json.asList Wire.decode) (r.part "controls")
  let targets := Json.ifPresent (Json.asList Wire.decode) (r.part "targets")
  r.settle [("gate", Json.fault? gate), ("displayArgs", Json.fault? angle),
    ("isControlled", Json.fault? isControlled), ("isMeasurement", Json.fault? isMeasurement),
    ("controls", Json.fault? controls), ("targets", Json.fault? targets)]
  return ⟨← Json.present (← gate), ← angle, ← isControlled, ← isMeasurement, ← controls,
    ← Json.present (← targets)⟩

/-- A circuit as a record. -/
def Circuit.encode (c : Circuit) : Json :=
  .object [("qubits", .array (c.qubits.toList.map Qubit.encode)),
    ("operations", .array (c.operations.toList.map Operation.encode))]

/-- The parts of a circuit from a record, not checked against each other. -/
def Circuit.decodeParts (j : Json) : Except DecodeError (List Qubit × List Operation) := do
  let r ← j.parts ["qubits", "operations"]
  let qubits := Json.ifPresent (Json.asList Qubit.decode) (r.part "qubits")
  let operations := Json.ifPresent (Json.asList Operation.decode) (r.part "operations")
  r.settle [("qubits", Json.fault? qubits), ("operations", Json.fault? operations)]
  return (← Json.present (← qubits), ← Json.present (← operations))

/-- A circuit from a record; parts that violate a rule of circuits are refused. -/
def Circuit.decode (j : Json) : Except DecodeError Circuit := do
  let (qubits, operations) ← decodeParts j
  match Circuit.ofParts qubits.toArray operations.toArray with
  | .ok circuit => return circuit
  | .error e => throw (.refused e.message)

/-- A render request as a record. -/
def RenderRequest.encode (request : RenderRequest) : Json :=
  .object [("circuit", request.circuit.encode), ("style", .string request.style.name)]

/-- A render request from a record. -/
def RenderRequest.decode (j : Json) : Except DecodeError RenderRequest := do
  let r ← j.parts ["circuit", "style"]
  let circuit := Json.ifPresent Circuit.decode (r.part "circuit")
  let style := Json.ifPresent (Json.choice Style.all Style.name) (r.part "style")
  r.settle [("circuit", Json.fault? circuit), ("style", Json.fault? style)]
  return ⟨← Json.present (← circuit), ← Json.present (← style)⟩

end QasmDiagram
