/-
Module: QasmDiagram.Proofs.Circuit.RoundTrip
Purpose: Circuits and render requests are read back from their texts: each type's encoding is
  faithful, from the numbers of qubits up to whole requests.
Trusted boundary: none
Main exports: Qubit.faithful, Wire.faithful, Operation.faithful, Circuit.faithful,
  RenderRequest.faithful, RenderRequest.read_render
-/
import QasmDiagram.Proofs.Circuit.Validity
import QasmDiagram.Proofs.Json.Faithful

namespace QasmDiagram

open Json

theorem QubitId.faithful {room : Nat} : Faithful room QubitId.encode QubitId.decode where
  decoded id := by
    rw [QubitId.decode, QubitId.encode, asWord_ofWord]
    rfl
  legible id := Faithful.word.legible id.index

theorem QubitId.decode_encode (id : QubitId) : QubitId.decode id.encode = .ok id :=
  (QubitId.faithful : Faithful 0 _ _).decoded id

theorem ofWord_ne_null (word : UInt32) : ofWord word ≠ .null := by
  simp [ofWord]

namespace Qubit

/-- The rows of a qubit's record. -/
def rows (q : Qubit) : List (String × Option Json) :=
  [("id", some q.id.encode), ("numChildren", q.children.map ofWord)]

theorem encode_eq (q : Qubit) : q.encode = .object (fieldsOf q.rows) := by
  simp [encode, fieldsOf, rows, fieldIfSome]

theorem distinct_rows (q : Qubit) : (q.rows.map Prod.fst).Nodup :=
  (by decide : ["id", "numChildren"].Nodup)

theorem decode_encode (q : Qubit) : decode q.encode = .ok q := by
  have id : ifPresent QubitId.decode (fieldPart? "id" (fieldsOf q.rows)) = .ok (some q.id) :=
    ifPresent_row q.distinct_rows rfl q.id.decode_encode
  have children : optional asWord (fieldPart? "numChildren" (fieldsOf q.rows)) = .ok q.children :=
    optional_row q.distinct_rows rfl asWord_ofWord ofWord_ne_null
  rw [encode_eq]
  simp only [decode, Json.parts, bind, Except.bind, id, children, fault?, present]
  rw [Parts.settle_eq rfl (by simp)]
  rfl

theorem faithful {room : Nat} : Faithful (room + 1) encode decode where
  decoded := decode_encode
  legible q := by
    rw [encode_eq]
    exact .record q.distinct_rows
      (.cons (QubitId.faithful.legible_of_mem (some q.id))
        (.cons (Faithful.word.legible_of_mem q.children) .nil))

end Qubit

theorem WireKind.decode_tag (kind : WireKind) : decode (.integer kind.tag) = .ok kind := by
  cases kind <;> rfl

namespace Wire

/-- The rows of a wire's record. -/
def rows (w : Wire) : List (String × Option Json) :=
  [("type", if w.kind == .quantum then none else some (.integer w.kind.tag)),
    ("qId", some w.qubit.encode), ("cId", w.child.map ofWord)]

theorem encode_eq (w : Wire) : w.encode = .object (fieldsOf w.rows) := by
  simp [encode, fieldsOf, rows, fieldUnless_eq, fieldIfSome]

theorem distinct_rows (w : Wire) : (w.rows.map Prod.fst).Nodup :=
  (by decide : ["type", "qId", "cId"].Nodup)

theorem decode_encode (w : Wire) : decode w.encode = .ok w := by
  have kind : withDefault .quantum WireKind.decode (fieldPart? "type" (fieldsOf w.rows)) =
      .ok w.kind := by
    refine withDefault_row w.distinct_rows rfl ?_ w.kind.decode_tag
    exact eq_of_beq
  have qubit : ifPresent QubitId.decode (fieldPart? "qId" (fieldsOf w.rows)) =
      .ok (some w.qubit) :=
    ifPresent_row w.distinct_rows rfl w.qubit.decode_encode
  have child : optional asWord (fieldPart? "cId" (fieldsOf w.rows)) = .ok w.child :=
    optional_row w.distinct_rows rfl asWord_ofWord ofWord_ne_null
  rw [encode_eq]
  simp only [decode, Json.parts, bind, Except.bind, kind, qubit, child, fault?, present]
  rw [Parts.settle_eq rfl (by simp)]
  rfl

theorem faithful {room : Nat} : Faithful (room + 1) encode decode where
  decoded := decode_encode
  legible w := by
    have kind : Legible room (.integer w.kind.tag) := .natural (by cases w.kind <;> decide)
    rw [encode_eq]
    exact .record w.distinct_rows
      (.consUnless kind
        (.cons (QubitId.faithful.legible_of_mem (some w.qubit))
          (.cons (Faithful.word.legible_of_mem w.child) .nil)))

end Wire

namespace Operation

/-- The rows of an operation's record. -/
def rows (op : Operation) : List (String × Option Json) :=
  [("gate", some (.string op.gate.name)), ("displayArgs", op.angle.map .string),
    ("isControlled", if !op.isControlled then none else some (.bool op.isControlled)),
    ("isMeasurement", if !op.isMeasurement then none else some (.bool op.isMeasurement)),
    ("controls", if op.controls.isEmpty then none else some (.array (op.controls.map Wire.encode))),
    ("targets", some (.array (op.targets.map Wire.encode)))]

theorem encode_eq (op : Operation) : op.encode = .object (fieldsOf op.rows) := by
  simp only [encode, fieldsOf, rows, fieldUnless_eq, List.flatMap_cons, List.flatMap_nil,
    List.append_assoc, List.append_nil]
  rfl

theorem distinct_rows (op : Operation) : (op.rows.map Prod.fst).Nodup :=
  (by decide : ["gate", "displayArgs", "isControlled", "isMeasurement", "controls",
    "targets"].Nodup)

/-- Each kind of operation is found by its name. -/
theorem gateFaithful {room : Nat} : Faithful room (fun gate : GateKind => .string gate.name)
    (Json.choice GateKind.all GateKind.name) :=
  .choice fun gate => by cases gate <;> rfl

theorem decode_encode (op : Operation) : decode op.encode = .ok op := by
  have wires : Faithful 2 (fun xs => .array (xs.map Wire.encode)) (asList Wire.decode) :=
    Wire.faithful.list
  have gate : ifPresent (Json.choice GateKind.all GateKind.name)
      (fieldPart? "gate" (fieldsOf op.rows)) = .ok (some op.gate) :=
    ifPresent_row op.distinct_rows rfl ((gateFaithful : Faithful 0 _ _).decoded op.gate)
  have angle : optional asString (fieldPart? "displayArgs" (fieldsOf op.rows)) = .ok op.angle :=
    optional_row op.distinct_rows rfl (fun _ => rfl) (by simp)
  have isControlled : withDefault false asBool (fieldPart? "isControlled" (fieldsOf op.rows)) =
      .ok op.isControlled :=
    withDefault_row op.distinct_rows rfl (by simp) rfl
  have isMeasurement : withDefault false asBool (fieldPart? "isMeasurement" (fieldsOf op.rows)) =
      .ok op.isMeasurement :=
    withDefault_row op.distinct_rows rfl (by simp) rfl
  have controls : withDefault [] (asList Wire.decode) (fieldPart? "controls" (fieldsOf op.rows)) =
      .ok op.controls :=
    withDefault_row op.distinct_rows rfl (by simp) (wires.decoded op.controls)
  have targets : ifPresent (asList Wire.decode) (fieldPart? "targets" (fieldsOf op.rows)) =
      .ok (some op.targets) :=
    ifPresent_row op.distinct_rows rfl (wires.decoded op.targets)
  rw [encode_eq]
  simp only [decode, Json.parts, bind, Except.bind, gate, angle, isControlled, isMeasurement,
    controls, targets, fault?, present]
  rw [Parts.settle_eq rfl (by simp)]
  rfl

theorem faithful {room : Nat} : Faithful (room + 3) encode decode where
  decoded := decode_encode
  legible op := by
    have wires : Faithful (room + 2) (fun xs => .array (xs.map Wire.encode)) (asList Wire.decode) :=
      Wire.faithful.list
    rw [encode_eq]
    exact .record op.distinct_rows
      (.cons (gateFaithful.legible_of_mem (some op.gate))
        (.cons (Faithful.string.legible_of_mem op.angle)
          (.consUnless (.bool op.isControlled)
            (.consUnless (.bool op.isMeasurement)
              (.consUnless (wires.legible op.controls)
                (.cons (wires.legible_of_mem (some op.targets)) .nil))))))

end Operation

namespace Circuit

/-- The rows of a circuit's record. -/
def rows (c : Circuit) : List (String × Option Json) :=
  [("qubits", some (.array (c.qubits.toList.map Qubit.encode))),
    ("operations", some (.array (c.operations.toList.map Operation.encode)))]

theorem encode_eq (c : Circuit) : c.encode = .object (fieldsOf c.rows) := rfl

theorem distinct_rows (c : Circuit) : (c.rows.map Prod.fst).Nodup :=
  (by decide : ["qubits", "operations"].Nodup)

theorem qubitsFaithful {room : Nat} :
    Faithful (room + 2) (fun xs => .array (xs.map Qubit.encode)) (asList Qubit.decode) :=
  Qubit.faithful.list

theorem operationsFaithful {room : Nat} :
    Faithful (room + 4) (fun xs => .array (xs.map Operation.encode)) (asList Operation.decode) :=
  Operation.faithful.list

theorem decodeParts_encode (c : Circuit) :
    decodeParts c.encode = .ok (c.qubits.toList, c.operations.toList) := by
  have qubits : ifPresent (asList Qubit.decode) (fieldPart? "qubits" (fieldsOf c.rows)) =
      .ok (some c.qubits.toList) :=
    ifPresent_row c.distinct_rows rfl ((qubitsFaithful : Faithful 2 _ _).decoded c.qubits.toList)
  have operations : ifPresent (asList Operation.decode)
      (fieldPart? "operations" (fieldsOf c.rows)) = .ok (some c.operations.toList) :=
    ifPresent_row c.distinct_rows rfl
      ((operationsFaithful : Faithful 4 _ _).decoded c.operations.toList)
  rw [encode_eq]
  simp only [decodeParts, Json.parts, bind, Except.bind, qubits, operations, Json.fault?,
    present]
  rw [Parts.settle_eq rfl (by simp)]
  rfl

theorem faithful {room : Nat} : Faithful (room + 5) encode decode where
  decoded c := by
    simp only [decode, decodeParts_encode, bind, Except.bind, Array.toArray_toList,
      ofParts_eq_ok_iff.mpr ⟨rfl, rfl⟩]
    rfl
  legible c := by
    rw [encode_eq]
    exact .record c.distinct_rows
      (.cons (qubitsFaithful.legible_of_mem (some c.qubits.toList))
        (.cons (operationsFaithful.legible_of_mem (some c.operations.toList)) .nil))

end Circuit

namespace RenderRequest

/-- The rows of a render request's record. -/
def rows (request : RenderRequest) : List (String × Option Json) :=
  [("circuit", some request.circuit.encode), ("style", some (.string request.style.name))]

theorem encode_eq (request : RenderRequest) : request.encode = .object (fieldsOf request.rows) :=
  rfl

theorem distinct_rows (request : RenderRequest) : (request.rows.map Prod.fst).Nodup :=
  (by decide : ["circuit", "style"].Nodup)

/-- Each style is found by its name. -/
theorem styleFaithful {room : Nat} : Faithful room (fun style : Style => .string style.name)
    (Json.choice Style.all Style.name) :=
  .choice fun style => by cases style <;> rfl

theorem decode_encode (request : RenderRequest) : decode request.encode = .ok request := by
  have circuit : ifPresent Circuit.decode (fieldPart? "circuit" (fieldsOf request.rows)) =
      .ok (some request.circuit) :=
    ifPresent_row request.distinct_rows rfl
      ((Circuit.faithful : Faithful 5 _ _).decoded request.circuit)
  have style : ifPresent (Json.choice Style.all Style.name)
      (fieldPart? "style" (fieldsOf request.rows)) = .ok (some request.style) :=
    ifPresent_row request.distinct_rows rfl
      ((styleFaithful : Faithful 0 _ _).decoded request.style)
  rw [encode_eq]
  simp only [decode, Json.parts, bind, Except.bind, circuit, style, fault?, present]
  rw [Parts.settle_eq rfl (by simp)]
  rfl

theorem faithful {room : Nat} : Faithful (room + 6) encode decode where
  decoded := decode_encode
  legible request := by
    rw [encode_eq]
    exact .record request.distinct_rows
      (.cons (Circuit.faithful.legible_of_mem (some request.circuit))
        (.cons (styleFaithful.legible_of_mem (some request.style)) .nil))

/-- A render request is read back from its text in either layout, and its circuit from the
circuit's own text. -/
theorem read_render (request : RenderRequest) :
    (∀ layout : Layout, (Json.ofText? (request.encode.render layout)).map decode =
      some (.ok request)) ∧
    (Json.ofText? request.circuit.encode.compact).map Circuit.decode = some (.ok request.circuit) :=
  ⟨fun layout => faithful.text (by decide : 0 + 6 ≤ openLimit) layout request,
    Circuit.faithful.text (by decide : 0 + 5 ≤ openLimit) .compact request.circuit⟩

end RenderRequest

end QasmDiagram
