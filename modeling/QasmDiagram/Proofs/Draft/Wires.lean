/-
Module: QasmDiagram.Proofs.Draft.Wires
Purpose: The wires of a finished circuit. An operation has one of three shapes, a qubit has a result
  wire exactly if a measurement names it, and a reference to a result wire never goes astray. The
  marks stand in the registry and the measurements among the operations; what an element can do to
  the two together is said once, as a relation between drafts.
Trusted boundary: none
Main exports: Operation.Shaped, Draft.Step, Draft.element_step, Draft.Tallied, Draft.Step.tallied,
  Draft.elements_tallied, Program.circuit_result_wires
-/
import QasmDiagram.Proofs.Draft

namespace QasmDiagram

@[simp] theorem Registry.idAt_index (id : QubitId) : idAt id.index.toNat = id := by
  simp [idAt]

@[simp] theorem Operation.measure_inj {id id' : QubitId} : measure id = measure id' ↔ id = id' := by
  simp [measure, Wire.quantum, Wire.classical]

/-! ### The shapes of operations -/

/-- The three shapes of an operation, field by field: a rotation of a plain qubit with an angle, a
negation of a plain qubit controlled by another, and a measurement of a plain qubit into the first
result wire of the same qubit. -/
inductive Operation.Shaped : Operation → Prop where
  | rotation {gate : GateKind} (angle : String) (target : QubitId) : gate = .rz ∨ gate = .rx →
      Shaped ⟨gate, some angle, false, false, [], [⟨.quantum, target, none⟩]⟩
  | negation (control target : QubitId) :
      Shaped ⟨.x, none, true, false, [⟨.quantum, control, none⟩], [⟨.quantum, target, none⟩]⟩
  | measurement (qubit : QubitId) :
      Shaped ⟨.measure, none, false, true, [⟨.quantum, qubit, none⟩],
        [⟨.classical, qubit, some 0⟩]⟩

namespace Operation.Shaped

variable {op : Operation}

/-- An operation of the three shapes that measures is the measurement of each qubit it names. -/
theorem measures_iff (h : op.Shaped) {id : QubitId} :
    op.gate = .measure ∧ id ∈ op.qubits ↔ op = .measure id := by
  cases h with
  | rotation angle target hgate => rcases hgate with rfl | rfl <;> simp [measure]
  | negation control target => simp [measure]
  | measurement qubit => simp [measure, Operation.qubits, Wire.quantum, Wire.classical, eq_comm]

/-- An operation of the three shapes that measures is a measurement of some qubit. -/
theorem exists_eq_measure (h : op.Shaped) (measures : op.gate = .measure) :
    ∃ id, op = .measure id := by
  cases h with
  | rotation angle target hgate => rcases hgate with rfl | rfl <;> simp at measures
  | negation control target => simp at measures
  | measurement qubit => exact ⟨qubit, rfl⟩

/-- The only result wire that an operation of the three shapes refers to is the one into which a
measurement goes. -/
theorem eq_of_mem_wires (h : op.Shaped) {w : Wire} (hw : w ∈ op.controls ++ op.targets)
    (result : w.kind = .classical ∨ w.child.isSome) :
    op = .measure w.qubit ∧ w.child = some 0 := by
  cases h with
  | rotation angle target _ =>
      obtain rfl : w = ⟨.quantum, target, none⟩ := by simpa using hw
      simp at result
  | negation control target =>
      have either : w = ⟨.quantum, control, none⟩ ∨ w = ⟨.quantum, target, none⟩ := by
        simpa using hw
      rcases either with rfl | rfl
      all_goals simp at result
  | measurement qubit =>
      have either : w = ⟨.quantum, qubit, none⟩ ∨ w = ⟨.classical, qubit, some 0⟩ := by
        simpa using hw
      rcases either with rfl | rfl
      · simp at result
      · exact ⟨rfl, rfl⟩

end Operation.Shaped

namespace Draft

variable {config : LowerConfig} {d d' : Draft}

/-! ### What an element can do -/

/-- The changes that an element can make: none, a new register, or an operation on resolved
operands, which marks the qubit if it measures. Measurements need the consent of the configuration. -/
inductive Step (config : LowerConfig) (d : Draft) : Draft → Prop where
  | idle : Step config d d
  | register (name : String) (binding : Binding) (count : Nat) :
      Step config d ⟨⟨Registry.addQubits count d.registry.qubits,
        d.registry.bindings.insert name binding⟩, d.operations⟩
  | rotate {gate : GateKind} (angle : String) (target : QubitId) : gate = .rz ∨ gate = .rx →
      Step config d { d with operations := d.operations.push (.rotation gate target angle) }
  | negate (control target : QubitId) :
      Step config d { d with operations := d.operations.push (.controlledX control target) }
  | measure {operand : Operand} {qubit : QubitId} : config.measurement = true →
      d.registry.resolveOperand operand = .ok qubit →
      Step config d ⟨d.registry.markMeasured qubit, d.operations.push (.measure qubit)⟩

theorem declare_step {declaration : Declaration} (h : d.declare declaration = .ok d') :
    Step config d d' := by
  rcases declare_eq_ok_iff.mp h with ⟨_, rfl⟩ | ⟨_, count, _, _, _, rfl⟩
  · exact .idle
  · exact .register _ _ count

theorem gateCall_step {call : GateCall} (h : d.gateCall config call = .ok d') :
    Step config d d' := by
  rcases Except.bind_eq_ok_iff.mp h with ⟨op, hop, hd'⟩
  cases hd'
  rcases operationOf_eq_ok_iff.mp hop with ⟨_, _, ⟨kind, hkind, hrotation⟩ | ⟨_, hnegation⟩⟩
  · rcases rotation_eq_ok_iff.mp hrotation with ⟨_, _, target, text, _, _, _, _, rfl⟩
    exact .rotate text target (hkind.imp (fun rz => rz.2) (fun rx => rx.2))
  · rcases controlledX_eq_ok_iff.mp hnegation with ⟨_, _, control, target, _, _, _, _, rfl⟩
    exact .negate control target

theorem assign_step {a : Assignment} (h : d.assign config a = .ok d') : Step config d d' := by
  rcases Except.bind_eq_ok_iff.mp h with ⟨qubit, hqubit, hd'⟩
  cases hd'
  rcases measuredQubit_eq_ok_iff.mp hqubit with ⟨enabled, _, operand, _, hoperand⟩
  exact .measure enabled hoperand

/-- An element that is carried out makes one of the changes. -/
theorem element_step {position : Nat} {e : Element} (h : d.element config position e = .ok d') :
    Step config d d' := by
  unfold element at h
  split at h
  · split at h
    · simp at h
    · split at h
      · cases h
        exact .idle
      · simp at h
  · rename_i s
    cases s with
    | inclusion path =>
        cases h
        exact .idle
    | declaration declaration => exact declare_step h
    | gateCall call => exact gateCall_step h
    | assignment a => exact assign_step h
    | kept rule text => simp [statement] at h
  · simp at h
  · simp at h

/-! ### Marks and measurements -/

/-- The marks tally with the measurements: a qubit has one result wire if it is measured by an
operation, else none, and nothing is measured without consent. -/
structure Tallied (config : LowerConfig) (d : Draft) : Prop where
  shaped : ∀ op ∈ d.operations, op.Shaped
  marked : ∀ q ∈ d.registry.qubits,
    q.children = if .measure q.id ∈ d.operations then some 1 else none
  allowed : ∀ id, .measure id ∈ d.operations → config.measurement = true

theorem tallied_empty : Tallied config empty where
  shaped := by simp [empty]
  marked := by simp [empty, Registry.empty]
  allowed := by simp [empty]

/-- An operation that does not measure changes no tally. -/
theorem Tallied.push (h : Tallied config d) {op : Operation} (shaped : op.Shaped)
    (other : ∀ id, op ≠ .measure id) :
    Tallied config { d with operations := d.operations.push op } where
  shaped := by
    intro op' hop'
    rcases Array.mem_push.mp hop' with earlier | rfl
    · exact h.shaped op' earlier
    · exact shaped
  marked := by
    intro q hq
    rw [h.marked q hq]
    simp [Array.mem_push, (other q.id).symm]
  allowed := by
    intro id hid
    rcases Array.mem_push.mp hid with earlier | new
    · exact h.allowed id earlier
    · exact absurd new.symm (other id)

/-- Fresh qubits have no result wire, and no operation names them yet. -/
theorem Tallied.register (h : Tallied config d) (sound : d.Sound) {count : Nat}
    {bindings : Std.HashMap String Binding}
    (fits : d.registry.size + count ≤ UInt32.size) :
    Tallied config ⟨⟨Registry.addQubits count d.registry.qubits, bindings⟩, d.operations⟩ where
  shaped := h.shaped
  marked := by
    intro q hq
    obtain ⟨k, hk⟩ := Array.mem_iff_getElem?.mp hq
    by_cases old : k < d.registry.qubits.size
    · rw [Registry.getElem?_addQubits_of_lt old] at hk
      exact h.marked q (Array.mem_of_getElem? hk)
    · have inside : k < d.registry.size + count := by
        simpa [Registry.size] using (Array.getElem?_eq_some_iff.mp hk).1
      obtain rfl := Registry.getElem?_addQubits_of_ge (Nat.le_of_not_lt old) hk
      have unnamed : Operation.measure (Registry.idAt k) ∉ d.operations := by
        intro named
        have known := sound.known _ named (Registry.idAt k)
          (by simp [Operation.measure, Operation.qubits, Wire.quantum])
        rw [Registry.idAt_toNat (by omega)] at known
        exact old known
      simp [Qubit.fresh, unnamed]
  allowed := h.allowed

/-- A measurement marks the qubit that it names, and no other. -/
theorem Tallied.measure (h : Tallied config d) (sound : d.Sound) {qubit : QubitId}
    (enabled : config.measurement = true) :
    Tallied config ⟨d.registry.markMeasured qubit, d.operations.push (.measure qubit)⟩ where
  shaped := by
    intro op hop
    rcases Array.mem_push.mp hop with earlier | rfl
    · exact h.shaped op earlier
    · exact .measurement qubit
  marked := by
    intro q hq
    obtain ⟨k, hk⟩ := Array.mem_iff_getElem?.mp hq
    rw [Registry.getElem?_markMeasured] at hk
    split at hk
    · rename_i here
      obtain ⟨before, hbefore, rfl⟩ := Option.map_eq_some_iff.mp hk
      have named : before.id = qubit := by
        rw [sound.registry.numbered k before hbefore, ← here, Registry.idAt_index]
      simp [Qubit.measured, named]
    · rename_i elsewhere
      have other : q.id ≠ qubit := by
        rintro rfl
        have inside : k < d.registry.size := (Array.getElem?_eq_some_iff.mp hk).1
        rw [sound.registry.numbered k q hk, Registry.idAt_toNat] at elsewhere
        · exact elsewhere rfl
        · exact Nat.lt_of_lt_of_le inside sound.registry.bounded
      rw [h.marked q (Array.mem_of_getElem? hk)]
      simp [Array.mem_push, other]
  allowed := fun _ _ => enabled

/-- Every change keeps the tally. -/
theorem Step.tallied (step : Step config d d') (h : Tallied config d) (sound : d.Sound)
    (sound' : d'.Sound) : Tallied config d' := by
  cases step with
  | idle => exact h
  | register name binding count =>
      refine h.register sound ?_
      simpa [Registry.size] using sound'.registry.bounded
  | rotate angle target hgate =>
      refine h.push (.rotation angle target hgate) fun id => ?_
      rcases hgate with rfl | rfl <;> simp [Operation.rotation, Operation.measure]
  | negate control target =>
      refine h.push (.negation control target) fun id => ?_
      simp [Operation.controlledX, Operation.measure]
  | measure enabled _ => exact h.measure sound enabled

/-- Elements that are carried out in order keep the tally. -/
theorem elements_tallied {body : List Element} {position : Nat} (h : Tallied config d)
    (sound : d.Sound) (hbody : d.elements config position body = .ok d') : Tallied config d' := by
  induction body generalizing d position with
  | nil =>
      cases hbody
      exact h
  | cons e body ih =>
      rw [elements_cons] at hbody
      rcases Except.bind_eq_ok_iff.mp hbody with ⟨next, hnext, hrest⟩
      have sound' := element_sound sound hnext
      exact ih ((element_step hnext).tallied h sound sound') sound' hrest

/-- The operations that measure a qubit are its measurement. -/
theorem Tallied.named_iff (h : Tallied config d) {id : QubitId} :
    (∃ op ∈ d.operations, op.gate = .measure ∧ id ∈ op.qubits) ↔ .measure id ∈ d.operations := by
  constructor
  · rintro ⟨op, hop, measures⟩
    exact (h.shaped op hop).measures_iff.mp measures ▸ hop
  · intro hop
    exact ⟨_, hop, (h.shaped _ hop).measures_iff.mpr rfl⟩

/-- Without consent no operation is a measurement. -/
theorem Tallied.not_mem_of_disabled (h : Tallied config d) (disabled : config.measurement = false)
    (id : QubitId) : .measure id ∉ d.operations := by
  intro hid
  have enabled := h.allowed id hid
  simp [disabled] at enabled

end Draft

/-! ### Finished circuits -/

/-- A result wire of a qubit that exists, with a number below that of its result wires. -/
def Wire.Attached (circuit : Circuit) (w : Wire) : Prop :=
  ∃ child q count, w.child = some child ∧ circuit.qubit? w.qubit = some q ∧ q.id = w.qubit ∧
    q.children = some count ∧ child < count

/-- In a circuit with the qubits of a sound draft that tallies, a reference to a result wire leads to
the one wire of a qubit that is measured. -/
theorem Draft.Tallied.attached {config : LowerConfig} {d : Draft} {circuit : Circuit}
    (h : Tallied config d) (sound : d.Sound) (hqubits : circuit.qubits = d.registry.qubits)
    {op : Operation} (hop : op ∈ d.operations) {w : Wire} (hw : w ∈ op.controls ++ op.targets)
    (result : w.kind = .classical ∨ w.child.isSome) : w.Attached circuit := by
  obtain ⟨rfl, hchild⟩ := (h.shaped op hop).eq_of_mem_wires hw result
  have inside := sound.known _ hop w.qubit
    (by simp [Operation.measure, Operation.qubits, Wire.quantum])
  obtain ⟨q, hq⟩ : ∃ q, d.registry.qubits[w.qubit.index.toNat]? = some q :=
    ⟨_, Array.getElem?_eq_getElem inside⟩
  have hid : q.id = w.qubit := by
    rw [sound.registry.numbered _ q hq, Registry.idAt_index]
  have count : q.children = some 1 := by
    rw [h.marked q (Array.mem_of_getElem? hq), hid, if_pos hop]
  exact ⟨0, q, 1, hchild, by rw [Circuit.qubit?, hqubits, hq], hid, count, by decide⟩

/-- A finished draft is a circuit of the same qubits and operations. -/
theorem Draft.eq_of_finish {d : Draft} {circuit : Circuit} (h : d.finish = .ok circuit) :
    circuit.qubits = d.registry.qubits ∧ circuit.operations = d.operations := by
  unfold Draft.finish at h
  split at h
  · rename_i parts hparts
    cases h
    unfold Circuit.ofParts at hparts
    split at hparts
    · simp at hparts
    · cases hparts
      exact ⟨rfl, rfl⟩
  · simp at h

/-- The circuit of a program is the finished draft of its elements. -/
theorem Program.exists_draft_of_circuit {config : LowerConfig} {program : Program}
    {circuit : Circuit} (h : program.circuit config = .ok circuit) :
    ∃ d : Draft, Draft.empty.elements config 0 program.children.dropLast = .ok d ∧
      circuit.qubits = d.registry.qubits ∧ circuit.operations = d.operations := by
  unfold Program.circuit at h
  split at h
  · split at h
    · rename_i d hd
      exact ⟨d, hd, Draft.eq_of_finish h⟩
    · simp at h
  · simp at h
  · simp at h

/-- In every circuit that is made of a program, operations have the three shapes, exactly the qubits
that a measurement names have a result wire, one each, and references to result wires lead to one.
Without consent nothing is measured. -/
theorem Program.circuit_result_wires {config : LowerConfig} {program : Program}
    {circuit : Circuit} (h : program.circuit config = .ok circuit) :
    (∀ op ∈ circuit.operations, op.Shaped) ∧
    (∀ q ∈ circuit.qubits,
      (q.children.isSome ↔ ∃ op ∈ circuit.operations, op.gate = .measure ∧ q.id ∈ op.qubits) ∧
      ∀ count, q.children = some count → count = 1) ∧
    (∀ op ∈ circuit.operations, ∀ w ∈ op.controls ++ op.targets,
      w.kind = .classical ∨ w.child.isSome → w.Attached circuit) ∧
    (config.measurement = false →
      (∀ op ∈ circuit.operations, op.gate ≠ .measure) ∧
      ∀ q ∈ circuit.qubits, q.children = none) := by
  obtain ⟨d, hd, hqubits, hoperations⟩ := Program.exists_draft_of_circuit h
  have sound := Draft.elements_sound Draft.sound_empty hd
  have tallied := Draft.elements_tallied Draft.tallied_empty Draft.sound_empty hd
  simp only [hqubits, hoperations]
  refine ⟨tallied.shaped, ?_, ?_, ?_⟩
  · intro q hq
    rw [tallied.named_iff, tallied.marked q hq]
    split <;> simp_all
  · intro op hop w hw result
    exact tallied.attached sound hqubits hop hw result
  · intro disabled
    constructor
    · intro op hop measures
      obtain ⟨id, rfl⟩ := (tallied.shaped op hop).exists_eq_measure measures
      exact tallied.not_mem_of_disabled disabled id hop
    · intro q hq
      rw [tallied.marked q hq, if_neg (tallied.not_mem_of_disabled disabled q.id)]

/-- Two registers without a size, one of which is measured before and after gates on it. -/
def Program.measuredTwice : Program :=
  ⟨[.item (.statement (.declaration ⟨⟨.qreg, "qreg"⟩, "a", none⟩)),
    .item (.statement (.declaration ⟨⟨.qreg, "qreg"⟩, "b", none⟩)),
    .item (.statement (.assignment
      ⟨⟨"c", []⟩, ⟨.equals, "="⟩, .measure (.indexed ⟨"b", []⟩)⟩)),
    .item (.statement (.gateCall
      ⟨[], "rx", some [.literal ⟨.identifier, "pi"⟩], none, [.indexed ⟨"a", []⟩]⟩)),
    .item (.statement (.gateCall
      ⟨[], "cx", none, none, [.indexed ⟨"b", []⟩, .indexed ⟨"a", []⟩]⟩)),
    .item (.statement (.assignment
      ⟨⟨"c", []⟩, ⟨.equals, "="⟩, .measure (.indexed ⟨"b", []⟩)⟩)),
    .endOfInput]⟩

/-- A qubit that is measured twice has one result wire, to which both measurements lead. -/
theorem Program.circuit_result_wires_measuredTwice :
    ∃ circuit, measuredTwice.circuit ⟨.symbolic, true⟩ = .ok circuit ∧
      circuit.qubits = #[⟨⟨0⟩, none⟩, ⟨⟨1⟩, some 1⟩] ∧
      circuit.countGate .measure = 2 ∧
      (∀ op ∈ circuit.operations, op.Shaped) ∧
      ∀ op ∈ circuit.operations, ∀ w ∈ op.controls ++ op.targets,
        w.kind = .classical ∨ w.child.isSome → w.Attached circuit := by
  have placed : measuredTwice.circuit ⟨.symbolic, true⟩ =
      .ok ⟨#[⟨⟨0⟩, none⟩, ⟨⟨1⟩, some 1⟩],
        #[.measure ⟨1⟩, .rotation .rx ⟨0⟩ "π", .controlledX ⟨1⟩ ⟨0⟩, .measure ⟨1⟩],
        by decide⟩ := by
    cbv
  have wires := circuit_result_wires placed
  exact ⟨_, placed, rfl, rfl, wires.1, wires.2.2.1⟩

end QasmDiagram
