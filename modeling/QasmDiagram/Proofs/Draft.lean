/-
Module: QasmDiagram.Proofs.Draft
Purpose: Drafts stay fit to be circuits: whatever calls are made in whatever order, refused ones
  among them, qubits are numbered by position, operations use qubits that exist, and measured qubits
  are marked.
Trusted boundary: none
Main exports: Registry.resolveOperand_eq_ok_iff, Draft.operationOf_eq_ok_iff,
  Draft.measuredQubit_eq_ok_iff, Draft.Sound, Draft.AllocatesWithin, Draft.attempt_sound,
  Draft.afterCalls_sound, Draft.elements_sound
-/
import QasmDiagram.Draft
import QasmDiagram.Proofs.Circuit.Validity
import QasmDiagram.Proofs.Registry

namespace QasmDiagram

/-! ### What single operations do -/

/-- The operands that stand for a qubit. -/
theorem Registry.resolveOperand_eq_ok_iff {r : Registry} {operand : Operand} {id : QubitId} :
    r.resolveOperand operand = .ok id ↔
      ∃ name, (operand = .indexed ⟨name, []⟩ ∧ r.resolve name none = .ok id) ∨
        ∃ e value i, operand = .indexed ⟨name, [.expressions [e]]⟩ ∧ e.evaluate = .ok value ∧
          value.asIndex? = some i ∧ r.resolve name (some i) = .ok id := by
  constructor
  · intro h
    unfold resolveOperand at h
    split at h
    · simp at h
    · rename_i target
      obtain ⟨name, indices⟩ := target
      refine ⟨name, ?_⟩
      split at h
      · rename_i hindices
        exact .inl ⟨by rw [show indices = [] from hindices], h⟩
      · rename_i e hindices
        rcases Except.bind_eq_ok_iff.mp h with ⟨value, hvalue, h⟩
        split at h
        · rename_i i hi
          exact .inr ⟨e, value, i, by rw [show indices = _ from hindices], hvalue, hi, h⟩
        · simp at h
      · simp at h
  · rintro ⟨name, ⟨rfl, h⟩ | ⟨e, value, i, rfl, hvalue, hi, h⟩⟩
    · exact h
    · simp only [resolveOperand, hvalue, Except.ok_bind, hi]
      exact h

/-- An operand stands for a qubit that exists. -/
theorem Registry.WellFormed.resolveOperand_lt {r : Registry} (h : r.WellFormed)
    {operand : Operand} {id : QubitId} (hresolve : r.resolveOperand operand = .ok id) :
    id.index.toNat < r.size := by
  obtain ⟨name, ⟨_, found⟩ | ⟨_, _, _, _, _, _, found⟩⟩ :=
    Registry.resolveOperand_eq_ok_iff.mp hresolve
  · exact h.resolve_lt found
  · exact h.resolve_lt found

namespace Draft

variable {config : LowerConfig} {r : Registry} {d d' : Draft}

theorem rotation_eq_ok_iff {gate : GateKind} {call : GateCall} {op : Operation} :
    rotation config r gate call = .ok op ↔
      ∃ angle operand target text, call.arguments = some [angle] ∧ call.operands = [operand] ∧
        r.resolveOperand operand = .ok target ∧ angle.angleText config.format = .ok text ∧
        op = .rotation gate target text := by
  constructor
  · intro h
    unfold rotation at h
    split at h
    · rename_i angle operand harguments hoperands
      rcases Except.bind_eq_ok_iff.mp h with ⟨target, htarget, h⟩
      rcases Except.bind_eq_ok_iff.mp h with ⟨text, htext, h⟩
      cases h
      refine ⟨angle, operand, target, text, ?_, hoperands, htarget, htext, rfl⟩
      cases written : call.arguments with
      | none => simp [written] at harguments
      | some items => simpa [written] using harguments
    · simp at h
    · simp at h
  · rintro ⟨angle, operand, target, text, harguments, hoperands, htarget, htext, rfl⟩
    simp [rotation, harguments, hoperands, htarget, htext, pure, Except.pure]

theorem controlledX_eq_ok_iff {call : GateCall} {op : Operation} :
    controlledX r call = .ok op ↔
      ∃ first second control target, (call.arguments = none ∨ call.arguments = some []) ∧
        call.operands = [first, second] ∧ r.resolveOperand first = .ok control ∧
        r.resolveOperand second = .ok target ∧ op = .controlledX control target := by
  constructor
  · intro h
    unfold controlledX at h
    split at h
    · rename_i first second harguments hoperands
      rcases Except.bind_eq_ok_iff.mp h with ⟨control, hcontrol, h⟩
      rcases Except.bind_eq_ok_iff.mp h with ⟨target, htarget, h⟩
      cases h
      refine ⟨first, second, control, target, ?_, hoperands, hcontrol, htarget, rfl⟩
      cases written : call.arguments with
      | none => exact .inl rfl
      | some items => simpa [written] using harguments
    · simp at h
    · simp at h
  · rintro ⟨first, second, control, target, written | written, hoperands, hcontrol, htarget, rfl⟩
    all_goals simp [controlledX, written, hoperands, hcontrol, htarget, pure, Except.pure]

/-- The gate calls that stand for an operation. -/
theorem operationOf_eq_ok_iff {call : GateCall} {op : Operation} :
    operationOf config r call = .ok op ↔
      call.modifiers = [] ∧ call.designator = none ∧
        ((∃ kind, (call.gate = "rz" ∧ kind = .rz ∨ call.gate = "rx" ∧ kind = .rx) ∧
            rotation config r kind call = .ok op) ∨
          call.gate = "cx" ∧ controlledX r call = .ok op) := by
  unfold operationOf
  by_cases extra : (!call.modifiers.isEmpty || call.designator.isSome) = true
  · rw [if_pos extra]
    constructor
    · intro h
      simp at h
    · rintro ⟨hmodifiers, hdesignator, _⟩
      simp [hmodifiers, hdesignator] at extra
  · rw [if_neg extra]
    have plain : call.modifiers = [] ∧ call.designator = none := by
      simpa using extra
    simp only [plain, true_and]
    split
    · rename_i hgate
      simp [hgate]
    · rename_i hgate
      simp [hgate]
    · rename_i hgate
      simp [hgate]
    · rename_i hrz hrx hcx
      have others : call.gate ≠ "rz" ∧ call.gate ≠ "rx" ∧ call.gate ≠ "cx" := ⟨hrz, hrx, hcx⟩
      simp [others]

/-- The assignments that measure a qubit. -/
theorem measuredQubit_eq_ok_iff {a : Assignment} {id : QubitId} :
    measuredQubit config r a = .ok id ↔
      config.measurement = true ∧ a.op.kind = .equals ∧
        ∃ operand, a.value = .measure operand ∧ r.resolveOperand operand = .ok id := by
  unfold measuredQubit
  by_cases other : (!config.measurement || a.op.kind != .equals) = true
  · rw [if_pos other]
    constructor
    · intro h
      simp at h
    · rintro ⟨hmeasurement, hop, _⟩
      simp [hmeasurement, hop] at other
  · rw [if_neg other]
    have plain : config.measurement = true ∧ a.op.kind = .equals := by
      simpa using other
    cases hvalue : a.value <;> simp [plain]

end Draft

/-- The number of qubits that the declaration of a register asks for: one where no size is written,
else the value of the size. -/
def Declaration.qubitCount? (d : Declaration) : Option Nat :=
  match d.size with
  | none => some 1
  | some size => size.evaluate.toOption.bind Binary64.asIndex?

/-- What the name of a declared register stands for; `first` is the position of its first qubit. -/
def Declaration.binding (d : Declaration) (first count : Nat) : Binding :=
  match d.size with
  | none => .scalar (Registry.idAt first)
  | some _ => .array first count

theorem Except.toOption_eq_some_iff {ε α : Type} {x : Except ε α} {a : α} :
    x.toOption = some a ↔ x = .ok a := by
  cases x <;> simp [Except.toOption]

namespace Draft

variable {config : LowerConfig} {r : Registry} {d d' : Draft}

/-- The declarations that are carried out: of classical registers, and of quantum registers with a
fresh name and a size that fits. -/
theorem declare_eq_ok_iff {declaration : Declaration} :
    d.declare declaration = .ok d' ↔
      (declaration.keyword.kind = .creg ∧ d' = d) ∨
        (declaration.keyword.kind = .qreg ∧ ∃ count, declaration.qubitCount? = some count ∧
          d.registry.bindings[declaration.name]? = none ∧
          count ≤ qubitLimit - d.registry.size ∧
          d' = ⟨⟨Registry.addQubits count d.registry.qubits, d.registry.bindings.insert
            declaration.name (declaration.binding d.registry.size count)⟩, d.operations⟩) := by
  unfold declare
  cases hkind : declaration.keyword.kind with
  | creg => simp [eq_comm]
  | qreg =>
      simp only [reduceCtorEq, false_and, true_and, false_or]
      cases hsize : declaration.size with
      | none =>
          have count : declaration.qubitCount? = some 1 := by simp [Declaration.qubitCount?, hsize]
          simp only [count, Declaration.binding, hsize, Except.bind_eq_ok_iff]
          constructor
          · rintro ⟨⟨id, r'⟩, hscalar, hd'⟩
            rcases Registry.declareScalar_eq_ok_iff.mp hscalar with ⟨free, fits, rfl, rfl⟩
            cases hd'
            exact ⟨1, rfl, free, fits, rfl⟩
          · rintro ⟨_, ⟨⟩, free, fits, rfl⟩
            exact ⟨_, Registry.declareScalar_eq_ok_iff.mpr ⟨free, fits, rfl, rfl⟩, rfl⟩
      | some size =>
          simp only [Declaration.qubitCount?, Declaration.binding, hsize, Except.bind_eq_ok_iff,
            Option.bind_eq_some_iff, Except.toOption_eq_some_iff]
          constructor
          · rintro ⟨value, hvalue, h⟩
            split at h
            · simp at h
            · rename_i count hcount
              rcases Except.bind_eq_ok_iff.mp h with ⟨⟨first, r'⟩, harray, hd'⟩
              rcases Registry.declareArray_eq_ok_iff.mp harray with ⟨free, fits, rfl, rfl⟩
              cases hd'
              exact ⟨count, ⟨value, hvalue, hcount⟩, free, fits, rfl⟩
          · rintro ⟨count, ⟨value, hvalue, hcount⟩, free, fits, rfl⟩
            refine ⟨value, hvalue, ?_⟩
            rw [hcount]
            exact Except.bind_eq_ok_iff.mpr
              ⟨_, Registry.declareArray_eq_ok_iff.mpr ⟨free, fits, rfl, rfl⟩, rfl⟩
  | _ => simp

/-! ### The invariant -/

/-- The registry is well formed, operations use qubits that exist, and what a measurement names is
marked. -/
structure Sound (d : Draft) : Prop where
  registry : d.registry.WellFormed
  known : ∀ op ∈ d.operations, ∀ id ∈ op.qubits, id.index.toNat < d.registry.size
  measured : ∀ op ∈ d.operations, op.gate = .measure → ∀ id ∈ op.qubits, d.registry.Measured id

theorem sound_empty : empty.Sound where
  registry := Registry.wellFormed_empty
  known := by simp [empty]
  measured := by simp [empty]

/-- A draft stays sound when its registry grows to a well-formed one. -/
theorem Sound.grow (h : d.Sound) {r' : Registry} (hgrows : d.registry.Grows r')
    (wellFormed : r'.WellFormed) : Sound { d with registry := r' } where
  registry := wellFormed
  known := fun op hop id hid => Nat.lt_of_lt_of_le (h.known op hop id hid) hgrows.size_le
  measured := fun op hop hgate id hid => hgrows.measured id (h.measured op hop hgate id hid)

/-- A draft stays sound under an operation on qubits that exist, marked if it measures. -/
theorem Sound.push (h : d.Sound) {op : Operation}
    (known : ∀ id ∈ op.qubits, id.index.toNat < d.registry.size)
    (measured : op.gate = .measure → ∀ id ∈ op.qubits, d.registry.Measured id) :
    Sound { d with operations := d.operations.push op } where
  registry := h.registry
  known := by
    intro other hother
    rcases Array.mem_push.mp hother with earlier | rfl
    · exact h.known other earlier
    · exact known
  measured := by
    intro other hother
    rcases Array.mem_push.mp hother with earlier | rfl
    · exact h.measured other earlier
    · exact measured

/-- The operation of a gate call uses qubits that exist and measures none. -/
theorem operationOf_sound (h : r.WellFormed) {call : GateCall} {op : Operation}
    (hop : operationOf config r call = .ok op) :
    (∀ id ∈ op.qubits, id.index.toNat < r.size) ∧ op.gate ≠ .measure := by
  rcases operationOf_eq_ok_iff.mp hop with ⟨_, _, ⟨kind, hkind, hrotation⟩ | ⟨_, hcontrolled⟩⟩
  · rcases rotation_eq_ok_iff.mp hrotation with ⟨_, operand, target, text, _, _, htarget, _, rfl⟩
    constructor
    · intro id hid
      obtain rfl : id = target := by simpa [Operation.rotation, Operation.qubits, Wire.quantum] using hid
      exact h.resolveOperand_lt htarget
    · rcases hkind with ⟨_, rfl⟩ | ⟨_, rfl⟩ <;> simp [Operation.rotation]
  · obtain ⟨first, second, control, target, _, _, hcontrol, htarget, rfl⟩ :=
      controlledX_eq_ok_iff.mp hcontrolled
    constructor
    · intro id hid
      have either : id = control ∨ id = target := by
        simpa [Operation.controlledX, Operation.qubits, Wire.quantum] using hid
      rcases either with rfl | rfl
      · exact h.resolveOperand_lt hcontrol
      · exact h.resolveOperand_lt htarget
    · simp [Operation.controlledX]

/-- A gate call keeps a draft sound. -/
theorem gateCall_sound (h : d.Sound) {call : GateCall} (hcall : d.gateCall config call = .ok d') :
    d'.Sound := by
  rcases Except.bind_eq_ok_iff.mp hcall with ⟨op, hop, hd'⟩
  cases hd'
  obtain ⟨known, gate⟩ := operationOf_sound h.registry hop
  exact h.push known (fun measures => absurd measures gate)

/-- An assignment keeps a draft sound: what it measures is marked first. -/
theorem assign_sound (h : d.Sound) {a : Assignment} (hassign : d.assign config a = .ok d') :
    d'.Sound := by
  rcases Except.bind_eq_ok_iff.mp hassign with ⟨qubit, hqubit, hd'⟩
  cases hd'
  rcases measuredQubit_eq_ok_iff.mp hqubit with ⟨_, _, operand, _, hoperand⟩
  have inside := h.registry.resolveOperand_lt hoperand
  have marked := h.grow (Registry.grows_markMeasured d.registry qubit) (h.registry.markMeasured qubit)
  have only : ∀ id ∈ (Operation.measure qubit).qubits, id = qubit := by
    simp [Operation.measure, Operation.qubits, Wire.quantum, Wire.classical]
  refine marked.push ?_ ?_
  · intro id hid
    rw [only id hid]
    simpa using inside
  · intro _ id hid
    rw [only id hid]
    exact Registry.measured_markMeasured inside

/-- The declaration of a scalar register keeps a draft sound. -/
theorem declareScalar_sound (h : d.Sound) {name : String} {id : QubitId} {r' : Registry}
    (hdeclare : d.registry.declareScalar name = .ok (id, r')) :
    Sound { d with registry := r' } := by
  rcases Registry.declareScalar_eq_ok_iff.mp hdeclare with ⟨_, _, _, rfl⟩
  exact h.grow (Registry.grows_addQubits _ _ _) (h.registry.declareScalar hdeclare)

/-- The declaration of an array register keeps a draft sound. -/
theorem declareArray_sound (h : d.Sound) {name : String} {count first : Nat} {r' : Registry}
    (hdeclare : d.registry.declareArray name count = .ok (first, r')) :
    Sound { d with registry := r' } := by
  rcases Registry.declareArray_eq_ok_iff.mp hdeclare with ⟨_, _, _, rfl⟩
  exact h.grow (Registry.grows_addQubits _ _ _) (h.registry.declareArray hdeclare)

/-! ### Sequences of calls -/

/-- Qubits are allocated singly only while fewer than `qubitLimit` of them exist, so that there are
never more. -/
def AllocatesWithin (config : LowerConfig) (d : Draft) : List Call → Prop
  | [] => True
  | call :: calls =>
      (call = .allocate → d.registry.size < qubitLimit) ∧
        AllocatesWithin config (d.attempt config call).2 calls

/-- What is performed keeps a draft sound. -/
theorem perform_sound (h : d.Sound) {call : Call}
    (allowed : call = .allocate → d.registry.size < qubitLimit) {answer : Answer}
    (hperform : d.perform config call = .ok (answer, d')) : d'.Sound := by
  cases call with
  | allocate =>
      cases hperform
      have room : d.registry.size + 1 ≤ UInt32.size :=
        Nat.le_trans (allowed rfl) (Nat.le_of_lt Registry.qubitLimit_lt)
      apply h.grow (Registry.grows_addQubits _ 1 _)
      exact h.registry.addQubits room (fun _ _ hb => .inl hb)
  | declareScalar name =>
      rcases Except.bind_eq_ok_iff.mp hperform with ⟨⟨id, r'⟩, hdeclare, hd'⟩
      cases hd'
      exact declareScalar_sound h hdeclare
  | declareArray name count =>
      rcases Except.bind_eq_ok_iff.mp hperform with ⟨⟨first, r'⟩, hdeclare, hd'⟩
      cases hd'
      exact declareArray_sound h hdeclare
  | markMeasured id =>
      cases hperform
      exact h.grow (Registry.grows_markMeasured _ id) (h.registry.markMeasured id)
  | gateCall call =>
      rcases Except.bind_eq_ok_iff.mp hperform with ⟨next, hcall, hd'⟩
      cases hd'
      exact gateCall_sound h hcall
  | assign a =>
      rcases Except.bind_eq_ok_iff.mp hperform with ⟨next, hassign, hd'⟩
      cases hd'
      exact assign_sound h hassign

/-- A call keeps a draft sound, also when it is refused. -/
theorem attempt_sound (h : d.Sound) {call : Call}
    (allowed : call = .allocate → d.registry.size < qubitLimit) :
    (d.attempt config call).2.Sound := by
  unfold attempt
  split
  · rename_i hperform
    exact perform_sound h allowed hperform
  · exact h

/-- A sequence of calls keeps a draft sound. -/
theorem afterCalls_sound {calls : List Call} (h : d.Sound)
    (within : AllocatesWithin config d calls) : (d.afterCalls config calls).Sound := by
  induction calls generalizing d with
  | nil => exact h
  | cons call calls ih =>
      exact ih (attempt_sound h within.1) within.2

/-! ### Programs -/

/-- A declaration keeps a draft sound. -/
theorem declare_sound (h : d.Sound) {declaration : Declaration}
    (hdeclare : d.declare declaration = .ok d') : d'.Sound := by
  unfold declare at hdeclare
  split at hdeclare
  · cases hdeclare
    exact h
  · split at hdeclare
    · rcases Except.bind_eq_ok_iff.mp hdeclare with ⟨⟨id, r'⟩, hscalar, hd'⟩
      cases hd'
      exact declareScalar_sound h hscalar
    · rcases Except.bind_eq_ok_iff.mp hdeclare with ⟨value, _, hdeclare⟩
      split at hdeclare
      · simp at hdeclare
      · rcases Except.bind_eq_ok_iff.mp hdeclare with ⟨⟨first, r'⟩, harray, hd'⟩
        cases hd'
        exact declareArray_sound h harray
  · simp at hdeclare

/-- A statement keeps a draft sound. -/
theorem statement_sound (h : d.Sound) {s : Statement} (hs : d.statement config s = .ok d') :
    d'.Sound := by
  cases s with
  | inclusion path =>
      cases hs
      exact h
  | declaration declaration => exact declare_sound h hs
  | gateCall call => exact gateCall_sound h hs
  | assignment a => exact assign_sound h hs
  | kept rule text => simp [statement] at hs

/-- An element keeps a draft sound. -/
theorem element_sound (h : d.Sound) {position : Nat} {e : Element}
    (he : d.element config position e = .ok d') : d'.Sound := by
  unfold element at he
  split at he
  · split at he
    · simp at he
    · split at he
      · cases he
        exact h
      · simp at he
  · exact statement_sound h he
  · simp at he
  · simp at he

theorem elements_cons (position : Nat) (e : Element) (body : List Element) :
    d.elements config position (e :: body) =
      d.element config position e >>= fun next => next.elements config (position + 1) body := by
  rw [elements]
  cases d.element config position e <;> rfl

/-- Elements in two parts are carried out one part behind the other. -/
theorem elements_append (position : Nat) (before after : List Element) :
    d.elements config position (before ++ after) =
      d.elements config position before >>= fun next =>
        next.elements config (position + before.length) after := by
  induction before generalizing d position with
  | nil => rfl
  | cons e before ih =>
      rw [List.cons_append, elements_cons, elements_cons, bind_assoc]
      congr 1
      funext next
      rw [ih, List.length_cons, Nat.add_assoc, Nat.add_comm 1]

/-- Behind the first place the position of an element does not matter. -/
theorem element_later (position : Nat) (e : Element) :
    d.element config (position + 1) e = d.element config 1 e := by
  cases e <;> rfl

theorem elements_later (position : Nat) (body : List Element) :
    d.elements config (position + 1) body = d.elements config 1 body := by
  induction body generalizing d position with
  | nil => rfl
  | cons e body ih =>
      rw [elements_cons, elements_cons, element_later]
      congr 1
      funext next
      rw [ih (position + 1), ih 1]

/-- The position of the first element matters only if that is a version. -/
theorem elements_unversioned {body : List Element}
    (plain : ∀ specifier, body.head? ≠ some (.version specifier)) (position : Nat) :
    d.elements config position body = d.elements config 1 body := by
  cases body with
  | nil => rfl
  | cons e body =>
      have first : d.element config position e = d.element config 1 e := by
        cases e with
        | version specifier => exact absurd rfl (plain specifier)
        | item i => cases i <;> rfl
        | endOfInput => rfl
      rw [elements_cons, elements_cons, first]
      congr 1
      funext next
      rw [elements_later position, elements_later 1]

/-- What is carried out behind the first place is carried out anywhere. -/
theorem elements_of_later {body : List Element} (run : d.elements config 1 body = .ok d')
    (position : Nat) : d.elements config position body = .ok d' := by
  rw [elements_unversioned ?_ position]
  · exact run
  · intro specifier head
    obtain ⟨rest, rfl⟩ := List.head?_eq_some_iff.mp head
    rw [elements_cons] at run
    cases run

/-- A sequence of elements keeps a draft sound. -/
theorem elements_sound {body : List Element} {position : Nat} (h : d.Sound)
    (hbody : d.elements config position body = .ok d') : d'.Sound := by
  induction body generalizing d position with
  | nil =>
      cases hbody
      exact h
  | cons e body ih =>
      rw [elements_cons] at hbody
      rcases Except.bind_eq_ok_iff.mp hbody with ⟨next, he, hrest⟩
      exact ih (element_sound h he) hrest

end Draft

/-! ### The check of the finished circuit -/

/-- The parts of a sound draft form a circuit. -/
theorem Draft.Sound.ofParts {d : Draft} (h : d.Sound) :
    ∃ circuit, Circuit.ofParts d.registry.qubits d.operations = .ok circuit := by
  rw [Circuit.exists_ofParts_iff, Circuit.fault?_eq_none_iff]
  refine ⟨?_, h.known⟩
  intro k q hq
  have inside : k < d.registry.size := (Array.getElem?_eq_some_iff.mp hq).1
  rw [h.registry.numbered k q hq, Registry.idAt_toNat]
  exact Nat.lt_of_lt_of_le inside h.registry.bounded

/-- A sound draft is finished without a fault. -/
theorem Draft.Sound.finish {d : Draft} (h : d.Sound) : ∃ circuit, d.finish = .ok circuit := by
  obtain ⟨circuit, hparts⟩ := h.ofParts
  exact ⟨circuit, by rw [Draft.finish, hparts]⟩

namespace Program

/-- A program that ends with the end of input is its elements in order, and a finished draft. -/
theorem circuit_closed (config : LowerConfig) (body : List Element) :
    circuit config ⟨body ++ [.endOfInput]⟩ = Draft.empty.elements config 0 body >>= Draft.finish := by
  simp only [circuit, List.getLast?_concat, List.dropLast_concat]
  cases Draft.empty.elements config 0 body <;> rfl

/-- Only a program that ends with the end of input has a circuit. -/
theorem exists_body_of_circuit {config : LowerConfig} {p : Program} {circuit : Circuit}
    (accepted : p.circuit config = .ok circuit) :
    ∃ body, p = ⟨body ++ [.endOfInput]⟩ := by
  obtain ⟨children⟩ := p
  unfold Program.circuit at accepted
  split at accepted
  · rename_i last
    obtain ⟨body, rfl⟩ := List.getLast?_eq_some_iff.mp last
    exact ⟨body, rfl⟩
  · cases accepted
  · cases accepted

end Program

end QasmDiagram
