/-
Module: QasmDiagram.Proofs.Draft.Atomicity
Purpose: Although nothing is undone where a procedure fails, a call that fails has changed nothing:
  every call asks all its questions before its first change. So calls made in place do what calls
  made on a copy of the draft do, and an array holds the qubits that are allocated for it in order.
Trusted boundary: none
Main exports: Draft.Procedure.Asks, Draft.Procedure.Succeeds, Draft.Procedure.Atomic,
  Draft.Procedure.run_allocateMany, Draft.Procedure.resolve_of_run_declareArray,
  Draft.Procedure.carryOut_call, Draft.Procedure.calls_change_all_or_nothing
-/
import QasmDiagram.Draft.Procedure
import QasmDiagram.Proofs.Draft

namespace QasmDiagram

namespace Draft.Procedure

variable {α β : Type} {config : LowerConfig} {d d' : Draft}

/-! ### Procedures that ask, that succeed, and that fail before any change -/

/-- The draft is not changed, whether there is an answer or a failure. -/
def Asks (p : Procedure α) : Prop :=
  ∀ d, (p.carryOut d).2 = d

/-- There is always an answer. -/
def Succeeds (p : Procedure α) : Prop :=
  ∀ d, ∃ answer d', p.run d = .ok answer d'

/-- A failure leaves the draft as it was. -/
def Atomic (p : Procedure α) : Prop :=
  ∀ d e d', p.run d = .error e d' → d' = d

theorem Succeeds.atomic {p : Procedure α} (h : Succeeds p) : Atomic p := by
  intro d e d' failed
  obtain ⟨answer, next, succeeded⟩ := h d
  rw [succeeded] at failed
  cases failed

theorem Succeeds.bind {p : Procedure α} {f : α → Procedure β} (hp : Succeeds p)
    (hf : ∀ answer, Succeeds (f answer)) : Succeeds (p >>= f) := by
  intro d
  obtain ⟨answer, next, succeeded⟩ := hp d
  obtain ⟨last, d', ended⟩ := hf answer next
  exact ⟨last, d', by rw [EStateM.run_bind, succeeded]; exact ended⟩

/-- A question before a procedure adds no change to its failures. -/
theorem Asks.bind {p : Procedure α} {f : α → Procedure β} (hp : Asks p)
    (hf : ∀ answer, Atomic (f answer)) : Atomic (p >>= f) := by
  intro d e d' failed
  have same := hp d
  rw [EStateM.run_bind] at failed
  rw [carryOut] at same
  cases asked : p.run d with
  | ok answer next =>
      simp only [asked] at failed same
      subst same
      exact hf answer next e d' failed
  | error e' next =>
      simp only [asked, EStateM.Result.error.injEq] at failed same
      exact failed.2.symm.trans same

theorem succeeds_pure (answer : α) : Succeeds (pure answer : Procedure α) :=
  fun d => ⟨answer, d, rfl⟩

theorem succeeds_modifyGet (f : Draft → α × Draft) : Succeeds (modifyGet f : Procedure α) :=
  fun d => ⟨(f d).1, (f d).2, rfl⟩

/-! ### Single steps -/

@[simp] theorem run_ask (question : Registry → Except LowerError α) (d : Draft) :
    (ask question).run d =
      match question d.registry with
      | .ok answer => .ok answer d
      | .error e => .error e d := by
  simp only [ask, EStateM.run_bind, EStateM.run_get]
  cases question d.registry <;> rfl

theorem asks_ask (question : Registry → Except LowerError α) : Asks (ask question) := by
  intro d
  rw [carryOut, run_ask]
  cases question d.registry <;> rfl

theorem succeeds_allocate : Succeeds allocate :=
  succeeds_modifyGet _

theorem succeeds_allocateMany (count : Nat) : Succeeds (allocateMany count) := by
  induction count with
  | zero => exact succeeds_pure []
  | succ count ih =>
      exact succeeds_allocate.bind fun _ => ih.bind fun _ => succeeds_pure _

theorem succeeds_bindName (name : String) (b : Binding) : Succeeds (bindName name b) :=
  succeeds_modifyGet _

theorem succeeds_mark (id : QubitId) : Succeeds (mark id) :=
  succeeds_modifyGet _

theorem succeeds_place (op : Operation) : Succeeds (place op) :=
  succeeds_modifyGet _

@[simp] theorem run_allocate (d : Draft) :
    allocate.run d =
      .ok (Registry.idAt d.registry.size) ⟨d.registry.allocate.2, d.operations⟩ := rfl

/-- The allocation of several qubits answers consecutive ones from the first free position on. -/
theorem run_allocateMany (count : Nat) (d : Draft) :
    (allocateMany count).run d =
      .ok ((List.range' d.registry.size count).map Registry.idAt)
        ⟨⟨Registry.addQubits count d.registry.qubits, d.registry.bindings⟩, d.operations⟩ := by
  induction count generalizing d with
  | zero => rfl
  | succ count ih =>
      simp only [allocateMany, EStateM.run_bind, run_allocate, ih, Registry.size_allocate,
        List.range'_succ, List.map_cons]
      rfl

/-! ### Calls -/

theorem declareScalar_atomic (name : String) : Atomic (declareScalar name) :=
  (asks_ask _).bind fun _ => (succeeds_allocate.bind fun _ => (succeeds_bindName _ _).bind fun _ =>
    succeeds_pure _).atomic

theorem declareArray_atomic (name : String) (count : Nat) : Atomic (declareArray name count) :=
  (asks_ask _).bind fun _ => (asks_ask _).bind fun _ => ((succeeds_allocateMany count).bind fun _ =>
    (succeeds_bindName _ _).bind fun _ => succeeds_pure _).atomic

theorem gateCall_atomic (config : LowerConfig) (call : GateCall) : Atomic (gateCall config call) :=
  (asks_ask _).bind fun op => (succeeds_place op).atomic

theorem assign_atomic (config : LowerConfig) (a : Assignment) : Atomic (assign config a) :=
  (asks_ask _).bind fun qubit => ((succeeds_mark qubit).bind fun _ => succeeds_place _).atomic

/-! ### The same calls on a copy -/

theorem run_declareScalar (name : String) (d : Draft) :
    (declareScalar name).run d =
      match d.registry.declareScalar name with
      | .ok (id, r) => .ok id { d with registry := r }
      | .error e => .error e d := by
  simp only [declareScalar, Registry.declareScalar, EStateM.run_bind, run_ask]
  cases d.registry.checkFresh name 1 <;> rfl

theorem run_declareArray (name : String) (count : Nat) (d : Draft) :
    (declareArray name count).run d =
      match d.registry.declareArray name count with
      | .ok (first, r) => .ok first { d with registry := r }
      | .error e => .error e d := by
  simp only [declareArray, Registry.declareArray, EStateM.run_bind, run_ask, run_allocateMany]
  cases d.registry.checkFresh name count <;> rfl

/-- An array that is declared holds, under each index, the qubit that the single allocation of that
turn answers, and none under another index. -/
theorem resolve_of_run_declareArray {name : String} {count first : Nat}
    (carried : (declareArray name count).run d = .ok first d') :
    ∃ ids next, (allocateMany count).run d = .ok ids next ∧
      next.registry.qubits = d'.registry.qubits ∧
      ids = (List.range' first count).map Registry.idAt ∧
      ∀ (i : Nat) (id : QubitId),
        d'.registry.resolve name (some i) = .ok id ↔ ids[i]? = some id := by
  rw [run_declareArray] at carried
  split at carried
  · rename_i answer r declared
    cases carried
    obtain ⟨_, _, rfl, rfl⟩ := Registry.declareArray_eq_ok_iff.mp declared
    refine ⟨_, _, run_allocateMany count d, rfl, rfl, ?_⟩
    intro i id
    simp only [Registry.resolve, Std.HashMap.getElem?_insert_self]
    by_cases inside : i < count <;> simp [inside]
  · cases carried

theorem run_gateCall (config : LowerConfig) (statement : GateCall) (d : Draft) :
    (gateCall config statement).run d =
      match d.gateCall config statement with
      | .ok next => .ok () next
      | .error e => .error e d := by
  simp only [gateCall, Draft.gateCall, EStateM.run_bind, run_ask]
  cases operationOf config d.registry statement <;> rfl

theorem run_assign (config : LowerConfig) (a : Assignment) (d : Draft) :
    (assign config a).run d =
      match d.assign config a with
      | .ok next => .ok () next
      | .error e => .error e d := by
  simp only [assign, Draft.assign, EStateM.run_bind, run_ask]
  cases measuredQubit config d.registry a <;> rfl

/-- A call made in place answers what the call made on a copy answers, and leaves the draft that
this one goes on with: the new one after a success, the old one after a failure. -/
theorem carryOut_call (config : LowerConfig) (c : Call) (d : Draft) :
    (call config c).carryOut d = d.attempt config c := by
  cases c with
  | allocate => rfl
  | declareScalar name =>
      simp only [call, carryOut, attempt, perform, EStateM.run_bind, run_declareScalar]
      cases d.registry.declareScalar name <;> rfl
  | declareArray name count =>
      simp only [call, carryOut, attempt, perform, EStateM.run_bind, run_declareArray]
      cases d.registry.declareArray name count <;> rfl
  | markMeasured id => rfl
  | gateCall statement =>
      simp only [call, carryOut, attempt, perform, EStateM.run_bind, run_gateCall]
      cases d.gateCall config statement <;> rfl
  | assign a =>
      simp only [call, carryOut, attempt, perform, EStateM.run_bind, run_assign]
      cases d.assign config a <;> rfl

/-! ### Changes of a call that succeeds -/

/-- A gate call that is carried out places its operation and changes nothing else. -/
theorem run_gateCall_eq_ok_iff {statement : GateCall} :
    (gateCall config statement).run d = .ok () d' ↔
      ∃ op, operationOf config d.registry statement = .ok op ∧
        d' = ⟨d.registry, d.operations.push op⟩ := by
  have carried : (gateCall config statement).run d = .ok () d' ↔
      d.gateCall config statement = .ok d' := by
    rw [run_gateCall]
    cases d.gateCall config statement <;> simp
  rw [carried, Draft.gateCall, Except.bind_eq_ok_iff]
  simp [pure, Except.pure, eq_comm]

/-- An assignment that is carried out marks the qubit that it measures and places the measurement. -/
theorem run_assign_eq_ok_iff {a : Assignment} :
    (assign config a).run d = .ok () d' ↔
      ∃ qubit, measuredQubit config d.registry a = .ok qubit ∧
        d' = ⟨d.registry.markMeasured qubit, d.operations.push (.measure qubit)⟩ := by
  have carried : (assign config a).run d = .ok () d' ↔ d.assign config a = .ok d' := by
    rw [run_assign]
    cases d.assign config a <;> simp
  rw [carried, Draft.assign, Except.bind_eq_ok_iff]
  simp [pure, Except.pure, eq_comm]

/-- Whatever draft they are made on, declarations, gate calls and assignments change it fully or not
at all. One that fails leaves the registry and the operations as they were. A gate call that is
carried out places one operation behind the earlier ones and leaves the registry alone. An assignment
that is carried out places one measurement behind them, and in the registry it marks the measured
qubit, which exists if registers hold existing qubits, and no other. -/
theorem calls_change_all_or_nothing (config : LowerConfig) (d d' : Draft) :
    (∀ (name : String) (e : LowerError), (declareScalar name).run d = .error e d' → d' = d) ∧
    (∀ (name : String) (count : Nat) (e : LowerError),
      (declareArray name count).run d = .error e d' → d' = d) ∧
    (∀ (statement : GateCall) (e : LowerError),
      (gateCall config statement).run d = .error e d' → d' = d) ∧
    (∀ (a : Assignment) (e : LowerError), (assign config a).run d = .error e d' → d' = d) ∧
    (∀ statement : GateCall, (gateCall config statement).run d = .ok () d' →
      d'.registry = d.registry ∧ ∃ op, operationOf config d.registry statement = .ok op ∧
        d'.operations = d.operations.push op) ∧
    ∀ a : Assignment, (assign config a).run d = .ok () d' →
      ∃ operand qubit, a.value = .measure operand ∧ d.registry.resolveOperand operand = .ok qubit ∧
        d'.operations = d.operations.push (.measure qubit) ∧
        d'.registry.bindings = d.registry.bindings ∧
        (∀ k : Nat, d'.registry.qubits[k]? =
          if qubit.index.toNat = k then d.registry.qubits[k]?.map Qubit.measured
          else d.registry.qubits[k]?) ∧
        (d.registry.WellFormed → d'.registry.Measured qubit) := by
  refine ⟨fun name e failed => declareScalar_atomic name d e d' failed,
    fun name count e failed => declareArray_atomic name count d e d' failed,
    fun statement e failed => gateCall_atomic config statement d e d' failed,
    fun a e failed => assign_atomic config a d e d' failed, ?_, ?_⟩
  · intro statement carried
    obtain ⟨op, placed, rfl⟩ := run_gateCall_eq_ok_iff.mp carried
    exact ⟨rfl, op, placed, rfl⟩
  · intro a carried
    obtain ⟨qubit, measured, rfl⟩ := run_assign_eq_ok_iff.mp carried
    obtain ⟨_, _, operand, hvalue, resolved⟩ := measuredQubit_eq_ok_iff.mp measured
    refine ⟨operand, qubit, hvalue, resolved, rfl, rfl,
      Registry.getElem?_markMeasured d.registry qubit, ?_⟩
    intro wellFormed
    exact Registry.measured_markMeasured (wellFormed.resolveOperand_lt resolved)

/-- A draft with the register `a` of one qubit. -/
def loneScalar : Draft :=
  ⟨⟨#[.fresh (Registry.idAt 0)], Std.HashMap.insert ∅ "a" (.scalar (Registry.idAt 0))⟩, #[]⟩

/-- A controlled negation whose second operand is not declared changes nothing, and a measurement of
the declared qubit places one operation. -/
theorem calls_change_all_or_nothing_scalar :
    (∃ e d', (gateCall ⟨.numeric, true⟩ ⟨[], "cx", none, none,
        [.indexed ⟨"a", []⟩, .indexed ⟨"b", []⟩]⟩).run loneScalar = .error e d' ∧
      d' = loneScalar) ∧
    ∃ d', (assign ⟨.numeric, true⟩
        ⟨⟨"c", []⟩, ⟨.equals, "="⟩, .measure (.indexed ⟨"a", []⟩)⟩).run loneScalar = .ok () d' ∧
      ∃ operand qubit, AssignedValue.measure (.indexed ⟨"a", []⟩) = .measure operand ∧
        loneScalar.registry.resolveOperand operand = .ok qubit ∧
        d'.operations = loneScalar.operations.push (.measure qubit) := by
  have refused : (gateCall ⟨.numeric, true⟩ ⟨[], "cx", none, none,
      [.indexed ⟨"a", []⟩, .indexed ⟨"b", []⟩]⟩).run loneScalar =
        .error (.undeclaredRegister "b") loneScalar := by
    rw [run_gateCall]
    cbv
  have measured : (assign ⟨.numeric, true⟩
      ⟨⟨"c", []⟩, ⟨.equals, "="⟩, .measure (.indexed ⟨"a", []⟩)⟩).run loneScalar =
        .ok () ⟨loneScalar.registry.markMeasured (Registry.idAt 0),
          loneScalar.operations.push (.measure (Registry.idAt 0))⟩ := by
    rw [run_assign]
    cbv
  obtain ⟨operand, qubit, hvalue, resolved, placed, _⟩ :=
    (calls_change_all_or_nothing _ _ _).2.2.2.2.2 _ measured
  exact ⟨⟨_, _, refused, (calls_change_all_or_nothing _ _ _).2.2.1 _ _ refused⟩,
    _, measured, operand, qubit, hvalue, resolved, placed⟩

end Draft.Procedure

end QasmDiagram
