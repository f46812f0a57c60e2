/-
Module: QasmDiagram.Proofs.Draft.DeclarationsFirst
Purpose: Where quantum registers are declared does not matter once a program is accepted: the
  declarations may all come first, and the circuit is the same. A declaration changes places with the
  element before it, since that element goes on resolving to the same qubits; so declarations move
  to the front one by one.
Trusted boundary: none
Main exports: Element.declaresRegister, declarationsFirst, Program.declarationsFirst,
  Draft.element_swap, Draft.elements_declarationsFirst, Program.circuit_declarationsFirst
-/
import QasmDiagram.Proofs.Draft.Acceptance
import QasmDiagram.Proofs.Draft.DisplayModes
import QasmDiagram.Proofs.Registry.Change

namespace QasmDiagram

/-- Whether an element declares a quantum register. -/
def Element.declaresRegister (e : Element) : Bool :=
  e.register?.isSome

theorem Element.declaresRegister_iff {e : Element} :
    e.declaresRegister = true ↔
      ∃ d, e = .item (.statement (.declaration d)) ∧ d.keyword.kind = .qreg := by
  unfold declaresRegister register?
  split
  · rename_i d
    by_cases kind : d.keyword.kind = .qreg
    · simp [kind]
    · simp [kind]
  · rename_i other
    constructor
    · intro declares
      cases declares
    · intro ⟨d, written, _⟩
      exact absurd written (other d)

/-- Elements with the declarations of quantum registers in front of the others, and both in their
order. -/
def declarationsFirst (body : List Element) : List Element :=
  body.filter Element.declaresRegister ++ body.filter fun e => !e.declaresRegister

/-! ### What is kept when registers are added -/

namespace Registry

variable {r r' : Registry}

/-- An operand that stands for a qubit goes on standing for it. -/
theorem Keeps.resolveOperand (h : r.Keeps r') {operand : Operand} {id : QubitId}
    (found : r.resolveOperand operand = .ok id) : r'.resolveOperand operand = .ok id := by
  apply resolveOperand_eq_ok_iff.mpr
  rcases resolveOperand_eq_ok_iff.mp found with ⟨name, whole | part⟩
  · obtain ⟨written, found⟩ := whole
    exact ⟨name, .inl ⟨written, h.resolve found⟩⟩
  · obtain ⟨e, value, i, written, evaluated, index, found⟩ := part
    exact ⟨name, .inr ⟨e, value, i, written, evaluated, index, h.resolve found⟩⟩

theorem modify_addQubit {k : Nat} {qubits : Array Qubit} (inside : k < qubits.size)
    (f : Qubit → Qubit) : (addQubit qubits).modify k f = addQubit (qubits.modify k f) := by
  apply Array.ext_getElem?
  intro j
  rw [Array.getElem?_modify]
  simp only [addQubit, Array.getElem?_push, Array.size_modify, Array.getElem?_modify]
  by_cases last : j = qubits.size
  · have other : k ≠ qubits.size := Nat.ne_of_lt inside
    simp [last, other]
  · simp [last]

/-- Fresh qubits behind the others and a change of one of the others come in either order. -/
theorem modify_addQubits {k : Nat} {qubits : Array Qubit} (inside : k < qubits.size)
    (f : Qubit → Qubit) (count : Nat) :
    (addQubits count qubits).modify k f = addQubits count (qubits.modify k f) := by
  induction count generalizing qubits with
  | zero => rfl
  | succ count ih =>
      have still : k < (addQubit qubits).size := by
        rw [addQubit, Array.size_push]
        exact Nat.lt_succ_of_lt inside
      rw [addQubits, addQubits, ih still, modify_addQubit inside]

end Registry

namespace Draft

variable {config : LowerConfig} {r r' : Registry} {d d₁ d₂ : Draft}

/-- A gate call goes on standing for the same operation. -/
theorem operationOf_keeps (h : r.Keeps r') {call : GateCall} {op : Operation}
    (stands : operationOf config r call = .ok op) : operationOf config r' call = .ok op := by
  apply operationOf_eq_ok_iff.mpr
  rcases operationOf_eq_ok_iff.mp stands with ⟨modifiers, designator, forms⟩
  refine ⟨modifiers, designator, ?_⟩
  rcases forms with ⟨kind, gate, rotates⟩ | ⟨gate, negates⟩
  · obtain ⟨angle, operand, target, text, arguments, operands, found, shown, made⟩ :=
      rotation_eq_ok_iff.mp rotates
    exact .inl ⟨kind, gate, rotation_eq_ok_iff.mpr
      ⟨angle, operand, target, text, arguments, operands, h.resolveOperand found, shown, made⟩⟩
  · obtain ⟨first, second, control, target, arguments, operands, found, found', made⟩ :=
      controlledX_eq_ok_iff.mp negates
    exact .inr ⟨gate, controlledX_eq_ok_iff.mpr ⟨first, second, control, target, arguments,
      operands, h.resolveOperand found, h.resolveOperand found', made⟩⟩

/-- An assignment goes on measuring the same qubit. -/
theorem measuredQubit_keeps (h : r.Keeps r') {a : Assignment} {id : QubitId}
    (measures : measuredQubit config r a = .ok id) : measuredQubit config r' a = .ok id := by
  apply measuredQubit_eq_ok_iff.mpr
  obtain ⟨enabled, op, operand, value, found⟩ := measuredQubit_eq_ok_iff.mp measures
  exact ⟨enabled, op, operand, value, h.resolveOperand found⟩

/-- A gate call may go behind a register declaration: it stands for the same operation there. -/
theorem gateCall_swap {declaration : Declaration} (kind : declaration.keyword.kind = .qreg)
    {call : GateCall} (first : d.statement config (.gateCall call) = .ok d₁)
    (second : d₁.declare declaration = .ok d₂) :
    ∃ d', d.declare declaration = .ok d' ∧ d'.statement config (.gateCall call) = .ok d₂ := by
  obtain ⟨op, stands, placed⟩ := Except.bind_eq_ok_iff.mp first
  cases placed
  rcases declare_eq_ok_iff.mp second with ⟨classical, _⟩ | ⟨_, count, size, free, room, rfl⟩
  · rw [kind] at classical
    cases classical
  · refine ⟨_, declare_eq_ok_iff.mpr (.inr ⟨kind, count, size, free, room, rfl⟩), ?_⟩
    apply Except.bind_eq_ok_iff.mpr
    exact ⟨op, operationOf_keeps (Registry.keeps_insert free _ _) stands, rfl⟩

/-- A measurement may go behind a register declaration: it marks none of the new qubits. -/
theorem assignment_swap (sound : d.Sound) {declaration : Declaration}
    (kind : declaration.keyword.kind = .qreg) {a : Assignment}
    (first : d.statement config (.assignment a) = .ok d₁)
    (second : d₁.declare declaration = .ok d₂) :
    ∃ d', d.declare declaration = .ok d' ∧ d'.statement config (.assignment a) = .ok d₂ := by
  obtain ⟨qubit, measures, placed⟩ := Except.bind_eq_ok_iff.mp first
  cases placed
  obtain ⟨_, _, operand, _, found⟩ := measuredQubit_eq_ok_iff.mp measures
  have inside := sound.registry.resolveOperand_lt found
  rcases declare_eq_ok_iff.mp second with ⟨classical, _⟩ | ⟨_, count, size, free, room, rfl⟩
  · rw [kind] at classical
    cases classical
  · rw [Registry.size_markMeasured] at room
    refine ⟨_, declare_eq_ok_iff.mpr (.inr ⟨kind, count, size, free, room, rfl⟩), ?_⟩
    apply Except.bind_eq_ok_iff.mpr
    refine ⟨qubit, measuredQubit_keeps (Registry.keeps_insert free _ _) measures, ?_⟩
    rw [Registry.size_markMeasured, Registry.markMeasured, Registry.modify_addQubits inside]
    rfl

/-- A register declaration and the element before it may change places: the draft is the same. -/
theorem element_swap (sound : d.Sound) {e e' : Element} (plain : e.declaresRegister = false)
    (declares : e'.declaresRegister = true) (first : d.element config 1 e = .ok d₁)
    (second : d₁.element config 1 e' = .ok d₂) :
    ∃ d', d.element config 1 e' = .ok d' ∧ d'.element config 1 e = .ok d₂ := by
  obtain ⟨declaration, rfl, kind⟩ := Element.declaresRegister_iff.mp declares
  cases e with
  | version specifier => cases first
  | endOfInput => cases first
  | item i =>
      cases i with
      | scope body => cases first
      | statement s =>
          cases s with
          | kept rule text => cases first
          | inclusion path =>
              cases first
              exact ⟨_, second, rfl⟩
          | declaration other =>
              rcases declare_eq_ok_iff.mp first with ⟨classical, rfl⟩ | ⟨quantum, _⟩
              · exact ⟨_, second, declare_eq_ok_iff.mpr (.inl ⟨classical, rfl⟩)⟩
              · have declares : Element.declaresRegister (.item (.statement (.declaration other))) :=
                  Element.declaresRegister_iff.mpr ⟨other, rfl, quantum⟩
                rw [plain] at declares
                cases declares
          | gateCall call => exact gateCall_swap kind first second
          | assignment a => exact assignment_swap sound kind first second

/-- An element goes behind all the register declarations that follow it. -/
theorem elements_swap (sound : d.Sound) {e : Element} (plain : e.declaresRegister = false)
    {declarations : List Element} (declare : ∀ e' ∈ declarations, e'.declaresRegister = true)
    (run : d.elements config 1 (e :: declarations) = .ok d₂) :
    d.elements config 1 (declarations ++ [e]) = .ok d₂ := by
  induction declarations generalizing d with
  | nil => exact run
  | cons e' declarations ih =>
      rw [elements_cons, Except.bind_eq_ok_iff] at run
      obtain ⟨d₁, first, run⟩ := run
      rw [elements_later, elements_cons, Except.bind_eq_ok_iff] at run
      obtain ⟨d₁', second, rest⟩ := run
      obtain ⟨d', declared, goesOn⟩ :=
        element_swap sound plain (declare e' List.mem_cons_self) first second
      rw [List.cons_append, elements_cons, declared, Except.ok_bind, elements_later]
      apply ih (element_sound sound declared)
      · intro e'' later
        exact declare e'' (List.mem_cons_of_mem _ later)
      · rw [elements_cons, goesOn]
        exact rest

/-- Elements give the same draft with the register declarations in front. -/
theorem elements_declarationsFirst (sound : d.Sound) {body : List Element}
    (run : d.elements config 1 body = .ok d₂) :
    d.elements config 1 (declarationsFirst body) = .ok d₂ := by
  induction body generalizing d with
  | nil => exact run
  | cons e body ih =>
      rw [elements_cons, Except.bind_eq_ok_iff] at run
      obtain ⟨d₁, first, rest⟩ := run
      rw [elements_later] at rest
      have sorted := ih (element_sound sound first) rest
      unfold declarationsFirst at sorted ⊢
      cases declares : e.declaresRegister with
      | true =>
          rw [List.filter_cons_of_pos declares, List.filter_cons_of_neg (by simp [declares])]
          rw [List.cons_append, elements_cons, first, Except.ok_bind, elements_later]
          exact sorted
      | false =>
          rw [List.filter_cons_of_neg (by simp [declares]),
            List.filter_cons_of_pos (by simp [declares])]
          rw [elements_append, Except.bind_eq_ok_iff] at sorted
          obtain ⟨d₃, declared, others⟩ := sorted
          have moved : d.elements config 1 (body.filter Element.declaresRegister ++ [e]) =
              .ok d₃ := by
            apply elements_swap sound declares (fun e' kept => (List.mem_filter.mp kept).2)
            rw [elements_cons, first, Except.ok_bind, elements_later]
            exact declared
          rw [List.append_cons, elements_append, moved, Except.ok_bind, Nat.add_comm,
            elements_later]
          rw [Nat.add_comm, elements_later] at others
          exact others

end Draft

namespace Program

/-- The program with its register declarations in front of all other elements but the version. -/
def declarationsFirst (p : Program) : Program where
  children :=
    match p.children with
    | .version specifier :: rest => .version specifier :: QasmDiagram.declarationsFirst rest
    | children => QasmDiagram.declarationsFirst children

theorem declarationsFirst_versioned (specifier : String) (rest : List Element) :
    declarationsFirst ⟨.version specifier :: rest⟩ =
      ⟨.version specifier :: QasmDiagram.declarationsFirst rest⟩ := rfl

theorem declarationsFirst_unversioned {children : List Element}
    (plain : ∀ specifier, children.head? ≠ some (.version specifier)) :
    declarationsFirst ⟨children⟩ = ⟨QasmDiagram.declarationsFirst children⟩ := by
  unfold declarationsFirst
  split
  · rename_i specifier rest written
    exact absurd (congrArg List.head? written) (plain specifier)
  · rfl

/-- The end of input stays behind everything else. -/
theorem declarationsFirst_concat (body : List Element) :
    QasmDiagram.declarationsFirst (body ++ [.endOfInput]) =
      QasmDiagram.declarationsFirst body ++ [.endOfInput] := by
  have plain : Element.declaresRegister .endOfInput = false := rfl
  simp [QasmDiagram.declarationsFirst, plain]

/-- An accepted program has the same circuit with its register declarations first. -/
theorem circuit_declarationsFirst {config : LowerConfig} {p : Program} {circuit : Circuit}
    (accepted : p.circuit config = .ok circuit) :
    p.declarationsFirst.circuit config = .ok circuit := by
  obtain ⟨body, rfl⟩ := exists_body_of_circuit accepted
  rw [circuit_closed, Except.bind_eq_ok_iff] at accepted
  obtain ⟨d, run, finished⟩ := accepted
  by_cases versioned : ∃ specifier rest, body = .version specifier :: rest
  · obtain ⟨specifier, rest, rfl⟩ := versioned
    rw [Draft.elements_cons, Except.bind_eq_ok_iff] at run
    obtain ⟨d', first, run⟩ := run
    have sorted := Draft.elements_declarationsFirst
      (Draft.element_sound Draft.sound_empty first) run
    rw [List.cons_append, declarationsFirst_versioned, declarationsFirst_concat,
      ← List.cons_append, circuit_closed, Draft.elements_cons, first, Except.ok_bind, sorted]
    exact finished
  · have plain : ∀ specifier, body.head? ≠ some (.version specifier) := by
      intro specifier head
      obtain ⟨rest, written⟩ := List.head?_eq_some_iff.mp head
      exact versioned ⟨specifier, rest, written⟩
    have plain' : ∀ specifier, (body ++ [Element.endOfInput]).head? ≠ some (.version specifier) := by
      intro specifier
      cases body with
      | nil => simp
      | cons e rest => exact plain specifier
    rw [Draft.elements_unversioned plain] at run
    have sorted := Draft.elements_declarationsFirst Draft.sound_empty run
    rw [declarationsFirst_unversioned plain', declarationsFirst_concat, circuit_closed,
      Draft.elements_of_later sorted 0]
    exact finished

/-- Two registers, the second of which is declared behind a measurement of the first. -/
def lateRegister : Program :=
  ⟨[.version "2.0",
    .item (.statement (.declaration ⟨⟨.qreg, "qreg"⟩, "a", none⟩)),
    .item (.statement (.assignment
      ⟨⟨"c", []⟩, ⟨.equals, "="⟩, .measure (.indexed ⟨"a", []⟩)⟩)),
    .item (.statement (.declaration ⟨⟨.qreg, "qreg"⟩, "b", none⟩)),
    .item (.statement (.gateCall
      ⟨[], "cx", none, none, [.indexed ⟨"b", []⟩, .indexed ⟨"a", []⟩]⟩)),
    .endOfInput]⟩

/-- With both registers in front the first qubit is marked all the same. -/
theorem circuit_declarationsFirst_lateRegister :
    ∃ circuit, lateRegister.circuit {} = .ok circuit ∧
      circuit.qubits = #[⟨⟨0⟩, some 1⟩, ⟨⟨1⟩, none⟩] ∧
      circuit.operations = #[.measure ⟨0⟩, .controlledX ⟨1⟩ ⟨0⟩] ∧
      lateRegister.declarationsFirst.circuit {} = .ok circuit := by
  have placed : lateRegister.circuit {} =
      .ok ⟨#[⟨⟨0⟩, some 1⟩, ⟨⟨1⟩, none⟩], #[.measure ⟨0⟩, .controlledX ⟨1⟩ ⟨0⟩], by decide⟩ := by
    cbv
  exact ⟨_, placed, rfl, rfl, circuit_declarationsFirst placed⟩

end Program

end QasmDiagram
