/-
Module: QasmDiagram.Proofs.Draft.DisplayModes
Purpose: The display mode decides the texts of the angles and nothing else. An angle of the grammar
  has a text in one mode exactly if it has one in the other; so the two drafts of a program stay
  alike element by element, and where one of them is refused the other is refused too.
Trusted boundary: none
Main exports: Expression.Canonical.angleText_agree, Draft.DrawnAlike, Draft.element_agree,
  Draft.StopsAt, Draft.elements_agree, Program.display_mode_shows_angles_only
-/
import QasmDiagram.Proofs.Agreement
import QasmDiagram.Proofs.Draft.Wires
import QasmDiagram.Proofs.Expression.Multiplicative
import QasmDiagram.Proofs.Program.Nesting

namespace QasmDiagram

/-- An angle of the grammar has a text in both modes or in neither: both ask for the same depth, and
both have a text for exactly the multiplicative expressions. -/
theorem Expression.Canonical.angleText_agree {e : Expression} (h : e.Canonical) :
    Agree (fun _ _ => True) (fun _ _ => True) (e.angleText .numeric) (e.angleText .symbolic) := by
  have values : Agree (fun _ _ => True) (fun _ _ => True) e.value e.symbols :=
    agree_of_ok_iff ((exists_value_iff h).trans e.exists_symbols_iff.symm)
  simp only [angleText, evaluate, bind_assoc]
  apply agree_after (fun _ => trivial)
  intro _
  rw [← bind_pure e.symbols]
  exact values.bind fun _ _ _ => .ok trivial

/-- An operation with its angle erased. -/
def Operation.withoutAngle (op : Operation) : Operation :=
  { op with angle := none }

namespace Draft

/-! ### Drafts that are drawn alike -/

/-- Two drafts are drawn alike if they have the same qubits and registers and their operations
differ in the texts of angles only. -/
structure DrawnAlike (d d' : Draft) : Prop where
  registry : d.registry = d'.registry
  erased : d.operations.map Operation.withoutAngle = d'.operations.map Operation.withoutAngle
  shown : d.operations.map (·.angle.isSome) = d'.operations.map (·.angle.isSome)

/-- Two operations that differ in the text of the angle only. -/
def AnglesDiffer (op op' : Operation) : Prop :=
  op.withoutAngle = op'.withoutAngle ∧ op.angle.isSome = op'.angle.isSome

variable {d d' : Draft}

theorem drawnAlike_empty : DrawnAlike empty empty :=
  ⟨rfl, rfl, rfl⟩

theorem DrawnAlike.push (h : DrawnAlike d d') {op op' : Operation} (hop : AnglesDiffer op op')
    (registry : Registry) :
    DrawnAlike ⟨registry, d.operations.push op⟩ ⟨registry, d'.operations.push op'⟩ where
  registry := rfl
  erased := by rw [Array.map_push, Array.map_push, h.erased, hop.1]
  shown := by rw [Array.map_push, Array.map_push, h.shown, hop.2]

/-- New registers keep drafts alike. -/
theorem DrawnAlike.with_registry (h : DrawnAlike d d') (registry : Registry) :
    DrawnAlike { d with registry := registry } { d' with registry := registry } where
  registry := rfl
  erased := h.erased
  shown := h.shown

variable (measurement : Bool)

/-! ### One element -/

/-- In the two modes a rotation is refused together or differs in the text of its angle. -/
theorem rotation_agree (r : Registry) (gate : GateKind) {call : GateCall}
    (canonical : ∀ e ∈ call.held, e.Canonical) :
    Agree (fun _ _ => True) AnglesDiffer (rotation ⟨.numeric, measurement⟩ r gate call)
      (rotation ⟨.symbolic, measurement⟩ r gate call) := by
  unfold rotation
  split
  · rename_i angle operand harguments _
    have held : angle ∈ call.held := by simp [GateCall.held, harguments]
    apply agree_after (fun _ => trivial)
    intro target
    apply (canonical angle held).angleText_agree.bind
    intro text text' _
    exact .ok ⟨rfl, rfl⟩
  · exact .error trivial
  · exact .error trivial

/-- In the two modes the operation of a call is refused together or differs in the text of its
angle. -/
theorem operationOf_agree (r : Registry) {call : GateCall}
    (canonical : ∀ e ∈ call.held, e.Canonical) :
    Agree (fun _ _ => True) AnglesDiffer (operationOf ⟨.numeric, measurement⟩ r call)
      (operationOf ⟨.symbolic, measurement⟩ r call) := by
  unfold operationOf
  split
  · exact .error trivial
  · split
    · exact rotation_agree measurement r .rz canonical
    · exact rotation_agree measurement r .rx canonical
    · exact agree_self (fun _ => trivial) (fun _ => ⟨rfl, rfl⟩) _
    · exact .error trivial

/-- A declaration does not look at the operations. -/
theorem declare_agree (h : DrawnAlike d d') (declaration : Declaration) :
    Agree (fun _ _ => True) DrawnAlike (d.declare declaration) (d'.declare declaration) := by
  unfold declare
  rw [← h.registry]
  split
  · exact .ok h
  · split
    · apply agree_after (fun _ => trivial)
      intro declared
      exact .ok (h.with_registry declared.2)
    · apply agree_after (fun _ => trivial)
      intro value
      split
      · exact .error trivial
      · apply agree_after (fun _ => trivial)
        intro declared
        exact .ok (h.with_registry declared.2)
  · exact .error trivial

/-- A statement keeps drafts alike or is refused in both modes. -/
theorem statement_agree (h : DrawnAlike d d') {s : Statement}
    (canonical : ∀ e ∈ s.held, e.Canonical) :
    Agree (fun _ _ => True) DrawnAlike (d.statement ⟨.numeric, measurement⟩ s)
      (d'.statement ⟨.symbolic, measurement⟩ s) := by
  cases s with
  | inclusion path => exact .ok h
  | declaration declaration => exact declare_agree h declaration
  | gateCall call =>
      simp only [statement, gateCall, ← h.registry]
      apply (operationOf_agree measurement d.registry canonical).bind
      intro op op' hop
      exact .ok (h.push hop d.registry)
  | assignment a =>
      simp only [statement, assign, ← h.registry]
      apply agree_after (fun _ => trivial)
      intro qubit
      exact .ok (h.push ⟨rfl, rfl⟩ _)
  | kept rule text => exact .error trivial

/-- An element keeps drafts alike or is refused in both modes. -/
theorem element_agree (h : DrawnAlike d d') (position : Nat) {element : Element}
    (canonical : ∀ scopes e, (scopes, e) ∈ element.held → e.Canonical) :
    Agree (fun _ _ => True) DrawnAlike (d.element ⟨.numeric, measurement⟩ position element)
      (d'.element ⟨.symbolic, measurement⟩ position element) := by
  cases element with
  | version specifier =>
      simp only [Draft.element]
      split
      · exact .error trivial
      · split
        · exact .ok h
        · exact .error trivial
  | item i =>
      cases i with
      | statement s =>
          apply statement_agree measurement h
          intro e he
          exact canonical 0 e (List.mem_map_of_mem he)
      | scope body => exact .error trivial
  | endOfInput => exact .error trivial

/-! ### All elements -/

/-- Elements are carried out up to the one at place `k`, which is refused for `fault`; `position` is
that of the first. -/
def StopsAt (config : LowerConfig) (position : Nat) (d : Draft) (body : List Element) (k : Nat)
    (fault : LowerError) : Prop :=
  ∃ before e after reached, body = before ++ e :: after ∧ before.length = k ∧
    d.elements config position before = .ok reached ∧
    reached.element config (position + k) e = .error fault

variable {config : LowerConfig} {position k : Nat} {e : Element} {body : List Element}
  {fault : LowerError} {next : Draft}

theorem stopsAt_head (h : d.element config position e = .error fault) :
    d.StopsAt config position (e :: body) 0 fault :=
  ⟨[], e, body, d, rfl, rfl, rfl, h⟩

theorem StopsAt.cons (h : next.StopsAt config (position + 1) body k fault)
    (first : d.element config position e = .ok next) :
    d.StopsAt config position (e :: body) (k + 1) fault := by
  obtain ⟨before, stopping, after, reached, rfl, rfl, hbefore, hstop⟩ := h
  refine ⟨e :: before, stopping, after, reached, rfl, rfl, ?_, ?_⟩
  · rw [elements_cons, first]
    exact hbefore
  · rw [← hstop]
    congr 1
    omega

/-- More elements behind them do not matter. -/
theorem StopsAt.append (h : d.StopsAt config position body k fault) (more : List Element) :
    d.StopsAt config position (body ++ more) k fault := by
  obtain ⟨before, stopping, after, reached, rfl, hlength, hbefore, hstop⟩ := h
  exact ⟨before, stopping, after ++ more, reached, by simp, hlength, hbefore, hstop⟩

/-- In the two modes elements are carried out to drafts that are drawn alike, or they stop at the
same place. -/
theorem elements_agree (h : DrawnAlike d d') (position : Nat) {body : List Element}
    (canonical : ∀ element ∈ body, ∀ scopes e, (scopes, e) ∈ element.held → e.Canonical) :
    Agree (fun fault fault' => ∃ k, d.StopsAt ⟨.numeric, measurement⟩ position body k fault ∧
        d'.StopsAt ⟨.symbolic, measurement⟩ position body k fault')
      DrawnAlike (d.elements ⟨.numeric, measurement⟩ position body)
      (d'.elements ⟨.symbolic, measurement⟩ position body) := by
  induction body generalizing d d' position with
  | nil => exact .ok h
  | cons element body ih =>
      have first := element_agree measurement h position
        (canonical element List.mem_cons_self)
      rw [elements_cons, elements_cons]
      generalize hnumeric : d.element _ position element = numeric at first
      generalize hsymbolic : d'.element _ position element = symbolic at first
      cases first with
      | error _ => exact .error ⟨0, stopsAt_head hnumeric, stopsAt_head hsymbolic⟩
      | ok alike =>
          have rest := ih alike (position + 1) fun e he => canonical e (List.mem_cons_of_mem _ he)
          apply rest.imp_error
          rintro fault fault' ⟨k, stops, stops'⟩
          exact ⟨k + 1, stops.cons hnumeric, stops'.cons hsymbolic⟩

end Draft

namespace Program

/-- A program is refused at the element at place `k`: all before it are carried out. -/
def RefusedAt (config : LowerConfig) (program : Program) (k : Nat) (fault : LowerError) : Prop :=
  Draft.empty.StopsAt config 0 program.children k fault

/-- The display mode decides the texts of the angles and nothing else. -/
theorem circuit_modes_agree {source : String} {p : Program} (h : ofText source = .ok p)
    (measurement : Bool) :
    Agree (fun fault fault' => ∃ k, p.RefusedAt ⟨.numeric, measurement⟩ k fault ∧
        p.RefusedAt ⟨.symbolic, measurement⟩ k fault')
      (fun circuit circuit' => circuit.qubits = circuit'.qubits ∧
        circuit.operations.map Operation.withoutAngle =
          circuit'.operations.map Operation.withoutAngle ∧
        circuit.operations.map (·.angle.isSome) = circuit'.operations.map (·.angle.isSome))
      (p.circuit ⟨.numeric, measurement⟩) (p.circuit ⟨.symbolic, measurement⟩) := by
  obtain ⟨_, _, body, owns, _, rfl, goods, _⟩ := exists_owns h
  have canonical : ∀ element ∈ body, ∀ scopes e, (scopes, e) ∈ element.held → e.Canonical := by
    intro element helement scopes e he
    obtain ⟨_, _, _, admitted⟩ := Lexeme.exists_of_forall₂ goods helement
    exact (admitted scopes e he).1
  have run := Draft.elements_agree measurement Draft.drawnAlike_empty 0 canonical
  rw [circuit_closed, circuit_closed]
  generalize hnumeric : Draft.empty.elements _ 0 body = numeric at run
  generalize hsymbolic : Draft.empty.elements _ 0 body = symbolic at run
  cases run with
  | error stops =>
      obtain ⟨k, stops, stops'⟩ := stops
      exact .error ⟨k, stops.append _, stops'.append _⟩
  | ok alike =>
      obtain ⟨circuit, hcircuit⟩ := (Draft.elements_sound Draft.sound_empty hnumeric).finish
      obtain ⟨circuit', hcircuit'⟩ := (Draft.elements_sound Draft.sound_empty hsymbolic).finish
      rw [Except.ok_bind, Except.ok_bind, hcircuit, hcircuit']
      obtain ⟨qubits, operations⟩ := Draft.eq_of_finish hcircuit
      obtain ⟨qubits', operations'⟩ := Draft.eq_of_finish hcircuit'
      apply Agree.ok
      rw [qubits, qubits', operations, operations', alike.registry]
      exact ⟨rfl, alike.erased, alike.shown⟩

/-- The display mode decides the texts of the angles and nothing else: a program that was read has a
circuit in one mode exactly if it has one in the other; the two circuits have the same qubits and the
same operations, with an angle at the same ones, up to the texts of the angles; and where there is no
circuit, both modes refuse the same element. -/
theorem display_mode_shows_angles_only {source : String} {p : Program} (h : ofText source = .ok p)
    (measurement : Bool) :
    ((∃ circuit, p.circuit ⟨.numeric, measurement⟩ = .ok circuit) ↔
      ∃ circuit, p.circuit ⟨.symbolic, measurement⟩ = .ok circuit) ∧
    (∀ circuit circuit', p.circuit ⟨.numeric, measurement⟩ = .ok circuit →
      p.circuit ⟨.symbolic, measurement⟩ = .ok circuit' →
      circuit.qubits = circuit'.qubits ∧
      circuit.operations.map Operation.withoutAngle =
        circuit'.operations.map Operation.withoutAngle ∧
      circuit.operations.map (·.angle.isSome) = circuit'.operations.map (·.angle.isSome)) ∧
    (∀ fault fault', p.circuit ⟨.numeric, measurement⟩ = .error fault →
      p.circuit ⟨.symbolic, measurement⟩ = .error fault' →
      ∃ k, p.RefusedAt ⟨.numeric, measurement⟩ k fault ∧
        p.RefusedAt ⟨.symbolic, measurement⟩ k fault') := by
  have agree := circuit_modes_agree h measurement
  refine ⟨agree.ok_iff, ?_, ?_⟩
  · intro circuit circuit' hnumeric hsymbolic
    rw [hnumeric, hsymbolic] at agree
    exact agree.of_ok
  · intro fault fault' hnumeric hsymbolic
    rw [hnumeric, hsymbolic] at agree
    exact agree.of_error

/-- Three quarters of pi. -/
def threeQuarters : Expression :=
  .binary (.binary (.literal ⟨.decimalInteger, "3"⟩) ⟨.asterisk, "*"⟩ (.literal ⟨.identifier, "pi"⟩))
    ⟨.slash, "/"⟩ (.literal ⟨.decimalInteger, "4"⟩)

/-- The negative of pi. -/
def minusPi : Expression :=
  .unary ⟨.minus, "-"⟩ (.literal ⟨.identifier, "pi"⟩)

/-- A rotation by an angle that has a text in both modes, and one by an angle that has none. -/
def signedAngle : Program :=
  ⟨[.item (.statement (.declaration ⟨⟨.qreg, "qreg"⟩, "q", none⟩)),
    .item (.statement (.gateCall ⟨[], "rx", some [threeQuarters], none, [.indexed ⟨"q", []⟩]⟩)),
    .item (.statement (.gateCall ⟨[], "rz", some [minusPi], none, [.indexed ⟨"q", []⟩]⟩)),
    .endOfInput]⟩

theorem display_mode_shows_angles_only_signedAngle :
    ofText "qreg q;rx(3*pi/4)q;rz(-pi)q;" = .ok signedAngle ∧
      ∃ k, signedAngle.RefusedAt ⟨.numeric, true⟩ k (.malformedOperand "-pi") ∧
        signedAngle.RefusedAt ⟨.symbolic, true⟩ k (.malformedOperand "-pi") := by
  have read : ofText "qreg q;rx(3*pi/4)q;rz(-pi)q;" = .ok signedAngle := by decide +kernel
  have refused : ∀ mode, signedAngle.circuit ⟨mode, true⟩ = .error (.malformedOperand "-pi") := by
    intro mode
    have shown : ∃ text, threeQuarters.angleText mode = .ok text := by
      cases mode with
      | numeric => exact ⟨"3π/4", by decide +kernel⟩
      | symbolic => exact ⟨"3×π/4", by decide +kernel⟩
    have hidden : minusPi.angleText mode = .error (.malformedOperand "-pi") := by
      cases mode <;> cbv
    obtain ⟨text, shown⟩ := shown
    simp [circuit, signedAngle, Draft.elements, Draft.element, Draft.statement, Draft.declare,
      Draft.gateCall, Draft.operationOf, Draft.rotation, Draft.empty, Registry.empty,
      Registry.declareScalar, Registry.checkFresh, Registry.contains, Registry.allocate,
      Registry.size, Registry.resolveOperand, Registry.resolve, qubitLimit, shown, hidden]
  exact ⟨read, (display_mode_shows_angles_only read true).2.2 _ _ (refused _) (refused _)⟩

end Program

end QasmDiagram
