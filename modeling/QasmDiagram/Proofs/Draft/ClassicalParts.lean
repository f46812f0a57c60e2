/-
Module: QasmDiagram.Proofs.Draft.ClassicalParts
Purpose: Inclusions, classical registers and the places that measurements are stored in do not
  influence the circuit. Elements have the same effect as what is left of them without these; so two
  programs that differ in nothing else have the same circuit, or are refused for the same kind of
  cause. Only the elements that a program must open and close with are bound to their places.
Trusted boundary: none
Main exports: Element.quantumPart?, quantumParts, Program.DifferClassically,
  Draft.elements_quantumParts, Program.circuit_differClassically
-/
import QasmDiagram.Proofs.Agreement
import QasmDiagram.Proofs.Draft

namespace QasmDiagram

open LowerError (SameKind)

/-! ### What is left without the classical parts -/

/-- A statement without its classical parts: nothing is left of an inclusion or of the declaration of
a classical register, and of a measurement the place that it is stored in is left out. -/
def Statement.quantumPart? : Statement → Option Statement
  | .inclusion _ => none
  | .declaration d => if d.keyword.kind = .creg then none else some (.declaration d)
  | .assignment a =>
      match a.value with
      | .measure _ => some (.assignment { a with target := ⟨"", []⟩ })
      | .expression _ => some (.assignment a)
  | s => some s

mutual

/-- An item without its classical parts, in all its scopes. -/
def Item.quantumPart? : Item → Option Item
  | .statement s => s.quantumPart?.map .statement
  | .scope body => some (.scope (Item.quantumParts body))

/-- Items without their classical parts. -/
def Item.quantumParts : List Item → List Item
  | [] => []
  | i :: rest => i.quantumPart?.toList ++ Item.quantumParts rest

end

/-- An element without its classical parts. -/
def Element.quantumPart? : Element → Option Element
  | .item i => i.quantumPart?.map .item
  | e => some e

/-- Elements without their classical parts. -/
def quantumParts (elements : List Element) : List Element :=
  elements.filterMap Element.quantumPart?

theorem quantumParts_cons_of_none {e : Element} (classical : e.quantumPart? = none)
    (rest : List Element) : quantumParts (e :: rest) = quantumParts rest :=
  List.filterMap_cons_none classical

theorem quantumParts_cons_of_some {e e' : Element} (left : e.quantumPart? = some e')
    (rest : List Element) : quantumParts (e :: rest) = e' :: quantumParts rest :=
  List.filterMap_cons_some left

/-! ### One element -/

namespace Draft

variable {config : LowerConfig} {d : Draft}

/-- A statement of which nothing is left has no effect. -/
theorem statement_of_quantumPart?_none {s : Statement} (classical : s.quantumPart? = none) :
    d.statement config s = .ok d := by
  cases s with
  | inclusion path => rfl
  | declaration declaration =>
      have kind : declaration.keyword.kind = .creg := by
        simpa [Statement.quantumPart?] using classical
      simp [statement, declare, kind]
  | gateCall call => cases classical
  | assignment a =>
      obtain ⟨target, op, value⟩ := a
      cases value <;> cases classical
  | kept rule text => cases classical

/-- Where a measurement is stored decides neither whether it is carried out nor on which qubit. -/
theorem measuredQubit_target (r : Registry) (a : Assignment) (target : Indexed) :
    Agree SameKind Eq (measuredQubit config r a)
      (measuredQubit config r { a with target := target }) := by
  unfold measuredQubit
  split
  · exact .error rfl
  · cases a.value with
    | measure operand => exact LowerError.agree_rfl _
    | expression e => exact .error rfl

/-- A statement has the effect of what is left of it. -/
theorem statement_of_quantumPart?_some {s s' : Statement} (left : s.quantumPart? = some s') :
    Agree SameKind Eq (d.statement config s) (d.statement config s') := by
  cases s with
  | inclusion path => cases left
  | declaration declaration =>
      have same : s' = .declaration declaration := by
        simp only [Statement.quantumPart?] at left
        split at left
        · cases left
        · exact (Option.some.inj left).symm
      rw [same]
      exact LowerError.agree_rfl _
  | gateCall call =>
      cases left
      exact LowerError.agree_rfl _
  | kept rule text =>
      cases left
      exact LowerError.agree_rfl _
  | assignment a =>
      obtain ⟨target, op, value⟩ := a
      cases value with
      | expression e =>
          cases left
          exact LowerError.agree_rfl _
      | measure operand =>
          cases left
          apply (measuredQubit_target d.registry _ _).bind
          intro qubit _ same
          cases same
          exact LowerError.agree_rfl _

/-- An element of which nothing is left has no effect. -/
theorem element_of_quantumPart?_none {e : Element} (classical : e.quantumPart? = none)
    (position : Nat) : d.element config position e = .ok d := by
  cases e with
  | version specifier => cases classical
  | endOfInput => cases classical
  | item i =>
      cases i with
      | scope body => simp [Element.quantumPart?, Item.quantumPart?] at classical
      | statement s =>
          apply statement_of_quantumPart?_none
          simpa [Element.quantumPart?, Item.quantumPart?] using classical

/-- An element has the effect of what is left of it. -/
theorem element_of_quantumPart?_some {e e' : Element} (left : e.quantumPart? = some e')
    (position : Nat) :
    Agree SameKind Eq (d.element config position e) (d.element config position e') := by
  cases e with
  | version specifier =>
      cases left
      exact LowerError.agree_rfl _
  | endOfInput =>
      cases left
      exact LowerError.agree_rfl _
  | item i =>
      cases i with
      | scope body =>
          simp only [Element.quantumPart?, Item.quantumPart?] at left
          cases left
          exact .error rfl
      | statement s =>
          obtain ⟨i', ofItem, rfl⟩ := Option.map_eq_some_iff.mp left
          rw [Item.quantumPart?] at ofItem
          obtain ⟨s', ofStatement, rfl⟩ := Option.map_eq_some_iff.mp ofItem
          exact statement_of_quantumPart?_some ofStatement

/-! ### All elements -/

/-- Behind the first place, elements have the effect of what is left of them. -/
theorem elements_quantumParts (body : List Element) :
    Agree SameKind Eq (d.elements config 1 body) (d.elements config 1 (quantumParts body)) := by
  induction body generalizing d with
  | nil => exact LowerError.agree_rfl _
  | cons e body ih =>
      rw [elements_cons]
      cases left : e.quantumPart? with
      | none =>
          rw [element_of_quantumPart?_none left, Except.ok_bind, elements_later,
            quantumParts_cons_of_none left]
          exact ih
      | some e' =>
          rw [quantumParts_cons_of_some left, elements_cons]
          apply (element_of_quantumPart?_some left 1).bind
          intro next _ same
          cases same
          rw [elements_later 1 body, elements_later 1 (quantumParts body)]
          exact ih

/-- Behind the first place, elements have the same effect if the same is left of them. -/
theorem elements_agree_of_quantumParts_eq {body body' : List Element}
    (same : quantumParts body = quantumParts body') :
    Agree SameKind Eq (d.elements config 1 body) (d.elements config 1 body') := by
  apply LowerError.agree_of_common (elements_quantumParts body)
  rw [same]
  exact elements_quantumParts body'

end Draft

/-! ### Whole programs -/

namespace Program

/-- A program opens with a version. -/
def OpensWithVersion (p : Program) : Prop :=
  ∃ specifier, p.children.head? = some (.version specifier)

/-- A program closes with the end of input. -/
def ClosesWithEnd (p : Program) : Prop :=
  p.children.getLast? = some .endOfInput

/-- Two programs differ in classical parts only: the same is left of them, and a version opens both
or neither. -/
structure DifferClassically (p p' : Program) : Prop where
  parts : quantumParts p.children = quantumParts p'.children
  version : p.OpensWithVersion ↔ p'.OpensWithVersion

theorem quantumParts_concat (body : List Element) :
    quantumParts (body ++ [.endOfInput]) = quantumParts body ++ [.endOfInput] := by
  unfold quantumParts
  rw [List.filterMap_append]
  rfl

/-- A program that does not close with the end of input is refused as a whole. -/
theorem circuit_open {p : Program} (opened : ¬ p.ClosesWithEnd) (config : LowerConfig) :
    ∃ text, p.circuit config = .error (.unexpectedElement text) := by
  unfold circuit
  split
  · rename_i closed
    exact absurd closed opened
  · exact ⟨_, rfl⟩
  · exact ⟨_, rfl⟩

/-- The version that opens a program stands in front of the rest of its body. -/
theorem OpensWithVersion.exists_rest {body : List Element}
    (opens : OpensWithVersion ⟨body ++ [.endOfInput]⟩) :
    ∃ specifier rest, body = .version specifier :: rest := by
  obtain ⟨specifier, head⟩ := opens
  cases body with
  | nil => cases head
  | cons e rest =>
      cases head
      exact ⟨specifier, rest, rfl⟩

/-- A body that no version opens is carried out as if it stood behind the first place. -/
theorem elements_of_not_opens {config : LowerConfig} {body : List Element} {d : Draft}
    (plain : ¬ OpensWithVersion ⟨body ++ [.endOfInput]⟩) :
    d.elements config 0 body = d.elements config 1 body := by
  apply Draft.elements_unversioned
  intro specifier head
  obtain ⟨rest, rfl⟩ := List.head?_eq_some_iff.mp head
  exact plain ⟨specifier, rfl⟩

/-- Bodies of programs that differ in classical parts only have the same effect. -/
theorem DifferClassically.body_agree {body body' : List Element}
    (differ : DifferClassically ⟨body ++ [.endOfInput]⟩ ⟨body' ++ [.endOfInput]⟩)
    (config : LowerConfig) (d : Draft) :
    Agree SameKind Eq (d.elements config 0 body) (d.elements config 0 body') := by
  have parts : quantumParts body = quantumParts body' := by
    have whole := differ.parts
    simp only [quantumParts_concat] at whole
    exact List.append_cancel_right whole
  by_cases opens : OpensWithVersion ⟨body ++ [.endOfInput]⟩
  · obtain ⟨specifier, rest, rfl⟩ := opens.exists_rest
    obtain ⟨specifier', rest', rfl⟩ := (differ.version.mp opens).exists_rest
    rw [quantumParts_cons_of_some rfl, quantumParts_cons_of_some rfl] at parts
    obtain ⟨same, restParts⟩ := List.cons.inj parts
    cases same
    rw [Draft.elements_cons, Draft.elements_cons]
    have sameKind : ∀ e : LowerError, e.SameKind e := fun _ => rfl
    apply agree_after sameKind
    intro next
    exact Draft.elements_agree_of_quantumParts_eq restParts
  · have plain' : ¬ OpensWithVersion ⟨body' ++ [.endOfInput]⟩ := by
      intro opens'
      exact opens (differ.version.mpr opens')
    rw [elements_of_not_opens opens, elements_of_not_opens plain']
    exact Draft.elements_agree_of_quantumParts_eq parts

/-- Inclusions, classical registers and the places that measurements are stored in never influence
the result: two programs that differ in these only, both of which close with the end of input or
neither, have the same circuit or are refused for the same kind of cause. -/
theorem circuit_differClassically {p p' : Program} (differ : p.DifferClassically p')
    (closed : p.ClosesWithEnd ↔ p'.ClosesWithEnd) (config : LowerConfig) :
    (∃ circuit, p.circuit config = .ok circuit ∧ p'.circuit config = .ok circuit) ∨
    ∃ e e', p.circuit config = .error e ∧ p'.circuit config = .error e' ∧ e.kind = e'.kind := by
  apply LowerError.agree_iff.mp
  by_cases closes : p.ClosesWithEnd
  · obtain ⟨children⟩ := p
    obtain ⟨children'⟩ := p'
    obtain ⟨body, rfl⟩ := List.getLast?_eq_some_iff.mp closes
    obtain ⟨body', rfl⟩ := List.getLast?_eq_some_iff.mp (closed.mp closes)
    rw [circuit_closed, circuit_closed]
    apply (differ.body_agree config .empty).bind
    intro d _ same
    cases same
    exact LowerError.agree_rfl _
  · have opened' : ¬ p'.ClosesWithEnd := by
      intro closes'
      exact closes (closed.mpr closes')
    obtain ⟨text, refused⟩ := circuit_open closes config
    obtain ⟨text', refused'⟩ := circuit_open opened' config
    rw [refused, refused']
    exact .error rfl

/-- A program that measures a qubit. -/
def measuring : Program :=
  ⟨[.version "2.0",
    .item (.statement (.declaration ⟨⟨.qreg, "qreg"⟩, "q", none⟩)),
    .item (.statement (.assignment
      ⟨⟨"c", []⟩, ⟨.equals, "="⟩, .measure (.indexed ⟨"q", []⟩)⟩)),
    .endOfInput]⟩

/-- The same with an inclusion, a classical register under the name of the quantum one and of no
possible size, and another place for the result. -/
def measuringElsewhere : Program :=
  ⟨[.version "2.0",
    .item (.statement (.inclusion "stdgates.inc")),
    .item (.statement (.declaration ⟨⟨.qreg, "qreg"⟩, "q", none⟩)),
    .item (.statement (.declaration
      ⟨⟨.creg, "creg"⟩, "q", some (.literal ⟨.identifier, "nowhere"⟩)⟩)),
    .item (.statement (.assignment
      ⟨⟨"q", [.verbatim "0:1"]⟩, ⟨.equals, "="⟩, .measure (.indexed ⟨"q", []⟩)⟩)),
    .endOfInput]⟩

/-- A register under the name of another and an inclusion leave the circuit as it is. -/
theorem circuit_differClassically_measuring :
    measuring.DifferClassically measuringElsewhere ∧
    (measuring.ClosesWithEnd ↔ measuringElsewhere.ClosesWithEnd) ∧
    ∃ circuit, measuring.circuit {} = .ok circuit ∧ measuringElsewhere.circuit {} = .ok circuit := by
  have differ : measuring.DifferClassically measuringElsewhere := by
    constructor
    · rfl
    · exact ⟨fun _ => ⟨"2.0", rfl⟩, fun _ => ⟨"2.0", rfl⟩⟩
  have closed : measuring.ClosesWithEnd ↔ measuringElsewhere.ClosesWithEnd :=
    ⟨fun _ => rfl, fun _ => rfl⟩
  have placed : measuring.circuit {} = .ok ⟨#[⟨⟨0⟩, some 1⟩], #[.measure ⟨0⟩], by decide⟩ := by
    cbv
  refine ⟨differ, closed, ?_⟩
  rcases circuit_differClassically differ closed {} with same | ⟨e, _, refused, _⟩
  · exact same
  · rw [placed] at refused
    cases refused

/-- An inclusion behind the end of input does influence the result: the program no longer closes with
the end of input and is refused. -/
theorem circuit_inclusion_behind_end :
    DifferClassically ⟨[.endOfInput]⟩
      ⟨[.endOfInput, .item (.statement (.inclusion "stdgates.inc"))]⟩ ∧
    ¬ ((∃ circuit, Program.circuit {} ⟨[.endOfInput]⟩ = .ok circuit ∧
        Program.circuit {} ⟨[.endOfInput, .item (.statement (.inclusion "stdgates.inc"))]⟩ =
          .ok circuit) ∨
      ∃ e e', Program.circuit {} ⟨[.endOfInput]⟩ = .error e ∧
        Program.circuit {} ⟨[.endOfInput, .item (.statement (.inclusion "stdgates.inc"))]⟩ =
          .error e' ∧ e.kind = e'.kind) := by
  have placed : Program.circuit {} ⟨[.endOfInput]⟩ = .ok ⟨#[], #[], by decide⟩ := by
    cbv
  constructor
  · constructor
    · rfl
    · constructor
      · intro opens
        obtain ⟨specifier, head⟩ := opens
        cases head
      · intro opens
        obtain ⟨specifier, head⟩ := opens
        cases head
  · intro outcomes
    rcases outcomes with ⟨circuit, _, second⟩ | ⟨e, _, first, _⟩
    · cases second
    · rw [placed] at first
      cases first

end Program

end QasmDiagram
