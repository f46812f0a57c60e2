/-
Module: QasmDiagram.Proofs.Circuit.Decoding
Purpose: Circuits are formed from their two lists only, whether the lists are given or decoded from
  a JSON value, and both ways tell the same first violation.
Trusted boundary: none
Main exports: Json.member?, Json.Parts.settle_eq_ok_iff, Circuit.Lists, Circuit.decodeParts_eq_ok_iff,
  Circuit.decode_eq_ok_iff, Circuit.formed_or_first_fault
-/
import QasmDiagram.Proofs.Circuit.RoundTrip
import QasmDiagram.Proofs.Circuit.Validity
import QasmDiagram.Proofs.Reading

namespace QasmDiagram

namespace Json

/-! ### Records with nothing else in them -/

/-- What a record holds under a name: an object by name, the last entry of it, and an array with no
surplus by the position of the name. -/
def member? (names : List String) (name : String) : Json → Option Json
  | .object fields => field? name fields
  | .array items => if items.length ≤ names.length then items[names.idxOf name]? else none
  | _ => none

theorem itemPart?_val (position : Nat) (items : List Json) :
    (itemPart? position items).map Subtype.val = items[position]? := by
  unfold itemPart?
  split
  · rename_i missing
    rw [missing]
    rfl
  · rename_i item found
    simp only [found, Option.map_some]

/-- Without a surplus, the parts of a record are its members. -/
theorem part_val {names : List String} {whole : Json} {p : Parts whole}
    (taken : whole.parts names = .ok p) (complete : p.surplus = false) (name : String) :
    (p.part name).map Subtype.val = whole.member? names name := by
  cases whole with
  | object fields =>
      cases taken
      exact fieldPart?_val name fields
  | array items =>
      cases taken
      have few : items.length ≤ names.length := by simpa using complete
      rw [member?, if_pos few]
      exact itemPart?_val _ items
  | _ => cases taken

/-- A value that is no record, or one with a surplus, has no members. -/
theorem parts_of_member? {names : List String} {name : String} {whole value : Json}
    (h : whole.member? names name = some value) :
    ∃ p, whole.parts names = .ok p ∧ p.surplus = false := by
  cases whole with
  | object fields => exact ⟨_, rfl, rfl⟩
  | array items =>
      refine ⟨_, rfl, ?_⟩
      simp only [member?] at h
      split at h
      · rename_i few
        simpa using few
      · cases h
  | _ => cases h

/-- Every name of a record is judged. -/
theorem mem_order {names : List String} {whole : Json} {p : Parts whole}
    (taken : whole.parts names = .ok p) {name : String} : name ∈ p.order ↔ name ∈ names := by
  cases whole with
  | object fields =>
      cases taken
      exact List.mem_mergeSort
  | array items =>
      cases taken
      exact .rfl
  | _ => cases taken

/-- A record passes if no name has a fault and nothing is left over. -/
theorem Parts.settle_eq_ok_iff {whole : Json} {p : Parts whole}
    {faults : List (String × Option DecodeError)} {u : Unit} : p.settle faults = .ok u ↔
      (∀ name ∈ p.order, (faults.lookup name).join = none) ∧ p.surplus = false := by
  rw [Parts.settle]
  cases h : p.order.findSome? fun name => (faults.lookup name).join with
  | none =>
      rw [List.findSome?_eq_none_iff] at h
      cases p.surplus
      · simpa using h
      · simp
  | some e =>
      obtain ⟨name, member, fault⟩ := List.exists_of_findSome?_eq_some h
      simp only [reduceCtorEq, false_iff]
      rintro ⟨sound, _⟩
      rw [sound name member] at fault
      cases fault

section

variable {α : Type} {whole : Json} {content : Json → Except DecodeError α}
  {part : Option (Part whole)} {x : α}

theorem fault?_eq_none_iff {result : Except DecodeError α} :
    fault? result = none ↔ ∃ x, result = .ok x := by
  cases result <;> simp [fault?]

/-- A part is decoded to a value if it is there and its content is. -/
theorem ifPresent_eq_some_iff : ifPresent content part = .ok (some x) ↔
    ∃ value, part.map Subtype.val = some value ∧ content value = .ok x := by
  cases part with
  | none => simp [ifPresent]
  | some part =>
      simp only [ifPresent, Option.map_some, Option.some.injEq, exists_eq_left']
      cases content part.1 <;> simp [bind, Except.bind, pure, Except.pure]

theorem present_eq_ok_iff {value : Option α} : present value = .ok x ↔ value = some x := by
  cases value <;> simp [present]

end

end Json

namespace Circuit

/-! ### The two lists -/

/-- The lists that a JSON value holds for a circuit: both are there, and nothing else if it is an
array, and every item is decoded. -/
structure Lists (j : Json) (qubits : List Qubit) (operations : List Operation) : Prop where
  ofQubits : ∃ value, j.member? ["qubits", "operations"] "qubits" = some value ∧
    Json.asList Qubit.decode value = .ok qubits
  ofOperations : ∃ value, j.member? ["qubits", "operations"] "operations" = some value ∧
    Json.asList Operation.decode value = .ok operations

/-- The lists that a value holds are those that are decoded from it. -/
theorem decodeParts_eq_ok_iff {j : Json} {qubits : List Qubit} {operations : List Operation} :
    decodeParts j = .ok (qubits, operations) ↔ Lists j qubits operations := by
  have taken : decodeParts j = .ok (qubits, operations) ↔
      ∃ p : Json.Parts j, j.parts ["qubits", "operations"] = .ok p ∧ p.surplus = false ∧
        Json.ifPresent (Json.asList Qubit.decode) (p.part "qubits") = .ok (some qubits) ∧
        Json.ifPresent (Json.asList Operation.decode) (p.part "operations")
          = .ok (some operations) := by
    simp only [decodeParts, Except.bind_eq_ok_iff, Json.present_eq_ok_iff,
      Json.Parts.settle_eq_ok_iff]
    constructor
    · rintro ⟨p, taken, _, ⟨_, complete⟩, q, hq, q', rfl, o, ho, o', rfl, same⟩
      cases same
      exact ⟨p, taken, complete, hq, ho⟩
    · rintro ⟨p, taken, complete, hq, ho⟩
      refine ⟨p, taken, (), ⟨fun name member => ?_, complete⟩, _, hq, _, rfl, _, ho, _, rfl, rfl⟩
      rw [Json.mem_order taken] at member
      simp only [List.mem_cons, List.not_mem_nil, or_false] at member
      rw [hq, ho]
      rcases member with rfl | rfl <;> rfl
  rw [taken]
  constructor
  · rintro ⟨p, taken, complete, hq, ho⟩
    rw [Json.ifPresent_eq_some_iff] at hq ho
    rw [Json.part_val taken complete] at hq ho
    exact ⟨hq, ho⟩
  · rintro ⟨hq, ho⟩
    obtain ⟨p, taken, complete⟩ := Json.parts_of_member? hq.choose_spec.1
    refine ⟨p, taken, complete, ?_, ?_⟩
    · rwa [Json.ifPresent_eq_some_iff, Json.part_val taken complete]
    · rwa [Json.ifPresent_eq_some_iff, Json.part_val taken complete]

/-- A value that holds two lists is decoded as the circuit of the lists. -/
theorem decode_of_lists {j : Json} {qubits : List Qubit} {operations : List Operation}
    (lists : Lists j qubits operations) :
    decode j = (ofParts qubits.toArray operations.toArray).mapError
      fun e => DecodeError.refused e.message := by
  rw [decode, decodeParts_eq_ok_iff.mpr lists, Except.ok_bind]
  dsimp only
  cases ofParts qubits.toArray operations.toArray <;> rfl

/-- A value without the two lists is no circuit, for the reason for which the lists are missing. -/
theorem decode_of_not_lists {j : Json}
    (missing : ∀ qubits operations, ¬ Lists j qubits operations) :
    ∃ cause, decodeParts j = .error cause ∧ decode j = .error cause := by
  cases parts : decodeParts j with
  | ok lists => exact absurd (decodeParts_eq_ok_iff.mp parts) (missing lists.1 lists.2)
  | error cause =>
      refine ⟨cause, rfl, ?_⟩
      rw [decode, parts]
      rfl

/-! ### The whole -/

/-- No circuit is invalid. Parts form a circuit exactly where qubits are numbered by position and
every control and target is a qubit, and otherwise their first violation is told. A JSON value is
the circuit of the two lists it holds, or is refused with the same text. And in every circuit each
qubit is found by its number, and nothing by any other. -/
theorem formed_or_first_fault :
    (∀ (qubits : Array Qubit) (operations : Array Operation),
      ((∃ c, ofParts qubits operations = .ok c) ↔
        (∀ (k : Nat) (q : Qubit), qubits[k]? = some q → q.id.index.toNat = k) ∧
          ∀ op ∈ operations, ∀ wire ∈ op.controls ++ op.targets,
            wire.qubit.index.toNat < qubits.size) ∧
      (∀ c, ofParts qubits operations = .ok c ↔ c.qubits = qubits ∧ c.operations = operations) ∧
      ∀ fault, ofParts qubits operations = .error fault ↔ FirstFault qubits operations fault) ∧
    (∀ j : Json,
      (∀ qubits operations, Lists j qubits operations →
        decode j = (ofParts qubits.toArray operations.toArray).mapError
          fun e => DecodeError.refused e.message) ∧
      ((∀ qubits operations, ¬ Lists j qubits operations) →
        ∃ cause, decodeParts j = .error cause ∧ decode j = .error cause)) ∧
    ∀ (c : Circuit) (id : QubitId),
      (∀ q, c.qubit? id = some q ↔ q ∈ c.qubits ∧ q.id = id) ∧
        (c.qubit? id = none ↔ ∀ q ∈ c.qubits, q.id ≠ id) := by
  refine ⟨fun qubits operations => ⟨?_, fun c => ofParts_eq_ok_iff, fun fault => ?_⟩,
    fun j => ⟨fun qubits operations => decode_of_lists, decode_of_not_lists⟩,
    fun c id => ⟨fun q => qubit?_eq_some_iff, ?_⟩⟩
  · rw [exists_ofParts_iff, fault?_eq_none_iff]
    simp only [Operation.qubits, List.forall_mem_map]
  · rw [ofParts_eq_error_iff, fault?_eq_some_iff]
  · rw [Option.eq_none_iff_forall_not_mem]
    constructor
    · intro missing q member same
      exact missing q (qubit?_eq_some_iff.mpr ⟨member, same⟩)
    · intro other q found
      obtain ⟨member, same⟩ := qubit?_eq_some_iff.mp found
      exact other q member same

/-- A rotation of a fourth qubit beside one qubit is refused, from a value as from the lists. -/
theorem formed_or_first_fault_refused :
    let one : Qubit := .fresh ⟨0⟩
    let fourth := Operation.rotation .rz ⟨3⟩ "π"
    let j : Json := .object [("qubits", .array [one.encode]), ("operations", .array [fourth.encode])]
    ofParts #[one] #[fourth] = .error (.danglingQubit 0 .rz ⟨3⟩) ∧
      decode j = .error (.refused "Operation 0 (RZ) references unknown qubit q3") := by
  intro one fourth j
  obtain ⟨given, read, _⟩ := formed_or_first_fault
  have refused : ofParts #[one] #[fourth] = .error (.danglingQubit 0 .rz ⟨3⟩) := by
    rw [(given _ _).2.2]
    refine @FirstFault.dangling _ _ 0 0 fourth ⟨3⟩ ?_ ⟨rfl, by decide, nofun⟩
      ⟨rfl, by decide, nofun⟩
    intro j q here
    cases j with
    | zero =>
        cases here
        rfl
    | succ j => cases here
  refine ⟨refused, ?_⟩
  have lists : Lists j [one] [fourth] :=
    ⟨⟨_, rfl, (Json.Faithful.list (Qubit.faithful : Json.Faithful 1 _ _)).decoded [one]⟩,
      ⟨_, rfl, (Json.Faithful.list (Operation.faithful : Json.Faithful 3 _ _)).decoded [fourth]⟩⟩
  rw [(read j).1 _ _ lists, refused]
  rfl

end Circuit

end QasmDiagram
