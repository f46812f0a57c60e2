/-
Module: QasmDiagram.Proofs.Circuit.Validity
Purpose: The check of a circuit's parts: it passes exactly where qubits are numbered by position and
  operations refer to existing qubits, and otherwise tells the first violation.
Trusted boundary: none
Main exports: FirstAt, Circuit.fault?_eq_none_iff, Circuit.FirstFault, Circuit.fault?_eq_some_iff,
  Circuit.ofParts_eq_error_iff, Circuit.ofParts_eq_ok_iff, Circuit.exists_ofParts_iff,
  Circuit.qubit?_eq_some_iff
-/
import QasmDiagram.Circuit

namespace QasmDiagram

/-! ### The first of its kind -/

/-- The item at position `k` is the first of a list of which `p` holds at its position. -/
structure FirstAt {α : Type} (p : Nat → α → Prop) (xs : List α) (k : Nat) (x : α) : Prop where
  here : xs[k]? = some x
  holds : p k x
  before : ∀ j < k, ∀ y, xs[j]? = some y → ¬ p j y

section First

variable {α : Type} {p : Nat → α → Prop} {x y : α} {xs : List α} {k : Nat}

/-- The head is the first, or it is not and the first stands behind it. -/
theorem exists_firstAt_cons_iff {Q : Nat → α → Prop} :
    (∃ k y, FirstAt p (x :: xs) k y ∧ Q k y) ↔
      (p 0 x ∧ Q 0 x) ∨
        (¬ p 0 x ∧ ∃ k y, FirstAt (fun i => p (i + 1)) xs k y ∧ Q (k + 1) y) := by
  constructor
  · rintro ⟨k, y, ⟨here, holds, before⟩, hQ⟩
    cases k with
    | zero =>
        cases here
        exact .inl ⟨holds, hQ⟩
    | succ k =>
        refine .inr ⟨before 0 (by omega) x rfl, k, y, ⟨by simpa using here, holds, ?_⟩, hQ⟩
        intro j hj z hz
        exact before (j + 1) (by omega) z (by simpa using hz)
  · rintro (⟨holds, hQ⟩ | ⟨other, k, y, ⟨here, holds, before⟩, hQ⟩)
    · exact ⟨0, x, ⟨rfl, holds, nofun⟩, hQ⟩
    · refine ⟨k + 1, y, ⟨by simpa using here, holds, ?_⟩, hQ⟩
      intro j hj z hz
      cases j with
      | zero =>
          cases hz
          exact other
      | succ j => exact before j (by omega) z (by simpa using hz)

theorem not_firstAt_nil : ¬ FirstAt p [] k y :=
  fun h => nomatch h.here

/-- A search from the left finds the first. -/
theorem find?_eq_some_iff_firstAt {p : α → Bool} :
    xs.find? p = some y ↔ ∃ k, FirstAt (fun _ x => p x = true) xs k y := by
  have listed : (∃ k, FirstAt (fun _ x => p x = true) xs k y) ↔
      ∃ k z, FirstAt (fun _ x => p x = true) xs k z ∧ z = y := by simp
  rw [listed]
  induction xs with
  | nil => simp [not_firstAt_nil]
  | cons x xs ih =>
      rw [List.find?_cons, exists_firstAt_cons_iff]
      cases here : p x with
      | true => simp
      | false => simp [ih]

end First

namespace Circuit

/-! ### The two scans -/

theorem firstMisnumbered?_eq_none_iff (position : Nat) (qubits : List Qubit) :
    firstMisnumbered? position qubits = none ↔
      ∀ (k : Nat) (q : Qubit), qubits[k]? = some q → q.id.index.toNat = position + k := by
  induction qubits generalizing position with
  | nil => simp [firstMisnumbered?]
  | cons q qubits ih =>
      rw [firstMisnumbered?]
      split
      · rename_i here
        rw [ih]
        constructor
        · intro h k other hk
          cases k with
          | zero =>
              cases hk
              exact here
          | succ k =>
              rw [h k other (by simpa using hk)]
              omega
        · intro h k other hk
          rw [h (k + 1) other (by simpa using hk)]
          omega
      · rename_i here
        simp only [reduceCtorEq, false_iff]
        intro h
        exact here (h 0 q rfl)

/-- The scan of the qubits tells the first whose number is not its position. -/
theorem firstMisnumbered?_eq_some_iff {position : Nat} {qubits : List Qubit}
    {fault : CircuitError} : firstMisnumbered? position qubits = some fault ↔
      ∃ k q, FirstAt (fun k q => q.id.index.toNat ≠ position + k) qubits k q ∧
        fault = .misnumberedQubit (position + k) q.id := by
  induction qubits generalizing position with
  | nil => simp [firstMisnumbered?, not_firstAt_nil]
  | cons q qubits ih =>
      have shifted : ∀ k, position + 1 + k = position + (k + 1) := fun k => by omega
      rw [firstMisnumbered?, exists_firstAt_cons_iff]
      split
      · rename_i here
        simp [ih, here, shifted]
      · rename_i wrong
        simp [wrong, eq_comm]

theorem firstDangling?_eq_none_iff (count position : Nat) (operations : List Operation) :
    firstDangling? count position operations = none ↔
      ∀ op ∈ operations, ∀ id ∈ op.qubits, id.index.toNat < count := by
  induction operations generalizing position with
  | nil => simp [firstDangling?]
  | cons op operations ih =>
      rw [firstDangling?]
      split
      · rename_i id hid
        simp only [reduceCtorEq, false_iff]
        intro h
        have outside := List.find?_some hid
        have inside := h op (by simp) id (List.mem_of_find?_eq_some hid)
        simp only [decide_eq_true_eq] at outside
        omega
      · rename_i hnone
        rw [ih]
        simp only [List.mem_cons, forall_eq_or_imp, iff_and_self]
        intro _ id hid
        have := List.find?_eq_none.mp hnone id hid
        simpa using this

/-- The scan of the operations tells the first unknown reference of the first operation that has
one. -/
theorem firstDangling?_eq_some_iff {count position : Nat} {operations : List Operation}
    {fault : CircuitError} : firstDangling? count position operations = some fault ↔
      ∃ k op, FirstAt (fun _ op => ∃ id ∈ op.qubits, count ≤ id.index.toNat) operations k op ∧
        ∃ m id, FirstAt (fun _ id => count ≤ id.index.toNat) op.qubits m id ∧
          fault = .danglingQubit (position + k) op.gate id := by
  induction operations generalizing position with
  | nil => simp [firstDangling?, not_firstAt_nil]
  | cons op operations ih =>
      have shifted : ∀ k, position + 1 + k = position + (k + 1) := fun k => by omega
      rw [firstDangling?, exists_firstAt_cons_iff]
      split
      · rename_i id found
        have unknown : ∃ id ∈ op.qubits, count ≤ id.index.toNat :=
          ⟨id, List.mem_of_find?_eq_some found, by simpa using List.find?_some found⟩
        constructor
        · intro told
          cases told
          obtain ⟨m, first⟩ := find?_eq_some_iff_firstAt.mp found
          exact .inl ⟨unknown, m, id, by simpa using first, rfl⟩
        · rintro (⟨_, m, other, first, rfl⟩ | ⟨known, _⟩)
          · have same := find?_eq_some_iff_firstAt
              (p := fun q : QubitId => decide (count ≤ q.index.toNat)).mpr ⟨m, by simpa using first⟩
            rw [found, Option.some.injEq] at same
            rw [same]
            rfl
          · exact absurd unknown known
      · rename_i complete
        have known : ¬ ∃ id ∈ op.qubits, count ≤ id.index.toNat := by
          rintro ⟨id, member, unknown⟩
          simpa [unknown] using List.find?_eq_none.mp complete id member
        simp only [known, false_and, not_false_eq_true, true_and, false_or, ih, shifted]

/-! ### Both together -/

variable {qubits : Array Qubit} {operations : Array Operation} {fault : CircuitError}

/-- Parts are free of violations if qubits are numbered by position and operations use qubits that
exist. -/
theorem fault?_eq_none_iff :
    fault? qubits operations = none ↔
      (∀ (k : Nat) (q : Qubit), qubits[k]? = some q → q.id.index.toNat = k) ∧
        ∀ op ∈ operations, ∀ id ∈ op.qubits, id.index.toNat < qubits.size := by
  have numbered := firstMisnumbered?_eq_none_iff 0 qubits.toList
  have known := firstDangling?_eq_none_iff qubits.size 0 operations.toList
  simp only [Nat.zero_add, Array.getElem?_toList, Array.mem_toList_iff] at numbered known
  rw [← numbered, ← known, fault?]
  cases h : firstMisnumbered? 0 qubits.toList <;> simp

/-- The first violation among the parts of a circuit: the first qubit whose number is not its
position. If there is none, the first operation with a reference to an unknown qubit, and there the
first such reference, controls before targets. -/
inductive FirstFault (qubits : Array Qubit) (operations : Array Operation) : CircuitError → Prop where
  | misnumbered {k : Nat} {q : Qubit} :
      FirstAt (fun k q => q.id.index.toNat ≠ k) qubits.toList k q →
      FirstFault qubits operations (.misnumberedQubit k q.id)
  | dangling {k m : Nat} {op : Operation} {id : QubitId} :
      (∀ (j : Nat) (q : Qubit), qubits[j]? = some q → q.id.index.toNat = j) →
      FirstAt (fun _ op => ∃ id ∈ op.qubits, qubits.size ≤ id.index.toNat) operations.toList k op →
      FirstAt (fun _ id => qubits.size ≤ id.index.toNat)
        (op.controls.map Wire.qubit ++ op.targets.map Wire.qubit) m id →
      FirstFault qubits operations (.danglingQubit k op.gate id)

/-- What is told of parts is their first violation. -/
theorem fault?_eq_some_iff : fault? qubits operations = some fault ↔
    FirstFault qubits operations fault := by
  have references : ∀ op : Operation,
      op.controls.map Wire.qubit ++ op.targets.map Wire.qubit = op.qubits :=
    fun op => List.map_append.symm
  have numbered := firstMisnumbered?_eq_none_iff 0 qubits.toList
  have scans : fault? qubits operations = some fault ↔
      firstMisnumbered? 0 qubits.toList = some fault ∨ (firstMisnumbered? 0 qubits.toList = none ∧
        firstDangling? qubits.size 0 operations.toList = some fault) := by
    rw [fault?]
    cases firstMisnumbered? 0 qubits.toList <;> simp
  rw [scans, firstMisnumbered?_eq_some_iff, firstDangling?_eq_some_iff, numbered]
  simp only [Nat.zero_add, Array.getElem?_toList]
  constructor
  · rintro (⟨k, q, first, rfl⟩ | ⟨complete, k, op, first, m, id, reference, rfl⟩)
    · exact .misnumbered first
    · exact .dangling complete first (references op ▸ reference)
  · intro h
    cases h with
    | @misnumbered k q first => exact .inl ⟨k, q, first, rfl⟩
    | @dangling k m op id complete first reference =>
        exact .inr ⟨complete, k, op, first, m, id, references op ▸ reference, rfl⟩

theorem ofParts_eq_error_iff : ofParts qubits operations = .error fault ↔
    fault? qubits operations = some fault := by
  unfold ofParts
  split
  · rename_i told h
    simp [h]
  · rename_i h
    simp [h]

theorem ofParts_eq_ok_iff {c : Circuit} : ofParts qubits operations = .ok c ↔
    c.qubits = qubits ∧ c.operations = operations := by
  unfold ofParts
  split
  · rename_i told h
    simp only [reduceCtorEq, false_iff]
    rintro ⟨rfl, rfl⟩
    rw [c.valid] at h
    cases h
  · obtain ⟨qubits', operations', _⟩ := c
    simp [eq_comm]

theorem exists_ofParts_iff :
    (∃ c, ofParts qubits operations = .ok c) ↔ fault? qubits operations = none := by
  simp only [ofParts_eq_ok_iff]
  constructor
  · rintro ⟨c, rfl, rfl⟩
    exact c.valid
  · intro valid
    exact ⟨⟨qubits, operations, valid⟩, rfl, rfl⟩

/-- A circuit's qubit is found by its number: the position at which it is looked for is the only one
with that number. -/
theorem qubit?_eq_some_iff {c : Circuit} {id : QubitId} {q : Qubit} :
    c.qubit? id = some q ↔ q ∈ c.qubits ∧ q.id = id := by
  have numbered := (fault?_eq_none_iff.mp c.valid).1
  constructor
  · intro found
    refine ⟨Array.mem_of_getElem? found, ?_⟩
    have number := numbered _ _ found
    obtain ⟨⟨index⟩, children⟩ := q
    obtain ⟨index'⟩ := id
    exact congrArg QubitId.mk (UInt32.toNat_inj.mp number)
  · rintro ⟨member, rfl⟩
    obtain ⟨k, here⟩ := Array.mem_iff_getElem?.mp member
    rw [qubit?, numbered k q here]
    exact here

end Circuit

end QasmDiagram
