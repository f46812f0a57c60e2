/-
Module: QasmDiagram.Proofs.Registry
Purpose: What the operations of a registry do, each said once, and the invariant that they keep:
  qubits are numbered by position, the numbers fit, and registers hold qubits that exist.
Trusted boundary: none
Main exports: Registry.qubitLimit_lt, Registry.idAt_toNat, Registry.addQubits_eq, Registry.Measured,
  Registry.Grows, Registry.WellFormed, Registry.declareScalar_eq_ok_iff,
  Registry.declareArray_eq_ok_iff, Registry.resolve_eq_ok_iff
-/
import Mathlib.Tactic.Common
import QasmDiagram.Registry
import QasmDiagram.Proofs.Reading

namespace QasmDiagram

namespace Registry

/-- There are more numbers than the limit allows qubits. -/
theorem qubitLimit_lt : qubitLimit < UInt32.size := by decide

/-- A position below the count of numbers is written as a number without loss. -/
theorem idAt_toNat {k : Nat} (h : k < UInt32.size) : (idAt k).index.toNat = k :=
  UInt32.toNat_ofNat_of_lt' h

/-- The fresh qubits are put behind the others, in order. -/
theorem addQubits_eq (count : Nat) (qubits : Array Qubit) :
    (addQubits count qubits).toList =
      qubits.toList ++ (List.range' qubits.size count).map fun k => .fresh (idAt k) := by
  induction count generalizing qubits with
  | zero => simp [addQubits]
  | succ count ih =>
      rw [addQubits, ih, List.range'_succ]
      simp [addQubit]

@[simp] theorem size_addQubits (count : Nat) (qubits : Array Qubit) :
    (addQubits count qubits).size = qubits.size + count := by
  rw [← Array.length_toList, addQubits_eq]
  simp

@[simp] theorem size_allocate (r : Registry) : r.allocate.2.size = r.size + 1 := by
  simp [size, allocate, addQubit]

/-- The qubits that were there stay where they are. -/
theorem getElem?_addQubits_of_lt {count k : Nat} {qubits : Array Qubit} (h : k < qubits.size) :
    (addQubits count qubits)[k]? = qubits[k]? := by
  rw [← Array.getElem?_toList, addQubits_eq, List.getElem?_append_left (by simpa using h),
    Array.getElem?_toList]

/-- Behind them stand fresh ones, numbered by position. -/
theorem getElem?_addQubits_of_ge {count k : Nat} {qubits : Array Qubit} (h : qubits.size ≤ k)
    {q : Qubit} (hq : (addQubits count qubits)[k]? = some q) : q = .fresh (idAt k) := by
  rw [← Array.getElem?_toList, addQubits_eq, List.getElem?_append_right (by simpa using h),
    List.getElem?_map, Option.map_eq_some_iff] at hq
  obtain ⟨j, hj, rfl⟩ := hq
  rw [List.getElem?_eq_some_iff] at hj
  obtain ⟨_, rfl⟩ := hj
  simp only [List.getElem_range', Array.length_toList]
  congr 2
  omega

/-! ### Measured qubits -/

/-- The qubit of a number exists and is marked as measured. -/
def Measured (r : Registry) (id : QubitId) : Prop :=
  ∃ q, r.qubits[id.index.toNat]? = some q ∧ q.isMeasured = true

/-- A marked qubit exists. -/
theorem Measured.lt_size {r : Registry} {id : QubitId} (h : r.Measured id) :
    id.index.toNat < r.size := by
  obtain ⟨q, hq, _⟩ := h
  exact (Array.getElem?_eq_some_iff.mp hq).1

/-- Later registries hold at least the qubits of earlier ones, and marks stay. -/
structure Grows (r r' : Registry) : Prop where
  size_le : r.size ≤ r'.size
  measured : ∀ id, r.Measured id → r'.Measured id

/-- A registry grows by fresh qubits, whatever is bound. -/
theorem grows_addQubits (r : Registry) (count : Nat) (bindings : Std.HashMap String Binding) :
    r.Grows ⟨addQubits count r.qubits, bindings⟩ where
  size_le := by simp [size]
  measured := by
    intro id marked
    have inside := marked.lt_size
    obtain ⟨q, hq, isMeasured⟩ := marked
    exact ⟨q, by rw [getElem?_addQubits_of_lt inside]; exact hq, isMeasured⟩

@[simp] theorem size_markMeasured (r : Registry) (id : QubitId) :
    (r.markMeasured id).size = r.size := by
  simp [markMeasured, size]

@[simp] theorem bindings_markMeasured (r : Registry) (id : QubitId) :
    (r.markMeasured id).bindings = r.bindings := rfl

/-- Marking sets the mark of one qubit. -/
theorem getElem?_markMeasured (r : Registry) (id : QubitId) (k : Nat) :
    (r.markMeasured id).qubits[k]? =
      if id.index.toNat = k then r.qubits[k]?.map Qubit.measured else r.qubits[k]? := by
  simp [markMeasured, Array.getElem?_modify]

/-- Marking takes no mark away. -/
theorem grows_markMeasured (r : Registry) (id : QubitId) : r.Grows (r.markMeasured id) where
  size_le := by simp
  measured := by
    intro other marked
    obtain ⟨q, hq, isMeasured⟩ := marked
    by_cases same : id.index.toNat = other.index.toNat
    · exact ⟨q.measured, by rw [getElem?_markMeasured, if_pos same, hq]; rfl, rfl⟩
    · exact ⟨q, by rw [getElem?_markMeasured, if_neg same, hq], isMeasured⟩

/-- A qubit that exists is marked. -/
theorem measured_markMeasured {r : Registry} {id : QubitId} (h : id.index.toNat < r.size) :
    (r.markMeasured id).Measured id := by
  obtain ⟨q, hq⟩ : ∃ q, r.qubits[id.index.toNat]? = some q := ⟨_, Array.getElem?_eq_getElem h⟩
  exact ⟨q.measured, by rw [getElem?_markMeasured, if_pos rfl, hq]; rfl, rfl⟩

end Registry

/-! ### The invariant -/

/-- A register holds qubits among the first `count`. -/
def Binding.Within (count : Nat) : Binding → Prop
  | .scalar id => id.index.toNat < count
  | .array first size => first + size ≤ count

theorem Binding.Within.mono {b : Binding} {count count' : Nat} (h : b.Within count)
    (hle : count ≤ count') : b.Within count' := by
  cases b with
  | scalar id => exact Nat.lt_of_lt_of_le h hle
  | array first size => exact Nat.le_trans h hle

namespace Registry

/-- Qubits are numbered by position, their numbers fit, and registers hold qubits that exist. -/
structure WellFormed (r : Registry) : Prop where
  numbered : ∀ (k : Nat) (q : Qubit), r.qubits[k]? = some q → q.id = idAt k
  bounded : r.size ≤ UInt32.size
  within : ∀ (name : String) (b : Binding), r.bindings[name]? = some b → b.Within r.size

theorem wellFormed_empty : empty.WellFormed where
  numbered := by simp [empty]
  bounded := by decide
  within := by simp [empty]

/-- Fresh qubits, and perhaps a register that holds them, keep a registry well formed. -/
theorem WellFormed.addQubits {r : Registry} (h : r.WellFormed) {count : Nat}
    (fits : r.size + count ≤ UInt32.size) {bindings : Std.HashMap String Binding}
    (within : ∀ (name : String) (b : Binding), bindings[name]? = some b →
      r.bindings[name]? = some b ∨ b.Within (r.size + count)) :
    WellFormed ⟨addQubits count r.qubits, bindings⟩ where
  numbered := by
    intro k q hq
    by_cases old : k < r.qubits.size
    · rw [getElem?_addQubits_of_lt old] at hq
      exact h.numbered k q hq
    · rw [getElem?_addQubits_of_ge (Nat.le_of_not_lt old) hq]
      rfl
  bounded := by simpa [size] using fits
  within := by
    intro name b hb
    rw [size, size_addQubits]
    rcases within name b hb with earlier | new
    · exact (h.within name b earlier).mono (Nat.le_add_right _ _)
    · exact new

/-- Marking keeps a registry well formed. -/
theorem WellFormed.markMeasured {r : Registry} (h : r.WellFormed) (id : QubitId) :
    (r.markMeasured id).WellFormed where
  numbered := by
    intro k q hq
    rw [getElem?_markMeasured] at hq
    split at hq
    · rw [Option.map_eq_some_iff] at hq
      obtain ⟨q', hq', rfl⟩ := hq
      exact h.numbered k q' hq'
    · exact h.numbered k q hq
  bounded := by simpa using h.bounded
  within := by simpa using h.within

/-! ### What declarations and resolution do -/

theorem contains_eq_false_iff {r : Registry} {name : String} :
    r.contains name = false ↔ r.bindings[name]? = none := by
  rw [contains, Std.HashMap.contains_eq_isSome_getElem?, Option.isSome_eq_false_iff,
    Option.isNone_iff_eq_none]

/-- A name is fresh if no register has it and the qubits fit. -/
theorem checkFresh_eq_ok_iff {r : Registry} {name : String} {count : Nat} :
    r.checkFresh name count = .ok () ↔
      r.bindings[name]? = none ∧ count ≤ qubitLimit - r.size := by
  rw [← contains_eq_false_iff, checkFresh]
  split
  · simp_all
  · split <;> simp_all

/-- A scalar register is declared by one fresh qubit under a fresh name. -/
theorem declareScalar_eq_ok_iff {r r' : Registry} {name : String} {id : QubitId} :
    r.declareScalar name = .ok (id, r') ↔
      r.bindings[name]? = none ∧ 1 ≤ qubitLimit - r.size ∧ id = idAt r.size ∧
        r' = ⟨addQubits 1 r.qubits, r.bindings.insert name (.scalar (idAt r.size))⟩ := by
  rw [declareScalar, Except.bind_eq_ok_iff]
  constructor
  · rintro ⟨⟨⟩, fresh, h⟩
    rcases checkFresh_eq_ok_iff.mp fresh with ⟨free, fits⟩
    cases h
    exact ⟨free, fits, rfl, rfl⟩
  · rintro ⟨free, fits, rfl, rfl⟩
    exact ⟨(), checkFresh_eq_ok_iff.mpr ⟨free, fits⟩, rfl⟩

/-- An array register is declared by fresh qubits under a fresh name. -/
theorem declareArray_eq_ok_iff {r r' : Registry} {name : String} {count first : Nat} :
    r.declareArray name count = .ok (first, r') ↔
      r.bindings[name]? = none ∧ count ≤ qubitLimit - r.size ∧ first = r.size ∧
        r' = ⟨addQubits count r.qubits, r.bindings.insert name (.array r.size count)⟩ := by
  rw [declareArray, Except.bind_eq_ok_iff]
  constructor
  · rintro ⟨⟨⟩, fresh, h⟩
    rcases checkFresh_eq_ok_iff.mp fresh with ⟨free, fits⟩
    cases h
    exact ⟨free, fits, rfl, rfl⟩
  · rintro ⟨free, fits, rfl, rfl⟩
    exact ⟨(), checkFresh_eq_ok_iff.mpr ⟨free, fits⟩, rfl⟩

/-- A new register changes what its own name stands for, and nothing else. -/
theorem getElem?_insert (bindings : Std.HashMap String Binding) (name other : String)
    (b : Binding) :
    (bindings.insert name b)[other]? = if name = other then some b else bindings[other]? := by
  simp [Std.HashMap.getElem?_insert]

/-- The declaration of a scalar register keeps a registry well formed. -/
theorem WellFormed.declareScalar {r r' : Registry} (h : r.WellFormed) {name : String}
    {id : QubitId} (hdeclare : r.declareScalar name = .ok (id, r')) : r'.WellFormed := by
  rcases declareScalar_eq_ok_iff.mp hdeclare with ⟨_, fits, _, rfl⟩
  have room : r.size + 1 ≤ UInt32.size := by
    have := qubitLimit_lt
    omega
  apply h.addQubits room
  intro other b hb
  rw [getElem?_insert] at hb
  split at hb
  · cases hb
    right
    rw [Binding.Within, idAt_toNat room]
    exact Nat.lt_succ_self _
  · exact .inl hb

/-- The declaration of an array register keeps a registry well formed. -/
theorem WellFormed.declareArray {r r' : Registry} (h : r.WellFormed) {name : String}
    {count first : Nat} (hdeclare : r.declareArray name count = .ok (first, r')) :
    r'.WellFormed := by
  rcases declareArray_eq_ok_iff.mp hdeclare with ⟨_, fits, _, rfl⟩
  have room : r.size + count ≤ UInt32.size := by
    have := h.bounded
    have := qubitLimit_lt
    omega
  apply h.addQubits room
  intro other b hb
  rw [getElem?_insert] at hb
  split at hb
  · cases hb
    exact .inr (Nat.le_refl _)
  · exact .inl hb

/-- What a name and an index stand for. -/
theorem resolve_eq_ok_iff {r : Registry} {name : String} {index : Option Nat} {id : QubitId} :
    r.resolve name index = .ok id ↔
      (index = none ∧ r.bindings[name]? = some (.scalar id)) ∨
        ∃ i first size, index = some i ∧ r.bindings[name]? = some (.array first size) ∧
          i < size ∧ id = idAt (first + i) := by
  unfold resolve
  cases hb : r.bindings[name]? with
  | none => simp
  | some b =>
      cases b with
      | scalar other =>
          cases index with
          | none => simp
          | some i => simp
      | array first size =>
          cases index with
          | none => simp
          | some i =>
              by_cases inside : i < size
              · simp [inside, eq_comm]
              · simp [inside]

/-- What is resolved is a qubit that exists. -/
theorem WellFormed.resolve_lt {r : Registry} (h : r.WellFormed) {name : String}
    {index : Option Nat} {id : QubitId} (hresolve : r.resolve name index = .ok id) :
    id.index.toNat < r.size := by
  rcases resolve_eq_ok_iff.mp hresolve with ⟨_, hb⟩ | ⟨i, first, size, _, hb, inside, rfl⟩
  · exact h.within name _ hb
  · have within : first + size ≤ r.size := h.within name _ hb
    have bounded := h.bounded
    rw [idAt_toNat (by omega)]
    omega

end Registry

end QasmDiagram
