/-
Module: QasmDiagram.Proofs.Registry.Change
Purpose: What one call can make of a registry. Every change within the limit keeps each name bound
  to what it was bound to, and leaves no qubit under two references.
Trusted boundary: none
Main exports: Binding.Names, Binding.Spans, Registry.resolve_iff_names, Registry.Settled,
  Registry.Change, Registry.Change.settled, Registry.Change.keeps
-/
import QasmDiagram.Proofs.Registry

namespace QasmDiagram

/-- Different positions below the count of numbers have different numbers. -/
theorem Registry.idAt_inj {j k : Nat} (hj : j < UInt32.size) (hk : k < UInt32.size)
    (same : idAt j = idAt k) : j = k := by
  rw [← idAt_toNat hj, same, idAt_toNat hk]

/-! ### The qubits of a register -/

namespace Binding

/-- The qubit that a register stands for, without an index or under one. -/
inductive Names : Binding → Option Nat → QubitId → Prop where
  | whole {id} : Names (.scalar id) none id
  | part {first size i} : i < size → Names (.array first size) (some i) (Registry.idAt (first + i))

/-- A register holds the `count` qubits from the position `first` on. -/
inductive Spans (first : Nat) : Nat → Binding → Prop where
  | scalar : Spans first 1 (.scalar (Registry.idAt first))
  | array {count} : Spans first count (.array first count)

/-- In a register of existing qubits, different references name different qubits. -/
theorem Names.index_unique {b : Binding} {count : Nat} (within : b.Within count)
    (fits : count ≤ UInt32.size) {index index' : Option Nat} {id : QubitId}
    (one : b.Names index id) (two : b.Names index' id) : index = index' := by
  cases one with
  | whole =>
      cases two with
      | whole => rfl
  | @part first size i inside =>
      generalize same : Registry.idAt (first + i) = id' at two
      cases two with
      | @part _ _ j inside' =>
          have room : first + size ≤ count := within
          have positions := Registry.idAt_inj (by omega) (by omega) same
          rw [Nat.add_left_cancel positions]

/-- A register that spans qubits names only these. -/
theorem Spans.le_of_names {b : Binding} {first count : Nat} (spans : b.Spans first count)
    (fits : first + count ≤ UInt32.size) {index : Option Nat} {id : QubitId}
    (names : b.Names index id) : first ≤ id.index.toNat := by
  cases spans with
  | scalar =>
      cases names with
      | whole => exact Nat.le_of_eq (Registry.idAt_toNat fits).symm
  | array =>
      cases names with
      | part inside =>
          rw [Registry.idAt_toNat (by omega)]
          exact Nat.le_add_right _ _

/-- A register that spans qubits holds no others. -/
theorem Spans.within {b : Binding} {first count : Nat} (spans : b.Spans first count)
    (fits : first + count ≤ UInt32.size) : b.Within (first + count) := by
  cases spans with
  | scalar =>
      rw [Within, Registry.idAt_toNat fits]
      exact Nat.lt_succ_self _
  | array => exact Nat.le_refl _

end Binding

namespace Registry

/-- A reference resolves to what the register of its name stands for under its index. -/
theorem resolve_iff_names {r : Registry} {name : String} {index : Option Nat} {id : QubitId} :
    r.resolve name index = .ok id ↔ ∃ b, r.bindings[name]? = some b ∧ b.Names index id := by
  rw [resolve_eq_ok_iff]
  constructor
  · rintro (⟨rfl, bound⟩ | ⟨i, first, size, rfl, bound, inside, rfl⟩)
    · exact ⟨_, bound, .whole⟩
    · exact ⟨_, bound, .part inside⟩
  · rintro ⟨b, bound, names⟩
    cases names with
    | whole => exact .inl ⟨rfl, bound⟩
    | part inside => exact .inr ⟨_, _, _, rfl, bound, inside, rfl⟩

/-- Resolution in a registry with one more register. -/
theorem resolve_insert {r : Registry} {qubits : Array Qubit} {name other : String} {b : Binding}
    {index : Option Nat} {id : QubitId} :
    Registry.resolve ⟨qubits, r.bindings.insert name b⟩ other index = .ok id ↔
      if name = other then b.Names index id else r.resolve other index = .ok id := by
  rw [resolve_iff_names]
  simp only [getElem?_insert]
  split
  · simp
  · exact resolve_iff_names.symm

/-! ### The invariant -/

/-- A well-formed registry within the limit, no qubit of which has two names. -/
structure Settled (r : Registry) : Prop extends WellFormed r where
  limited : r.size ≤ qubitLimit
  apart : ∀ {name name' : String} {index index' : Option Nat} {id : QubitId},
    r.resolve name index = .ok id → r.resolve name' index' = .ok id → name = name'

theorem settled_empty : empty.Settled where
  toWellFormed := wellFormed_empty
  limited := by decide
  apart := by simp [resolve_iff_names, empty]

/-- Within the limit every position has a number, and so has the next free one. -/
theorem Settled.size_lt {r : Registry} (h : r.Settled) : r.size < UInt32.size :=
  Nat.lt_of_le_of_lt h.limited qubitLimit_lt

/-- References that resolve to one qubit are the same. -/
theorem Settled.reference_unique {r : Registry} (h : r.Settled) {name name' : String}
    {index index' : Option Nat} {id : QubitId} (one : r.resolve name index = .ok id)
    (two : r.resolve name' index' = .ok id) : (name, index) = (name', index') := by
  obtain rfl := h.apart one two
  rcases resolve_iff_names.mp one with ⟨b, bound, names⟩
  rcases resolve_iff_names.mp two with ⟨b', bound', names'⟩
  obtain rfl : b = b' := Option.some.inj (bound.symm.trans bound')
  rw [names.index_unique (h.within name b bound) h.bounded names']

/-- A name stays bound to what it was bound to. -/
def Keeps (r r' : Registry) : Prop :=
  ∀ (name : String) (b : Binding), r.bindings[name]? = some b → r'.bindings[name]? = some b

theorem Keeps.refl (r : Registry) : r.Keeps r :=
  fun _ _ bound => bound

theorem Keeps.trans {r r' r'' : Registry} (one : r.Keeps r') (two : r'.Keeps r'') :
    r.Keeps r'' :=
  fun name b bound => two name b (one name b bound)

/-- What resolves goes on resolving to the same qubit. -/
theorem Keeps.resolve {r r' : Registry} (h : r.Keeps r') {name : String} {index : Option Nat}
    {id : QubitId} (found : r.resolve name index = .ok id) : r'.resolve name index = .ok id := by
  rcases resolve_iff_names.mp found with ⟨b, bound, names⟩
  exact resolve_iff_names.mpr ⟨b, h name b bound, names⟩

/-- A register under a free name takes no other name away. -/
theorem keeps_insert {r : Registry} {name : String} (free : r.bindings[name]? = none) (qubits : Array Qubit)
    (b : Binding) : r.Keeps ⟨qubits, r.bindings.insert name b⟩ := by
  intro other bound found
  have differs : name ≠ other := by
    intro same
    rw [same, found] at free
    cases free
  rw [getElem?_insert, if_neg differs]
  exact found

/-! ### Changes -/

/-- What one call makes of a registry within the limit: it allocates a qubit, declares a register of
fresh qubits under a free name, or marks a qubit. -/
inductive Change (r : Registry) : Registry → Prop where
  | allocate : r.size < qubitLimit → Change r r.allocate.2
  | declare {name b count} : r.bindings[name]? = none → r.size + count ≤ qubitLimit →
      b.Spans r.size count → Change r ⟨addQubits count r.qubits, r.bindings.insert name b⟩
  | mark (id) : Change r (r.markMeasured id)

namespace Change

variable {r r' : Registry}

/-- The declaration of a scalar register is a change. -/
theorem declareScalar (h : r.Settled) {name : String} {id : QubitId}
    (hdeclare : r.declareScalar name = .ok (id, r')) : r.Change r' := by
  rcases declareScalar_eq_ok_iff.mp hdeclare with ⟨free, fits, _, rfl⟩
  have limited := h.limited
  exact .declare free (by omega) .scalar

/-- The declaration of an array register is a change. -/
theorem declareArray (h : r.Settled) {name : String} {count first : Nat}
    (hdeclare : r.declareArray name count = .ok (first, r')) : r.Change r' := by
  rcases declareArray_eq_ok_iff.mp hdeclare with ⟨free, fits, _, rfl⟩
  have limited := h.limited
  exact .declare free (by omega) .array

/-- No change takes a name away. -/
theorem keeps (change : r.Change r') : r.Keeps r' := by
  cases change with
  | allocate => exact .refl r
  | declare free => exact keeps_insert free _ _
  | mark id => exact .refl r

/-- Every change keeps a registry settled. A new register holds new qubits only, so no reference to
it meets an older one. -/
theorem settled (change : r.Change r') (h : r.Settled) : r'.Settled := by
  have limit : qubitLimit ≤ UInt32.size := Nat.le_of_lt qubitLimit_lt
  cases change with
  | allocate room =>
      have fits : r.size + 1 ≤ UInt32.size := Nat.le_trans room limit
      refine ⟨h.addQubits fits (fun _ _ bound => .inl bound), ?_, ?_⟩
      · rw [size_allocate]
        exact room
      · intro name name' index index' id one two
        exact h.apart one two
  | @declare name b count free room spans =>
      have fits : r.size + count ≤ UInt32.size := Nat.le_trans room limit
      have older : ∀ {other index id}, r.resolve other index = .ok id →
          ∀ {index'}, ¬ b.Names index' id := by
        intro other index id found index' names
        have := h.resolve_lt found
        have := spans.le_of_names fits names
        omega
      refine ⟨h.addQubits fits ?_, ?_, ?_⟩
      · intro other b' bound
        rw [getElem?_insert] at bound
        split at bound
        · cases bound
          exact .inr (spans.within fits)
        · exact .inl bound
      · simpa [size] using room
      · intro one two index index' id hone htwo
        rw [resolve_insert] at hone htwo
        by_cases first : name = one
        · by_cases second : name = two
          · exact first.symm.trans second
          · rw [if_pos first] at hone
            rw [if_neg second] at htwo
            exact absurd hone (older htwo)
        · by_cases second : name = two
          · rw [if_neg first] at hone
            rw [if_pos second] at htwo
            exact absurd htwo (older hone)
          · rw [if_neg first] at hone
            rw [if_neg second] at htwo
            exact h.apart hone htwo
  | mark id =>
      refine ⟨h.markMeasured id, by simpa using h.limited, ?_⟩
      intro name name' index index' id' one two
      exact h.apart one two

end Change

end Registry

end QasmDiagram
