/-
Module: QasmDiagram.Proofs.Draft.References
Purpose: References to qubits over whole sequences of calls, refused ones among them: qubits are
  numbered by position within the limit, different references name different qubits, a declared
  array has consecutive ones, and what once resolves goes on resolving to the same qubit.
Trusted boundary: none
Main exports: Draft.registryAfter, Draft.attempt_change, Draft.afterCalls_settled,
  Draft.references_last
-/
import QasmDiagram.Proofs.Draft
import QasmDiagram.Proofs.Registry.Change

namespace QasmDiagram

namespace Draft

variable {config : LowerConfig} {d : Draft}

/-- The registry after calls on an empty draft. -/
def registryAfter (config : LowerConfig) (calls : List Call) : Registry :=
  (empty.afterCalls config calls).registry

theorem afterCalls_append (config : LowerConfig) (d : Draft) (before after : List Call) :
    d.afterCalls config (before ++ after) = (d.afterCalls config before).afterCalls config after :=
  List.foldl_append

theorem allocatesWithin_append {before after : List Call} :
    AllocatesWithin config d (before ++ after) ↔
      AllocatesWithin config d before ∧
        AllocatesWithin config (d.afterCalls config before) after := by
  induction before generalizing d with
  | nil => simp [AllocatesWithin, afterCalls]
  | cons call before ih => simp only [List.cons_append, AllocatesWithin, ih, and_assoc]; rfl

/-! ### One call -/

/-- A call that is carried out changes the registry as one of its own calls does, or not at all. -/
theorem perform_change (h : d.registry.Settled) {call : Call}
    (allowed : call = .allocate → d.registry.size < qubitLimit) {answer : Answer} {d' : Draft}
    (hperform : d.perform config call = .ok (answer, d')) :
    d'.registry = d.registry ∨ d.registry.Change d'.registry := by
  cases call with
  | allocate =>
      cases hperform
      exact .inr (.allocate (allowed rfl))
  | declareScalar name =>
      rcases Except.bind_eq_ok_iff.mp hperform with ⟨⟨id, r'⟩, hdeclare, hd'⟩
      cases hd'
      exact .inr (.declareScalar h hdeclare)
  | declareArray name count =>
      rcases Except.bind_eq_ok_iff.mp hperform with ⟨⟨first, r'⟩, hdeclare, hd'⟩
      cases hd'
      exact .inr (.declareArray h hdeclare)
  | markMeasured id =>
      cases hperform
      exact .inr (.mark id)
  | gateCall call =>
      rcases Except.bind_eq_ok_iff.mp hperform with ⟨next, hcall, hd'⟩
      cases hd'
      rcases Except.bind_eq_ok_iff.mp hcall with ⟨op, _, hnext⟩
      cases hnext
      exact .inl rfl
  | assign a =>
      rcases Except.bind_eq_ok_iff.mp hperform with ⟨next, hassign, hd'⟩
      cases hd'
      rcases Except.bind_eq_ok_iff.mp hassign with ⟨qubit, _, hnext⟩
      cases hnext
      exact .inr (.mark qubit)

/-- So does any call, since a refused one changes nothing. -/
theorem attempt_change (config : LowerConfig) (h : d.registry.Settled) {call : Call}
    (allowed : call = .allocate → d.registry.size < qubitLimit) :
    (d.attempt config call).2.registry = d.registry ∨
      d.registry.Change (d.attempt config call).2.registry := by
  unfold attempt
  split
  · rename_i hperform
    exact perform_change h allowed hperform
  · exact .inl rfl

/-- A call keeps the registry settled and every name bound. -/
theorem attempt_settled (config : LowerConfig) (h : d.registry.Settled) {call : Call}
    (allowed : call = .allocate → d.registry.size < qubitLimit) :
    (d.attempt config call).2.registry.Settled ∧
      d.registry.Keeps (d.attempt config call).2.registry := by
  rcases attempt_change config h allowed with same | change
  · rw [same]
    exact ⟨h, .refl _⟩
  · exact ⟨change.settled h, change.keeps⟩

/-! ### Sequences of calls -/

/-- A sequence of calls keeps the registry settled and every name bound. -/
theorem afterCalls_settled {calls : List Call} (h : d.registry.Settled)
    (within : AllocatesWithin config d calls) :
    (d.afterCalls config calls).registry.Settled ∧
      d.registry.Keeps (d.afterCalls config calls).registry := by
  induction calls generalizing d with
  | nil => exact ⟨h, .refl _⟩
  | cons call calls ih =>
      obtain ⟨settled, keeps⟩ := attempt_settled config h within.1
      obtain ⟨settledAfter, keepsAfter⟩ := ih settled within.2
      exact ⟨settledAfter, keeps.trans keepsAfter⟩

/-- The registry after calls is settled, and every name that was bound after the first of them still
stands for what it stood for. -/
theorem registryAfter_settled {before after : List Call}
    (within : AllocatesWithin config empty (before ++ after)) :
    (registryAfter config (before ++ after)).Settled ∧
      (registryAfter config before).Keeps (registryAfter config (before ++ after)) := by
  obtain ⟨first, second⟩ := allocatesWithin_append.mp within
  have settled := (afterCalls_settled Registry.settled_empty first).1
  rw [registryAfter, afterCalls_append]
  exact afterCalls_settled settled second

/-- A declaration of an array that is carried out answers the range to which it binds the name. -/
theorem bound_of_declareArray {name : String} {count : Nat} {answer : Answer}
    (answered : (d.attempt config (.declareArray name count)).1 = .ok answer) :
    ∃ first, answer = .range first count ∧
      (d.attempt config (.declareArray name count)).2.registry.bindings[name]? =
        some (.array first count) := by
  unfold attempt at answered ⊢
  split at answered
  · rename_i answer' next hperform
    rcases Except.bind_eq_ok_iff.mp hperform with ⟨⟨first, r'⟩, hdeclare, hnext⟩
    cases hnext
    cases answered
    rcases Registry.declareArray_eq_ok_iff.mp hdeclare with ⟨_, _, rfl, rfl⟩
    exact ⟨_, rfl, Std.HashMap.getElem?_insert_self⟩
  · cases answered

end Draft

/-- The references that resolve in a settled registry where a name is bound to an array. -/
theorem Registry.Settled.resolve_array_iff {r : Registry} (h : r.Settled) {name : String}
    {first count : Nat} (bound : r.bindings[name]? = some (.array first count))
    {index : Option Nat} {id : QubitId} :
    r.resolve name index = .ok id ↔ ∃ i < count, index = some i ∧ id.index.toNat = first + i := by
  have room : first + count ≤ r.size := h.within name _ bound
  have bounded := h.bounded
  rw [resolve_iff_names]
  constructor
  · rintro ⟨b, hb, names⟩
    obtain rfl : .array first count = b := Option.some.inj (bound.symm.trans hb)
    cases names with
    | @part _ _ i inside => exact ⟨i, inside, rfl, idAt_toNat (by omega)⟩
  · rintro ⟨i, inside, rfl, number⟩
    have same : id = idAt (first + i) := by
      have written := idAt_toNat (k := first + i) (by omega)
      cases id
      rw [← written] at number
      exact congrArg QubitId.mk (UInt32.toNat_inj.mp number)
    exact ⟨_, bound, same ▸ .part inside⟩

namespace Draft

/-- Whatever calls are made on an empty draft, with single allocations only within the limit, and
whether they are carried out or refused:

* the qubits are at most `2 ^ 20`, the `k`-th has the number `k`, and every position up to their
  count is written as a number without loss;
* an array that was declared stands for consecutive qubits under the indices below its size, and for
  none under another index or without one;
* a reference that resolves names a qubit that exists, and another one names another;
* a reference that resolved before the last of the calls resolves to the same qubit after them. -/
theorem references_last (config : LowerConfig) (calls : List Call)
    (within : AllocatesWithin config empty calls) :
    ((registryAfter config calls).size ≤ Nat.pow 2 20 ∧
      (∀ (k : Nat) (q : Qubit), (registryAfter config calls).qubits[k]? = some q →
        q.id.index.toNat = k) ∧
      ∀ k ≤ (registryAfter config calls).size, (Registry.idAt k).index.toNat = k) ∧
    (∀ (before after : List Call) (name : String) (count : Nat) (answer : Answer),
      calls = before ++ .declareArray name count :: after →
      ((empty.afterCalls config before).attempt config (.declareArray name count)).1 = .ok answer →
      ∃ first, answer = .range first count ∧ ∀ (index : Option Nat) (id : QubitId),
        (registryAfter config calls).resolve name index = .ok id ↔
          ∃ i < count, index = some i ∧ id.index.toNat = first + i) ∧
    (∀ (name : String) (index : Option Nat) (id : QubitId),
      (registryAfter config calls).resolve name index = .ok id →
      id.index.toNat < (registryAfter config calls).size ∧
        ∀ (name' : String) (index' : Option Nat) (id' : QubitId),
          (registryAfter config calls).resolve name' index' = .ok id' →
          (name, index) ≠ (name', index') → id ≠ id') ∧
    ∀ (before after : List Call) (name : String) (index : Option Nat) (id : QubitId),
      calls = before ++ after → (registryAfter config before).resolve name index = .ok id →
      (registryAfter config calls).resolve name index = .ok id := by
  have settled := (afterCalls_settled Registry.settled_empty within).1
  have lossless : ∀ k ≤ (registryAfter config calls).size, (Registry.idAt k).index.toNat = k := by
    intro k hk
    exact Registry.idAt_toNat (Nat.lt_of_le_of_lt hk settled.size_lt)
  refine ⟨⟨settled.limited, ?_, lossless⟩, ?_, ?_, ?_⟩
  · intro k q hq
    have inside : k < (registryAfter config calls).size := (Array.getElem?_eq_some_iff.mp hq).1
    rw [settled.numbered k q hq]
    exact lossless k (Nat.le_of_lt inside)
  · rintro before after name count answer rfl answered
    obtain ⟨first, hanswer, bound⟩ := bound_of_declareArray answered
    refine ⟨first, hanswer, fun index id => settled.resolve_array_iff ?_⟩
    have regrouped : before ++ .declareArray name count :: after =
        (before ++ [.declareArray name count]) ++ after := by simp
    rw [regrouped] at within ⊢
    apply (registryAfter_settled within).2
    rw [registryAfter, afterCalls_append]
    exact bound
  · intro name index id found
    refine ⟨settled.toWellFormed.resolve_lt found, ?_⟩
    rintro name' index' id' found' differs rfl
    exact differs (settled.reference_unique found found')
  · rintro before after name index id rfl found
    exact (registryAfter_settled within).2.resolve found

/-- A qubit, an array of two behind it, a refused second array of the name and a mark. -/
theorem references_last_array :
    AllocatesWithin ⟨.numeric, true⟩ empty [.allocate, .declareArray "q" 2, .declareArray "q" 3,
      .markMeasured (Registry.idAt 1)] ∧
    ∃ first, Answer.range 1 2 = .range first 2 ∧ ∀ (index : Option Nat) (id : QubitId),
      (registryAfter ⟨.numeric, true⟩ [.allocate, .declareArray "q" 2, .declareArray "q" 3,
        .markMeasured (Registry.idAt 1)]).resolve "q" index = .ok id ↔
        ∃ i < 2, index = some i ∧ id.index.toNat = first + i := by
  have within : AllocatesWithin ⟨.numeric, true⟩ empty [.allocate, .declareArray "q" 2,
      .declareArray "q" 3, .markMeasured (Registry.idAt 1)] :=
    ⟨fun _ => by decide, nofun, nofun, nofun, trivial⟩
  have free : (empty.afterCalls ⟨.numeric, true⟩ [.allocate]).registry.bindings["q"]? = none :=
    Std.HashMap.getElem?_empty
  have declared := Registry.declareArray_eq_ok_iff.mpr
    ⟨free, (by decide : 2 ≤ qubitLimit - 1), rfl, rfl⟩
  have answered : ((empty.afterCalls ⟨.numeric, true⟩ [.allocate]).attempt ⟨.numeric, true⟩
      (.declareArray "q" 2)).1 = .ok (.range 1 2) := by
    rw [attempt, perform, declared]
    rfl
  exact ⟨within, (references_last _ _ within).2.1 [.allocate] _ "q" 2 (.range 1 2) rfl answered⟩

end Draft

end QasmDiagram
