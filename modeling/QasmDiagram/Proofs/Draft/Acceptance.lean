/-
Module: QasmDiagram.Proofs.Draft.Acceptance
Purpose: Which programs have a circuit, told without any state: an element is judged by itself and
  by the register declarations before it.
Trusted boundary: none
Main exports: registers, qubitTotal, Operand.Resolves, Element.Accepted, Registry.Holds,
  Draft.elements_eq_ok_iff, Program.circuit_eq_ok_iff
-/
import QasmDiagram.Proofs.Draft

namespace QasmDiagram

/-! ### Accepted programs -/

/-- The quantum register that an element declares. -/
def Element.register? : Element → Option Declaration
  | .item (.statement (.declaration d)) => if d.keyword.kind = .qreg then some d else none
  | _ => none

/-- The quantum registers that elements declare, in order. -/
def registers (body : List Element) : List Declaration :=
  body.filterMap Element.register?

/-- The number of qubits that registers ask for together. -/
def qubitTotal : List Declaration → Nat
  | [] => 0
  | d :: others => d.qubitCount?.getD 0 + qubitTotal others

theorem qubitTotal_append (declared others : List Declaration) :
    qubitTotal (declared ++ others) = qubitTotal declared + qubitTotal others := by
  induction declared with
  | nil => simp [qubitTotal]
  | cons d declared ih => simp [qubitTotal, ih, Nat.add_assoc]

/-- An operand names a declared register: without an index if the register has no size, else with
one index that has the value of a position below the size. -/
inductive Operand.Resolves (declared : List Declaration) : Operand → Prop where
  | whole {d} : d ∈ declared → d.size = none → Resolves declared (.indexed ⟨d.name, []⟩)
  | part {d size count e value i} : d ∈ declared → d.size = some size →
      d.qubitCount? = some count → e.evaluate = .ok value → value.asIndex? = some i → i < count →
      Resolves declared (.indexed ⟨d.name, [.expressions [e]]⟩)

/-- The elements that a circuit can be made of, behind those that come `earlier`. -/
inductive Element.Accepted (config : LowerConfig) (earlier : List Element) : Element → Prop where
  | version : earlier = [] → Accepted config earlier (.version "2.0")
  | inclusion (path) : Accepted config earlier (.item (.statement (.inclusion path)))
  | classical {d} : d.keyword.kind = .creg →
      Accepted config earlier (.item (.statement (.declaration d)))
  | register {d count} : d.keyword.kind = .qreg →
      (∀ d' ∈ registers earlier, d'.name ≠ d.name) → d.qubitCount? = some count →
      qubitTotal (registers earlier) + count ≤ 1048576 →
      Accepted config earlier (.item (.statement (.declaration d)))
  | rotation {call angle text operand} : call.gate = "rz" ∨ call.gate = "rx" →
      call.modifiers = [] → call.designator = none → call.arguments = some [angle] →
      angle.angleText config.format = .ok text → call.operands = [operand] →
      operand.Resolves (registers earlier) →
      Accepted config earlier (.item (.statement (.gateCall call)))
  | negation {call first second} : call.gate = "cx" → call.modifiers = [] →
      call.designator = none → call.arguments = none ∨ call.arguments = some [] →
      call.operands = [first, second] → first.Resolves (registers earlier) →
      second.Resolves (registers earlier) →
      Accepted config earlier (.item (.statement (.gateCall call)))
  | measurement {a operand} : config.measurement = true → a.op.kind = .equals →
      a.value = .measure operand → operand.Resolves (registers earlier) →
      Accepted config earlier (.item (.statement (.assignment a)))

/-! ### What a registry holds of the declarations so far -/

/-- A registry holds the declared registers and no others. -/
structure Registry.Holds (r : Registry) (declared : List Declaration) : Prop where
  size_eq : r.size = qubitTotal declared
  fits : r.size ≤ qubitLimit
  known : ∀ (name : String) (b : Binding), r.bindings[name]? = some b →
    ∃ d ∈ declared, d.name = name
  bound : ∀ d ∈ declared, ∃ first count, d.qubitCount? = some count ∧
    r.bindings[d.name]? = some (d.binding first count)

namespace Registry.Holds

variable {r : Registry} {declared : List Declaration}

theorem empty : Registry.empty.Holds [] where
  size_eq := rfl
  fits := by decide
  known := by simp [Registry.empty]
  bound := by simp

/-- A name is free exactly if no register has been declared under it. -/
theorem free_iff (h : r.Holds declared) {name : String} :
    r.bindings[name]? = none ↔ ∀ d ∈ declared, d.name ≠ name := by
  constructor
  · rintro free d hd rfl
    obtain ⟨first, count, _, hbound⟩ := h.bound d hd
    rw [free] at hbound
    simp at hbound
  · intro fresh
    cases hb : r.bindings[name]? with
    | none => rfl
    | some b =>
        obtain ⟨d, hd, hname⟩ := h.known name b hb
        exact absurd hname (fresh d hd)

/-- Marking a qubit changes nothing of what is declared. -/
theorem markMeasured (h : r.Holds declared) (id : QubitId) :
    (r.markMeasured id).Holds declared where
  size_eq := by simpa using h.size_eq
  fits := by simpa using h.fits
  known := by simpa using h.known
  bound := by simpa using h.bound

/-- One more register is held with the others. -/
theorem declare (h : r.Holds declared) {d : Declaration} {count : Nat}
    (hcount : d.qubitCount? = some count) (free : r.bindings[d.name]? = none)
    (room : count ≤ qubitLimit - r.size) :
    Registry.Holds ⟨addQubits count r.qubits, r.bindings.insert d.name (d.binding r.size count)⟩
      (declared ++ [d]) where
  size_eq := by
    have := h.size_eq
    simp only [size, size_addQubits, qubitTotal_append] at this ⊢
    simp [this, hcount, qubitTotal]
  fits := by
    have := h.fits
    simp only [size, size_addQubits] at this room ⊢
    omega
  known := by
    intro name b hb
    rw [getElem?_insert] at hb
    split at hb
    · rename_i hname
      exact ⟨d, by simp, hname⟩
    · obtain ⟨d', hd', hname⟩ := h.known name b hb
      exact ⟨d', List.mem_append_left _ hd', hname⟩
  bound := by
    intro d' hd'
    rcases List.mem_append.mp hd' with earlier | new
    · obtain ⟨first, count', hcount', hbound⟩ := h.bound d' earlier
      refine ⟨first, count', hcount', ?_⟩
      have other : d.name ≠ d'.name := (h.free_iff.mp free d' earlier).symm
      rw [getElem?_insert, if_neg other, hbound]
    · rw [List.mem_singleton] at new
      subst new
      exact ⟨r.size, count, hcount, by rw [getElem?_insert, if_pos rfl]⟩

/-- An operand stands for a qubit exactly if it resolves against the declarations. -/
theorem resolveOperand_iff (h : r.Holds declared) {operand : Operand} :
    (∃ id, r.resolveOperand operand = .ok id) ↔ operand.Resolves declared := by
  constructor
  · rintro ⟨id, hid⟩
    obtain ⟨name, ⟨rfl, found⟩ | ⟨e, value, i, rfl, hvalue, hi, found⟩⟩ :=
      resolveOperand_eq_ok_iff.mp hid
    · rcases resolve_eq_ok_iff.mp found with ⟨_, hb⟩ | ⟨_, _, _, hnone, _⟩
      · obtain ⟨d, hd, rfl⟩ := h.known name _ hb
        obtain ⟨first, count, _, hbound⟩ := h.bound d hd
        rw [hb, Option.some.injEq] at hbound
        refine .whole hd ?_
        cases hsize : d.size with
        | none => rfl
        | some size => simp [Declaration.binding, hsize] at hbound
      · simp at hnone
    · rcases resolve_eq_ok_iff.mp found with ⟨hnone, _⟩ | ⟨j, first, size, hj, hb, inside, _⟩
      · simp at hnone
      · cases hj
        obtain ⟨d, hd, rfl⟩ := h.known name _ hb
        obtain ⟨first', count, hcount, hbound⟩ := h.bound d hd
        rw [hb, Option.some.injEq] at hbound
        cases hsize : d.size with
        | none => simp [Declaration.binding, hsize] at hbound
        | some written =>
            simp only [Declaration.binding, hsize, Binding.array.injEq] at hbound
            exact .part hd hsize hcount hvalue hi (hbound.2 ▸ inside)
  · rintro (⟨hd, hsize⟩ | ⟨hd, hsize, hcount, hvalue, hi, inside⟩)
    · rename_i d
      obtain ⟨first, count, _, hbound⟩ := h.bound d hd
      rw [Declaration.binding, hsize] at hbound
      exact ⟨idAt first, resolveOperand_eq_ok_iff.mpr
        ⟨d.name, .inl ⟨rfl, resolve_eq_ok_iff.mpr (.inl ⟨rfl, hbound⟩)⟩⟩⟩
    · rename_i d size count e value i
      obtain ⟨first, count', hcount', hbound⟩ := h.bound d hd
      rw [hcount, Option.some.injEq] at hcount'
      subst hcount'
      rw [Declaration.binding, hsize] at hbound
      exact ⟨idAt (first + i), resolveOperand_eq_ok_iff.mpr ⟨d.name, .inr ⟨e, value, i, rfl, hvalue,
        hi, resolve_eq_ok_iff.mpr (.inr ⟨i, first, count, rfl, hbound, inside, rfl⟩)⟩⟩⟩

end Registry.Holds

/-! ### One element -/

@[simp] theorem registers_nil : registers [] = [] := rfl

@[simp] theorem registers_append (before after : List Element) :
    registers (before ++ after) = registers before ++ registers after :=
  List.filterMap_append

@[simp] theorem registers_singleton (e : Element) : registers [e] = e.register?.toList := by
  cases h : e.register? <;> simp [registers, h]

namespace Draft

variable {config : LowerConfig} {d d' : Draft} {earlier : List Element}

/-- The registry keeps track of the declarations that are carried out. -/
theorem element_holds {position : Nat} {e : Element} (h : d.registry.Holds (registers earlier))
    (he : d.element config position e = .ok d') :
    d'.registry.Holds (registers (earlier ++ [e])) := by
  rw [registers_append, registers_singleton]
  unfold element at he
  split at he
  · split at he
    · simp at he
    · split at he
      · cases he
        simpa [Element.register?] using h
      · simp at he
  · rename_i s
    cases s with
    | inclusion path =>
        cases he
        simpa [Element.register?] using h
    | declaration declaration =>
        rcases declare_eq_ok_iff.mp he with ⟨hkind, rfl⟩ | ⟨hkind, count, hcount, free, room, rfl⟩
        · simpa [Element.register?, hkind] using h
        · simpa [Element.register?, hkind] using h.declare hcount free room
    | gateCall call =>
        rcases Except.bind_eq_ok_iff.mp he with ⟨op, _, hd'⟩
        cases hd'
        simpa [Element.register?] using h
    | assignment a =>
        rcases Except.bind_eq_ok_iff.mp he with ⟨qubit, _, hd'⟩
        cases hd'
        simpa [Element.register?] using h.markMeasured qubit
    | kept rule text => simp [statement] at he
  · simp at he
  · simp at he

/-- A declaration is carried out exactly if it is accepted. -/
theorem declare_iff {declaration : Declaration} (h : d.registry.Holds (registers earlier)) :
    (∃ d', d.declare declaration = .ok d') ↔
      Element.Accepted config earlier (.item (.statement (.declaration declaration))) := by
  have limit : qubitLimit = 1048576 := rfl
  have size := h.size_eq
  have fits := h.fits
  constructor
  · rintro ⟨d', hd'⟩
    rcases declare_eq_ok_iff.mp hd' with ⟨hkind, _⟩ | ⟨hkind, count, hcount, free, room, _⟩
    · exact .classical hkind
    · exact .register hkind (h.free_iff.mp free) hcount (by omega)
  · intro accepted
    cases accepted with
    | classical hkind => exact ⟨d, declare_eq_ok_iff.mpr (.inl ⟨hkind, rfl⟩)⟩
    | register hkind fresh hcount room =>
        exact ⟨_, declare_eq_ok_iff.mpr
          (.inr ⟨hkind, _, hcount, h.free_iff.mpr fresh, by omega, rfl⟩)⟩

/-- A gate call is carried out exactly if it is accepted. -/
theorem gateCall_iff {call : GateCall} (h : d.registry.Holds (registers earlier)) :
    (∃ d', d.gateCall config call = .ok d') ↔
      Element.Accepted config earlier (.item (.statement (.gateCall call))) := by
  constructor
  · rintro ⟨d', hd'⟩
    rcases Except.bind_eq_ok_iff.mp hd' with ⟨op, hop, _⟩
    obtain ⟨plain, undesignated, ⟨kind, hkind, hrotation⟩ | ⟨hgate, hnegation⟩⟩ :=
      operationOf_eq_ok_iff.mp hop
    · obtain ⟨angle, operand, target, text, harguments, hoperands, htarget, htext, _⟩ :=
        rotation_eq_ok_iff.mp hrotation
      have hgate : call.gate = "rz" ∨ call.gate = "rx" :=
        hkind.imp (fun rz => rz.1) (fun rx => rx.1)
      exact .rotation hgate plain undesignated harguments htext hoperands
        (h.resolveOperand_iff.mp ⟨target, htarget⟩)
    · obtain ⟨first, second, control, target, harguments, hoperands, hcontrol, htarget, _⟩ :=
        controlledX_eq_ok_iff.mp hnegation
      exact .negation hgate plain undesignated harguments hoperands
        (h.resolveOperand_iff.mp ⟨control, hcontrol⟩) (h.resolveOperand_iff.mp ⟨target, htarget⟩)
  · intro accepted
    suffices placed : ∃ op, operationOf config d.registry call = .ok op by
      obtain ⟨op, hop⟩ := placed
      exact ⟨_, Except.bind_eq_ok_iff.mpr ⟨op, hop, rfl⟩⟩
    cases accepted with
    | rotation hgate plain undesignated harguments htext hoperands resolves =>
        obtain ⟨target, htarget⟩ := h.resolveOperand_iff.mpr resolves
        have rotates : ∀ kind, rotation config d.registry kind call = .ok (.rotation kind target _) :=
          fun kind => rotation_eq_ok_iff.mpr
            ⟨_, _, target, _, harguments, hoperands, htarget, htext, rfl⟩
        rcases hgate with hrz | hrx
        · exact ⟨_, operationOf_eq_ok_iff.mpr
            ⟨plain, undesignated, .inl ⟨.rz, .inl ⟨hrz, rfl⟩, rotates .rz⟩⟩⟩
        · exact ⟨_, operationOf_eq_ok_iff.mpr
            ⟨plain, undesignated, .inl ⟨.rx, .inr ⟨hrx, rfl⟩, rotates .rx⟩⟩⟩
    | negation hgate plain undesignated harguments hoperands hfirst hsecond =>
        obtain ⟨control, hcontrol⟩ := h.resolveOperand_iff.mpr hfirst
        obtain ⟨target, htarget⟩ := h.resolveOperand_iff.mpr hsecond
        exact ⟨_, operationOf_eq_ok_iff.mpr ⟨plain, undesignated, .inr ⟨hgate,
          controlledX_eq_ok_iff.mpr
            ⟨_, _, control, target, harguments, hoperands, hcontrol, htarget, rfl⟩⟩⟩⟩

/-- An assignment is carried out exactly if it is accepted. -/
theorem assign_iff {a : Assignment} (h : d.registry.Holds (registers earlier)) :
    (∃ d', d.assign config a = .ok d') ↔
      Element.Accepted config earlier (.item (.statement (.assignment a))) := by
  constructor
  · rintro ⟨d', hd'⟩
    rcases Except.bind_eq_ok_iff.mp hd' with ⟨qubit, hqubit, _⟩
    rcases measuredQubit_eq_ok_iff.mp hqubit with ⟨enabled, hop, operand, hvalue, hoperand⟩
    exact .measurement enabled hop hvalue (h.resolveOperand_iff.mp ⟨qubit, hoperand⟩)
  · intro accepted
    cases accepted with
    | measurement enabled hop hvalue resolves =>
        obtain ⟨qubit, hoperand⟩ := h.resolveOperand_iff.mpr resolves
        have hqubit := measuredQubit_eq_ok_iff.mpr ⟨enabled, hop, _, hvalue, hoperand⟩
        exact ⟨_, Except.bind_eq_ok_iff.mpr ⟨qubit, hqubit, rfl⟩⟩

/-- An element is carried out exactly if it is accepted. -/
theorem element_iff {e : Element} (h : d.registry.Holds (registers earlier)) :
    (∃ d', d.element config earlier.length e = .ok d') ↔ e.Accepted config earlier := by
  cases e with
  | version specifier =>
      constructor
      · rintro ⟨d', hd'⟩
        rw [element] at hd'
        split at hd'
        · simp at hd'
        · rename_i first
          split at hd'
          · rename_i supported
            subst supported
            exact .version (List.length_eq_zero_iff.mp (not_not.mp first))
          · simp at hd'
      · rintro ⟨rfl⟩
        exact ⟨d, rfl⟩
  | item i =>
      cases i with
      | statement s =>
          cases s with
          | inclusion path => exact iff_of_true ⟨d, rfl⟩ (.inclusion path)
          | declaration declaration => exact declare_iff h
          | gateCall call => exact gateCall_iff h
          | assignment a => exact assign_iff h
          | kept rule text =>
              apply iff_of_false (by simp [element, statement])
              intro accepted
              cases accepted
      | scope body =>
          apply iff_of_false (by simp [element])
          intro accepted
          cases accepted
  | endOfInput =>
      apply iff_of_false (by simp [element])
      intro accepted
      cases accepted

/-! ### Whole programs -/

/-- Elements are carried out exactly if each is accepted behind those before it. -/
theorem elements_eq_ok_iff {body : List Element} (h : d.registry.Holds (registers earlier)) :
    (∃ d', d.elements config earlier.length body = .ok d') ↔
      ∀ before e after, body = before ++ e :: after → e.Accepted config (earlier ++ before) := by
  induction body generalizing d earlier with
  | nil => simp [elements]
  | cons e body ih =>
      rw [elements]
      constructor
      · rintro ⟨d', hd'⟩
        split at hd'
        · simp at hd'
        · rename_i next hnext
          have later := (ih (element_holds h hnext)).mp
            ⟨d', by simpa using hd'⟩
          intro before e' after hbody
          cases before with
          | nil =>
              simp only [List.nil_append, List.cons.injEq] at hbody
              obtain ⟨rfl, rfl⟩ := hbody
              simpa using (element_iff h).mp ⟨next, hnext⟩
          | cons first before =>
              simp only [List.cons_append, List.cons.injEq] at hbody
              obtain ⟨rfl, hbody⟩ := hbody
              simpa using later before e' after hbody
      · intro accepted
        obtain ⟨next, hnext⟩ := (element_iff h).mpr (by simpa using accepted [] e body rfl)
        rw [hnext]
        have later := (ih (element_holds h hnext)).mpr (by
          intro before e' after hbody
          simpa using accepted (e :: before) e' after (by rw [hbody]; rfl))
        simpa using later

end Draft

/-- A program has a circuit exactly if it is a body with the end of input behind it, and each element
of the body is accepted behind those before it. -/
theorem Program.circuit_eq_ok_iff (config : LowerConfig) (program : Program) :
    (∃ circuit, program.circuit config = .ok circuit) ↔
      ∃ body, program.children = body ++ [.endOfInput] ∧
        ∀ earlier e later, body = earlier ++ e :: later → e.Accepted config earlier := by
  have run : ∀ body, (∃ draft, Draft.empty.elements config 0 body = .ok draft) ↔
      ∀ earlier e later, body = earlier ++ e :: later → e.Accepted config earlier := by
    intro body
    show (∃ draft, Draft.empty.elements config ([] : List Element).length body = .ok draft) ↔ _
    exact Draft.elements_eq_ok_iff Registry.Holds.empty
  constructor
  · rintro ⟨circuit, h⟩
    unfold Program.circuit at h
    split at h
    · rename_i hlast
      split at h
      · rename_i draft hdraft
        rcases List.getLast?_eq_some_iff.mp hlast with ⟨body, hbody⟩
        rw [hbody, List.dropLast_concat] at hdraft
        exact ⟨body, hbody, (run body).mp ⟨draft, hdraft⟩⟩
      · simp at h
    · simp at h
    · simp at h
  · rintro ⟨body, hchildren, accepted⟩
    obtain ⟨draft, hdraft⟩ := (run body).mpr accepted
    obtain ⟨circuit, hfinish⟩ := (Draft.elements_sound Draft.sound_empty hdraft).finish
    refine ⟨circuit, ?_⟩
    simp [Program.circuit, hchildren, hdraft, hfinish]

end QasmDiagram
