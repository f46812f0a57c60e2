/-
Module: QasmDiagram.Proofs.Draft.WholeNumbers
Purpose: Decimal integers as indices and sizes. However long a literal is, it stands for the qubit of
  its own number or for none, and declares as many qubits as it says or none.
Trusted boundary: none
Main exports: Expression.decimal, Expression.evaluate_decimal, Registry.resolveOperand_decimal,
  Draft.declare_decimal, Draft.whole_numbers_exact
-/
import QasmDiagram.Proofs.Binary64.Literal
import QasmDiagram.Proofs.Draft.References
import QasmDiagram.Proofs.Expression.Multiplicative

namespace QasmDiagram

/-- The number that the digits of a literal make; underscores do not count. -/
def wholeNumber (text : String) : Nat :=
  Nat.ofDigitChars 10 (text.toList.filter (· != '_')) 0

namespace Expression

/-- A decimal integer as an expression. -/
def decimal (text : String) : Expression :=
  .literal ⟨.decimalInteger, text⟩

/-- A decimal integer has a value. As an index it is its own number, or that is too large to be
exact and so is every index that the value may be rounded to. -/
theorem evaluate_decimal {text : String} (literal : Rule.digits.Matches text.toList) :
    ∃ value, (decimal text).evaluate = .ok value ∧
      (value.asIndex? = some (wholeNumber text) ∨
        2 ^ 53 ≤ wholeNumber text ∧ ∀ i, value.asIndex? = some i → 2 ^ 53 ≤ i) := by
  obtain ⟨c, rest, digits, all⟩ := Rule.matches_digits literal
  have value : decimalValue (c :: rest) = wholeNumber text := by
    rw [wholeNumber, digits]
    rfl
  have shallow : (decimal text).checkDepth = .ok () :=
    checkDepth_eq_ok_iff.mpr (by simp [decimal, height, expressionDepthLimit])
  have read : (decimal text).evaluate = .ok (Binary64.ofDecimal false (wholeNumber text) 0) := by
    rw [evaluate, shallow]
    change literalValue text = _
    rw [literalValue, digits, Binary64.ofText?_digits (by simp) all, value]
  refine ⟨_, read, ?_⟩
  by_cases small : wholeNumber text < 2 ^ 53
  · left
    rw [Binary64.asIndex?, Binary64.ofDecimal_of_lt small, Binary64.natural?_ofRatio_one small]
    exact Option.filter_some_pos (decide_eq_true (Nat.le_of_lt small))
  · refine .inr ⟨Nat.le_of_not_lt small, fun i index => ?_⟩
    have natural := (Option.filter_eq_some_iff.mp index).1
    rw [Binary64.ofDecimal_whole] at natural
    split at natural
    · cases natural
    · exact Binary64.le_of_natural?_ofRatio_one (Nat.le_of_not_lt small) natural

end Expression

namespace Registry

variable {r : Registry} {name : String}

/-- An index into an array is resolved if it is below the size. -/
theorem resolve_array {first size : Nat} (bound : r.bindings[name]? = some (.array first size))
    (i : Nat) : r.resolve name (some i) =
      if i < size then .ok (idAt (first + i))
      else .error (.invalidIndex name (.outOfBounds i size)) := by
  simp only [resolve, bound]

/-- A register of a free name is declared if its qubits fit. -/
theorem declareArray_of_free (free : r.bindings[name]? = none) (count : Nat) :
    r.declareArray name count =
      if qubitLimit - r.size < count then .error (.invalidSize (.overLimit name count))
      else .ok (r.size, ⟨addQubits count r.qubits, r.bindings.insert name (.array r.size count)⟩) := by
  rw [declareArray, checkFresh, contains_eq_false_iff.mpr free]
  simp only [Bool.false_eq_true, if_false]
  split <;> rfl

/-- A decimal integer as an index: the qubit of that number where it is below the size, else an
index error. -/
theorem resolveOperand_decimal {first size : Nat}
    (bound : r.bindings[name]? = some (.array first size)) (exact : size ≤ 2 ^ 53) {text : String}
    (literal : Rule.digits.Matches text.toList) :
    (wholeNumber text < size → r.resolveOperand (.indexed ⟨name, [.expressions [.decimal text]]⟩) =
      .ok (idAt (first + wholeNumber text))) ∧
    (size ≤ wholeNumber text → ∃ fault,
      r.resolveOperand (.indexed ⟨name, [.expressions [.decimal text]]⟩) =
        .error (.invalidIndex name fault)) := by
  obtain ⟨value, evaluated, index⟩ := Expression.evaluate_decimal literal
  have resolved : r.resolveOperand (.indexed ⟨name, [.expressions [.decimal text]]⟩) =
      value.asIndex?.elim
        (.error (.invalidIndex name (.notNatural (Expression.decimal text).render)))
        fun i => r.resolve name (some i) := by
    simp only [resolveOperand, evaluated, Except.ok_bind]
    cases value.asIndex? <;> rfl
  rw [resolved]
  rcases index with same | ⟨large, others⟩
  · simp only [same, Option.elim_some, resolve_array bound]
    exact ⟨fun inside => if_pos inside, fun outside => ⟨_, if_neg (Nat.not_lt.mpr outside)⟩⟩
  · refine ⟨fun inside => absurd inside (by omega), fun _ => ?_⟩
    cases index : value.asIndex? with
    | none => exact ⟨_, rfl⟩
    | some i =>
        have outside : ¬ i < size := by
          have := others i index
          omega
        exact ⟨_, (resolve_array bound i).trans (if_neg outside)⟩

end Registry

namespace Draft

variable {d : Draft} {name : String}

/-- A decimal integer as a size: as many fresh qubits where they fit, else a size error. -/
theorem declare_decimal (free : d.registry.bindings[name]? = none)
    (limited : d.registry.size ≤ qubitLimit) {text : String}
    (literal : Rule.digits.Matches text.toList) :
    let declaration : Declaration := ⟨⟨.qreg, "qreg"⟩, name, some (.decimal text)⟩
    (wholeNumber text + d.registry.size ≤ qubitLimit → d.declare declaration =
      .ok ⟨⟨Registry.addQubits (wholeNumber text) d.registry.qubits,
        d.registry.bindings.insert name (.array d.registry.size (wholeNumber text))⟩,
        d.operations⟩) ∧
    (qubitLimit < wholeNumber text + d.registry.size → ∃ fault,
      d.declare declaration = .error (.invalidSize fault)) := by
  intro declaration
  obtain ⟨value, evaluated, index⟩ := Expression.evaluate_decimal literal
  have declared : d.declare declaration =
      value.asIndex?.elim (.error (.invalidSize (.notNatural declaration.render))) fun count =>
        (d.registry.declareArray name count).map fun made => { d with registry := made.2 } := by
    simp only [declare, declaration, evaluated, Except.ok_bind]
    cases value.asIndex? with
    | none => rfl
    | some count =>
        dsimp only [Option.elim_some]
        cases d.registry.declareArray name count <;> rfl
  rw [declared]
  have refused : ∀ count, qubitLimit - d.registry.size < count →
      (d.registry.declareArray name count).map (fun made => { d with registry := made.2 }) =
        .error (.invalidSize (.overLimit name count)) := by
    intro count tooMany
    rw [Registry.declareArray_of_free free, if_pos tooMany]
    rfl
  rcases index with same | ⟨large, others⟩
  · simp only [same, Option.elim_some]
    refine ⟨fun fits => ?_, fun tooMany => ⟨_, refused _ (by omega)⟩⟩
    rw [Registry.declareArray_of_free free, if_neg (by omega)]
    rfl
  · have limit : qubitLimit < 2 ^ 53 := by decide
    refine ⟨fun fits => by omega, fun _ => ?_⟩
    cases index : value.asIndex? with
    | none => exact ⟨_, rfl⟩
    | some count =>
        have := others count index
        exact ⟨_, refused count (by omega)⟩

/-- Whatever calls are made on an empty draft, with single allocations only within the limit, and
whatever decimal integer is written:

* as an index into a declared array, it stands for the qubit at its own number, or it is refused as
  out of range where the array ends before;
* as the size of a register of an unused name, it declares exactly as many fresh qubits if they fit
  beside the others into `2 ^ 20`, and nothing else is changed; or it is refused. -/
theorem whole_numbers_exact (config : LowerConfig) (calls : List Call)
    (within : AllocatesWithin config empty calls) (text : String)
    (literal : Rule.digits.Matches text.toList) :
    let d := empty.afterCalls config calls
    (∀ (name : String) (first size : Nat),
      d.registry.bindings[name]? = some (.array first size) →
      (wholeNumber text < size → ∃ id,
        d.registry.resolveOperand (.indexed ⟨name, [.expressions [.decimal text]]⟩) = .ok id ∧
        id.index.toNat = first + wholeNumber text ∧ id.index.toNat < d.registry.size) ∧
      (size ≤ wholeNumber text → ∃ fault,
        d.registry.resolveOperand (.indexed ⟨name, [.expressions [.decimal text]]⟩) =
          .error (.invalidIndex name fault))) ∧
    ∀ name : String, d.registry.bindings[name]? = none →
      let declaration : Declaration := ⟨⟨.qreg, "qreg"⟩, name, some (.decimal text)⟩
      (wholeNumber text + d.registry.size ≤ 2 ^ 20 → ∃ d', d.declare declaration = .ok d' ∧
        d'.operations = d.operations ∧
        d'.registry.qubits.toList = d.registry.qubits.toList ++
          (List.range' d.registry.size (wholeNumber text)).map (.fresh ∘ Registry.idAt) ∧
        ∀ other, d'.registry.bindings[other]? =
          if name = other then some (.array d.registry.size (wholeNumber text))
          else d.registry.bindings[other]?) ∧
      (2 ^ 20 < wholeNumber text + d.registry.size → ∃ fault,
        d.declare declaration = .error (.invalidSize fault)) := by
  intro d
  have settled : d.registry.Settled := (afterCalls_settled Registry.settled_empty within).1
  refine ⟨fun name first size bound => ?_, fun name free => ?_⟩
  · have room : first + size ≤ d.registry.size := settled.within name _ bound
    have limited : d.registry.size ≤ 2 ^ 20 := settled.limited
    obtain ⟨inside, outside⟩ := Registry.resolveOperand_decimal bound (by omega) literal
    refine ⟨fun below => ⟨_, inside below, ?_⟩, outside⟩
    rw [Registry.idAt_toNat (Nat.lt_of_le_of_lt (by omega) settled.size_lt)]
    omega
  · obtain ⟨fits, exceeds⟩ := declare_decimal free settled.limited literal
    refine ⟨fun room => ⟨_, fits room, rfl, Registry.addQubits_eq _ _, fun other => ?_⟩, exceeds⟩
    exact Registry.getElem?_insert _ _ _ _

/-- A leading zero and an underscore, in an index into an array of eleven qubits and in the size of
a second register. -/
theorem whole_numbers_exact_leadingZero :
    AllocatesWithin ⟨.numeric, true⟩ empty [.declareArray "q" 11] ∧
      Rule.digits.Matches "0_10".toList ∧
      (∃ id, (registryAfter ⟨.numeric, true⟩ [.declareArray "q" 11]).resolveOperand
        (.indexed ⟨"q", [.expressions [.decimal "0_10"]]⟩) = .ok id ∧ id.index.toNat = 10) ∧
      ∃ d, (empty.afterCalls ⟨.numeric, true⟩ [.declareArray "q" 11]).declare
        ⟨⟨.qreg, "qreg"⟩, "r", some (.decimal "0_10")⟩ = .ok d ∧ d.registry.size = 21 := by
  have within : AllocatesWithin ⟨.numeric, true⟩ empty [.declareArray "q" 11] := ⟨nofun, trivial⟩
  have literal : Rule.digits.Matches "0_10".toList := Pattern.accepts_iff.mp (by decide)
  have number : wholeNumber "0_10" = 10 := by decide
  have declared : empty.afterCalls ⟨.numeric, true⟩ [.declareArray "q" 11] =
      ⟨⟨Registry.addQubits 11 #[], (∅ : Std.HashMap String Binding).insert "q" (.array 0 11)⟩, #[]⟩ := by
    have fits := @Registry.declareArray_of_free empty.registry "q" Std.HashMap.getElem?_empty 11
    rw [if_neg (by decide)] at fits
    change (empty.attempt ⟨.numeric, true⟩ (.declareArray "q" 11)).2 = _
    rw [attempt, perform, fits]
    rfl
  obtain ⟨indices, sizes⟩ := whole_numbers_exact ⟨.numeric, true⟩ _ within "0_10" literal
  refine ⟨within, literal, ?_, ?_⟩
  · have bound : (empty.afterCalls ⟨.numeric, true⟩ [.declareArray "q" 11]).registry.bindings["q"]? =
        some (.array 0 11) := by
      rw [declared]
      exact Std.HashMap.getElem?_insert_self
    obtain ⟨id, found, position, _⟩ := (indices "q" 0 11 bound).1 (by rw [number]; decide)
    exact ⟨id, found, by rw [position, number]⟩
  · have free : (empty.afterCalls ⟨.numeric, true⟩ [.declareArray "q" 11]).registry.bindings["r"]? =
        none := by
      rw [declared, Registry.getElem?_insert, if_neg (by decide)]
      exact Std.HashMap.getElem?_empty
    have size : (empty.afterCalls ⟨.numeric, true⟩ [.declareArray "q" 11]).registry.size = 11 := by
      rw [declared]
      rfl
    obtain ⟨d, made, _, qubits, _⟩ := (sizes "r" free).1 (by rw [number, size]; decide)
    refine ⟨d, made, ?_⟩
    rw [Registry.size, ← Array.length_toList, qubits, number, size, declared]
    rfl

end Draft

end QasmDiagram
