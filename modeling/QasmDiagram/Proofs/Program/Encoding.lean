/-
Module: QasmDiagram.Proofs.Program.Encoding
Purpose: Programs are read back from their JSON values, whatever their shape and depth. Each type of
  node is decoded from its encoding by decoding its parts, and nested nodes by induction.
Trusted boundary: none
Main exports: Json.optional_field, Expression.decode_encode, Statement.decode_encode,
  Item.decode_encode, Element.decode_encode, Program.decode_encoded
-/
import QasmDiagram.Program.Encoding
import QasmDiagram.Proofs.Json.Faithful

namespace QasmDiagram

/-! ### Optional fields -/

namespace Json

variable {α : Type} {encode : α → Json} {decode : Json → Except DecodeError α}

/-- An optional field is decoded if what is encoded is never null, which stands for absence. -/
theorem optional_field {name : String} {fields : List (String × Json)} {x : Option α}
    (given : field? name fields = some (ofOption encode x))
    (decoded : ∀ y, decode (encode y) = .ok y) (notNull : ∀ y, encode y ≠ .null) :
    optional decode (fieldPart? name fields) = .ok x := by
  have found := fieldPart?_val name fields
  rw [given] at found
  obtain ⟨⟨value, smaller⟩, part, same⟩ := Option.map_eq_some_iff.mp found
  rw [part]
  cases x with
  | none =>
      obtain rfl : value = .null := same
      rfl
  | some y =>
      have same : value = encode y := same
      have read : decode value = .ok y := by rw [same, decoded]
      cases value with
      | null => exact absurd same.symm (notNull y)
      | _ =>
          simp only [optional, read]
          rfl

end Json

/-! ### Terminals and names -/

theorem TerminalKind.choice_name (kind : TerminalKind) :
    Json.choice all name (.string kind.name) = .ok kind := by
  cases kind <;> rfl

theorem KeptRule.choice_name (rule : KeptRule) :
    Json.choice all name (.string rule.name) = .ok rule := by
  cases rule <;> rfl

theorem Terminal.decode_encode (t : Terminal) : decode t.encode = .ok t := by
  change (do
    let kind ← Json.choice TerminalKind.all TerminalKind.name (.string t.kind.name)
    return Terminal.mk kind t.text) = _
  rw [TerminalKind.choice_name]
  rfl

/-! ### Expressions -/

namespace Expression

/-- A binary expression is decoded by decoding its parts from left to right. -/
theorem decode_binary (lhs : Expression) (op : Terminal) (rhs : Expression) :
    decode (encode (.binary lhs op rhs)) = (do
      let left ← decode lhs.encode
      let sign ← Terminal.decode op.encode
      let right ← decode rhs.encode
      return .binary left sign right) := by
  rw [decode]
  rfl

theorem decode_literal (leaf : Terminal) :
    decode (encode (.literal leaf)) = (do return .literal (← Terminal.decode leaf.encode)) := by
  rw [decode]
  rfl

theorem decode_paren (inner : Expression) :
    decode (encode (.paren inner)) = (do return .paren (← decode inner.encode)) := by
  rw [decode]
  rfl

theorem decode_unary (op : Terminal) (operand : Expression) :
    decode (encode (.unary op operand)) = (do
      let sign ← Terminal.decode op.encode
      let signed ← decode operand.encode
      return .unary sign signed) := by
  rw [decode]
  rfl

/-- A call is decoded by decoding its arguments in order. -/
theorem decode_call (name : String) (arguments : List Expression) :
    decode (encode (.call name arguments)) = (do
      return .call name (← Json.asList decode (.array (encodeAll arguments)))) := by
  rw [decode]
  rfl

mutual

/-- Every expression is decoded from its encoding. -/
theorem decode_encode (e : Expression) : decode e.encode = .ok e := by
  cases e with
  | binary lhs op rhs =>
      rw [decode_binary, decode_encode lhs, Terminal.decode_encode, decode_encode rhs]
      rfl
  | literal leaf =>
      rw [decode_literal, Terminal.decode_encode]
      rfl
  | paren inner =>
      rw [decode_paren, decode_encode inner]
      rfl
  | unary op operand =>
      rw [decode_unary, Terminal.decode_encode, decode_encode operand]
      rfl
  | call name arguments =>
      rw [decode_call, Json.Faithful.asList_array, mapM_decode_encodeAll arguments]
      rfl

/-- Several expressions are decoded from their encodings, each in its place. -/
theorem mapM_decode_encodeAll (es : List Expression) : (encodeAll es).mapM decode = .ok es := by
  cases es with
  | nil => rfl
  | cons first others =>
      rw [encodeAll, List.mapM_cons, decode_encode first, mapM_decode_encodeAll others]
      rfl

end

end Expression

/-! ### Operands -/

theorem Index.decode_encode (index : Index) : decode index.encode = .ok index := by
  cases index with
  | expressions items =>
      change (do
        return Index.expressions (← Json.asList Expression.decode
          (.array (items.map Expression.encode)))) = _
      rw [Json.Faithful.asList_encoded Expression.decode_encode]
      rfl
  | verbatim text => rfl

theorem Indexed.decode_encode (target : Indexed) : decode target.encode = .ok target := by
  change (do
    let indices ← Json.asList Index.decode (.array (target.indices.map Index.encode))
    return Indexed.mk target.name indices) = _
  rw [Json.Faithful.asList_encoded Index.decode_encode]
  rfl

theorem Operand.decode_encode (operand : Operand) : decode operand.encode = .ok operand := by
  cases operand with
  | indexed target =>
      change (do return Operand.indexed (← Indexed.decode target.encode)) = _
      rw [Indexed.decode_encode]
      rfl
  | hardware text => rfl

theorem decodeDesignator_encode (size : Expression) :
    decodeDesignator (encodeDesignator size) = .ok size :=
  Expression.decode_encode size

/-! ### Statements -/

namespace Declaration

/-- The fields of a declaration's record. -/
def fields (d : Declaration) : List (String × Json) :=
  [("kind", d.keyword.encode), ("identifier", .string d.name),
    ("designator", Json.ofOption encodeDesignator d.size)]

theorem decode_encode (d : Declaration) : decode d.encode = .ok d := by
  have size : Json.optional decodeDesignator (Json.fieldPart? "designator" d.fields) = .ok d.size :=
    Json.optional_field rfl decodeDesignator_encode (by simp [encodeDesignator])
  change (do
    let keyword ← Terminal.decode d.keyword.encode
    let size ← Json.optional decodeDesignator (Json.fieldPart? "designator" d.fields)
    return Declaration.mk keyword d.name size) = _
  rw [Terminal.decode_encode, size]
  rfl

end Declaration

namespace GateCall

/-- The fields of a gate call's record. -/
def fields (call : GateCall) : List (String × Json) :=
  [("modifiers", .array (call.modifiers.map Json.string)), ("identifier", .string call.gate),
    ("arguments", Json.ofOption (fun items => .array (items.map Expression.encode)) call.arguments),
    ("designator", Json.ofOption encodeDesignator call.designator),
    ("operands", .array (call.operands.map Operand.encode))]

theorem decode_encode (call : GateCall) : decode call.encode = .ok call := by
  have modifiers : Json.asList Json.asString (.array (call.modifiers.map Json.string)) =
      .ok call.modifiers :=
    @Json.Faithful.asList_encoded _ Json.string _ (fun _ => rfl) call.modifiers
  have arguments : Json.optional (Json.asList Expression.decode)
      (Json.fieldPart? "arguments" call.fields) = .ok call.arguments :=
    Json.optional_field rfl (Json.Faithful.asList_encoded Expression.decode_encode) (by simp)
  have designator : Json.optional decodeDesignator (Json.fieldPart? "designator" call.fields) =
      .ok call.designator :=
    Json.optional_field rfl decodeDesignator_encode (by simp [encodeDesignator])
  change (do
    let modifiers ← Json.asList Json.asString (.array (call.modifiers.map Json.string))
    let arguments ← Json.optional (Json.asList Expression.decode)
      (Json.fieldPart? "arguments" call.fields)
    let designator ← Json.optional decodeDesignator (Json.fieldPart? "designator" call.fields)
    let operands ← Json.asList Operand.decode (.array (call.operands.map Operand.encode))
    return GateCall.mk modifiers call.gate arguments designator operands) = _
  rw [modifiers, arguments, designator, Json.Faithful.asList_encoded Operand.decode_encode]
  rfl

end GateCall

theorem AssignedValue.decode_encode (value : AssignedValue) : decode value.encode = .ok value := by
  cases value with
  | measure operand =>
      change (do return AssignedValue.measure (← Operand.decode operand.encode)) = _
      rw [Operand.decode_encode]
      rfl
  | expression e =>
      change (do return AssignedValue.expression (← Expression.decode e.encode)) = _
      rw [Expression.decode_encode]
      rfl

theorem Assignment.decode_encode (a : Assignment) : decode a.encode = .ok a := by
  change (do
    let target ← Indexed.decode a.target.encode
    let op ← Terminal.decode a.op.encode
    let value ← AssignedValue.decode a.value.encode
    return Assignment.mk target op value) = _
  rw [Indexed.decode_encode, Terminal.decode_encode, AssignedValue.decode_encode]
  rfl

theorem Statement.decode_encode (s : Statement) : decode s.encode = .ok s := by
  cases s with
  | inclusion path => rfl
  | declaration d =>
      change (do return Statement.declaration (← Declaration.decode d.encode)) = _
      rw [Declaration.decode_encode]
      rfl
  | gateCall call =>
      change (do return Statement.gateCall (← GateCall.decode call.encode)) = _
      rw [GateCall.decode_encode]
      rfl
  | assignment a =>
      change (do return Statement.assignment (← Assignment.decode a.encode)) = _
      rw [Assignment.decode_encode]
      rfl
  | kept rule text =>
      change (do
        let found ← Json.choice KeptRule.all KeptRule.name (.string rule.name)
        return Statement.kept found text) = _
      rw [KeptRule.choice_name]
      rfl

/-! ### Items, elements and programs -/

namespace Item

theorem decode_statement (s : Statement) :
    decode (encode (.statement s)) = (do return .statement (← Statement.decode s.encode)) := by
  rw [decode]
  rfl

/-- A scope is decoded by decoding its items in order. -/
theorem decode_scope (body : List Item) :
    decode (encode (.scope body)) = (do
      return .scope (← Json.asList decode (.array (encodeAll body)))) := by
  rw [decode]
  rfl

mutual

/-- Every item is decoded from its encoding. -/
theorem decode_encode (i : Item) : decode i.encode = .ok i := by
  cases i with
  | statement s =>
      rw [decode_statement, Statement.decode_encode]
      rfl
  | scope body =>
      rw [decode_scope, Json.Faithful.asList_array, mapM_decode_encodeAll body]
      rfl

/-- Several items are decoded from their encodings, each in its place. -/
theorem mapM_decode_encodeAll (items : List Item) : (encodeAll items).mapM decode = .ok items := by
  cases items with
  | nil => rfl
  | cons first others =>
      rw [encodeAll, List.mapM_cons, decode_encode first, mapM_decode_encodeAll others]
      rfl

end

end Item

theorem Element.decode_encode (element : Element) : decode element.encode = .ok element := by
  cases element with
  | version specifier => rfl
  | item i =>
      change (do return Element.item (← Item.decode i.encode)) = _
      rw [Item.decode_encode]
      rfl
  | endOfInput => rfl

/-- Every program, also one that no text stands for, is decoded from its encoding. -/
theorem Program.decode_encoded (program : Program) : decode program.encode = .ok program := by
  change (do
    return Program.mk (← Json.asList Element.decode
      (.array (program.children.map Element.encode)))) = _
  rw [Json.Faithful.asList_encoded Element.decode_encode]
  rfl

end QasmDiagram
