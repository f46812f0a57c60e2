/-
Module: QasmDiagram.Program.Encoding
Purpose: Programs as JSON values and back. A choice is an object with one field, named for the
  alternative, or a string where the alternative has no content; a record is an object.
Trusted boundary: none
Main exports: Expression.encode, Expression.decode, Program.encode, Program.decode
-/
import QasmDiagram.Json.Decode
import QasmDiagram.Program

namespace QasmDiagram

/-- An alternative with content. -/
def Json.tagged (tag : String) (content : Json) : Json :=
  .object [(tag, content)]

/-- An optional value, null if absent. -/
def Json.ofOption {α : Type} (encode : α → Json) : Option α → Json
  | none => .null
  | some value => encode value

namespace TerminalKind

/-- The name of a role. -/
def name : TerminalKind → String
  | .qreg => "Qreg"
  | .creg => "Creg"
  | .decimalInteger => "DecimalIntegerLiteral"
  | .binaryInteger => "BinaryIntegerLiteral"
  | .octalInteger => "OctalIntegerLiteral"
  | .hexInteger => "HexIntegerLiteral"
  | .float => "FloatLiteral"
  | .imaginary => "ImaginaryLiteral"
  | .boolean => "BooleanLiteral"
  | .identifier => "Identifier"
  | .plus => "Plus"
  | .minus => "Minus"
  | .asterisk => "Asterisk"
  | .slash => "Slash"
  | .percent => "Percent"
  | .doubleAsterisk => "DoubleAsterisk"
  | .tilde => "Tilde"
  | .exclamationPoint => "ExclamationPoint"
  | .equals => "Equals"
  | .compoundAssignment => "CompoundAssignment"

/-- Every role once. -/
def all : List TerminalKind :=
  [.qreg, .creg, .decimalInteger, .binaryInteger, .octalInteger, .hexInteger, .float, .imaginary,
    .boolean, .identifier, .plus, .minus, .asterisk, .slash, .percent, .doubleAsterisk, .tilde,
    .exclamationPoint, .equals, .compoundAssignment]

end TerminalKind

namespace KeptRule

/-- The name of a rule. -/
def name : KeptRule → String
  | .quantumDeclaration => "QuantumDeclarationStatement"
  | .classicalDeclaration => "ClassicalDeclarationStatement"
  | .constDeclaration => "ConstDeclarationStatement"
  | .measureArrowAssignment => "MeasureArrowAssignmentStatement"
  | .reset => "ResetStatement"
  | .barrier => "BarrierStatement"
  | .delay => "DelayStatement"
  | .gate => "GateStatement"
  | .definition => "DefStatement"
  | .conditional => "IfStatement"
  | .forLoop => "ForStatement"
  | .whileLoop => "WhileStatement"
  | .box => "BoxStatement"
  | .other => "OtherStatement"

/-- Every rule once. -/
def all : List KeptRule :=
  [.quantumDeclaration, .classicalDeclaration, .constDeclaration, .measureArrowAssignment, .reset,
    .barrier, .delay, .gate, .definition, .conditional, .forLoop, .whileLoop, .box, .other]

end KeptRule

/-- A terminal as a record. -/
def Terminal.encode (t : Terminal) : Json :=
  .object [("kind", .string t.kind.name), ("text", .string t.text)]

/-- A terminal from a record. -/
def Terminal.decode (j : Json) : Except DecodeError Terminal := do
  let field ← j.record ["kind", "text"] 2
  let kind ← Json.choice TerminalKind.all TerminalKind.name (← Json.required (field "kind")).1
  let text ← Json.asString (← Json.required (field "text")).1
  return ⟨kind, text⟩

namespace Expression

mutual

/-- An expression as a choice. -/
def encode : Expression → Json
  | .binary lhs op rhs =>
      Json.tagged "Binary"
        (.object [("lhs", lhs.encode), ("op", op.encode), ("rhs", rhs.encode)])
  | .literal leaf => Json.tagged "Literal" leaf.encode
  | .paren inner => Json.tagged "Parenthesis" inner.encode
  | .unary op operand =>
      Json.tagged "Unary" (.object [("op", op.encode), ("operand", operand.encode)])
  | .call name arguments =>
      Json.tagged "Call"
        (.object [("name", .string name), ("arguments", .array (encodeAll arguments))])

/-- Several expressions, each as a choice. -/
def encodeAll : List Expression → List Json
  | [] => []
  | first :: others => first.encode :: encodeAll others

end

/-- An expression from a choice. The alternatives with several parts take them by name only. -/
def decode (j : Json) : Except DecodeError Expression := do
  let (tag, content) ← j.alternative
  let ⟨body, _⟩ ← Json.required content
  match tag with
  | "Binary" => do
      let field ← body.fieldsOnly
      let ⟨lhs, _⟩ ← Json.required (field "lhs")
      let ⟨op, _⟩ ← Json.required (field "op")
      let ⟨rhs, _⟩ ← Json.required (field "rhs")
      return .binary (← decode lhs) (← Terminal.decode op) (← decode rhs)
  | "Literal" => return .literal (← Terminal.decode body)
  | "Parenthesis" => return .paren (← decode body)
  | "Unary" => do
      let field ← body.fieldsOnly
      let ⟨op, _⟩ ← Json.required (field "op")
      let ⟨operand, _⟩ ← Json.required (field "operand")
      return .unary (← Terminal.decode op) (← decode operand)
  | "Call" => do
      let field ← body.fieldsOnly
      let ⟨name, _⟩ ← Json.required (field "name")
      let ⟨list, _⟩ ← Json.required (field "arguments")
      let parts ← list.items
      return .call (← Json.asString name) (← parts.mapM fun ⟨part, _⟩ => decode part)
  | _ => throw .malformed
termination_by sizeOf j

end Expression

/-- An index as a choice. -/
def Index.encode : Index → Json
  | .expressions items => Json.tagged "Expressions" (.array (items.map Expression.encode))
  | .verbatim text => Json.tagged "Opaque" (.string text)

/-- An index from a choice. -/
def Index.decode (j : Json) : Except DecodeError Index := do
  let (tag, content) ← j.alternative
  let ⟨body, _⟩ ← Json.required content
  match tag with
  | "Expressions" => return .expressions (← Json.asList Expression.decode body)
  | "Opaque" => return .verbatim (← Json.asString body)
  | _ => throw .malformed

/-- An indexed name as a record. -/
def Indexed.encode (target : Indexed) : Json :=
  .object [("identifier", .string target.name),
    ("indices", .array (target.indices.map Index.encode))]

/-- An indexed name from a record. -/
def Indexed.decode (j : Json) : Except DecodeError Indexed := do
  let field ← j.record ["identifier", "indices"] 2
  let name ← Json.asString (← Json.required (field "identifier")).1
  let indices ← Json.asList Index.decode (← Json.required (field "indices")).1
  return ⟨name, indices⟩

/-- An operand as a choice. -/
def Operand.encode : Operand → Json
  | .indexed target => Json.tagged "IndexedIdentifier" target.encode
  | .hardware text => Json.tagged "HardwareQubit" (.string text)

/-- An operand from a choice. -/
def Operand.decode (j : Json) : Except DecodeError Operand := do
  let (tag, content) ← j.alternative
  let ⟨body, _⟩ ← Json.required content
  match tag with
  | "IndexedIdentifier" => return .indexed (← Indexed.decode body)
  | "HardwareQubit" => return .hardware (← Json.asString body)
  | _ => throw .malformed

/-- A bracketed size as a record. -/
def encodeDesignator (size : Expression) : Json :=
  .object [("expression", size.encode)]

/-- A bracketed size from a record. -/
def decodeDesignator (j : Json) : Except DecodeError Expression := do
  let field ← j.record ["expression"] 1
  Expression.decode (← Json.required (field "expression")).1

/-- A declaration as a record. -/
def Declaration.encode (d : Declaration) : Json :=
  .object [("kind", d.keyword.encode), ("identifier", .string d.name),
    ("designator", Json.ofOption encodeDesignator d.size)]

/-- A declaration from a record. -/
def Declaration.decode (j : Json) : Except DecodeError Declaration := do
  let field ← j.record ["kind", "identifier", "designator"] 3
  let keyword ← Terminal.decode (← Json.required (field "kind")).1
  let name ← Json.asString (← Json.required (field "identifier")).1
  let size ← Json.optional decodeDesignator (field "designator")
  return ⟨keyword, name, size⟩

/-- A gate call as a record. -/
def GateCall.encode (call : GateCall) : Json :=
  .object [("modifiers", .array (call.modifiers.map Json.string)),
    ("identifier", .string call.gate),
    ("arguments", Json.ofOption (fun items => .array (items.map Expression.encode)) call.arguments),
    ("designator", Json.ofOption encodeDesignator call.designator),
    ("operands", .array (call.operands.map Operand.encode))]

/-- A gate call from a record. -/
def GateCall.decode (j : Json) : Except DecodeError GateCall := do
  let field ← j.record ["modifiers", "identifier", "arguments", "designator", "operands"] 5
  let modifiers ← Json.asList Json.asString (← Json.required (field "modifiers")).1
  let gate ← Json.asString (← Json.required (field "identifier")).1
  let arguments ← Json.optional (Json.asList Expression.decode) (field "arguments")
  let designator ← Json.optional decodeDesignator (field "designator")
  let operands ← Json.asList Operand.decode (← Json.required (field "operands")).1
  return ⟨modifiers, gate, arguments, designator, operands⟩

/-- An assigned value as a choice. -/
def AssignedValue.encode : AssignedValue → Json
  | .measure operand => Json.tagged "Measure" operand.encode
  | .expression e => Json.tagged "Expression" e.encode

/-- An assigned value from a choice. -/
def AssignedValue.decode (j : Json) : Except DecodeError AssignedValue := do
  let (tag, content) ← j.alternative
  let ⟨body, _⟩ ← Json.required content
  match tag with
  | "Measure" => return .measure (← Operand.decode body)
  | "Expression" => return .expression (← Expression.decode body)
  | _ => throw .malformed

/-- An assignment as a record. -/
def Assignment.encode (a : Assignment) : Json :=
  .object [("target", a.target.encode), ("op", a.op.encode), ("value", a.value.encode)]

/-- An assignment from a record. -/
def Assignment.decode (j : Json) : Except DecodeError Assignment := do
  let field ← j.record ["target", "op", "value"] 3
  let target ← Indexed.decode (← Json.required (field "target")).1
  let op ← Terminal.decode (← Json.required (field "op")).1
  let value ← AssignedValue.decode (← Json.required (field "value")).1
  return ⟨target, op, value⟩

/-- A statement as a choice. -/
def Statement.encode : Statement → Json
  | .inclusion path => Json.tagged "Include" (.object [("path", .string path)])
  | .declaration d => Json.tagged "OldStyleDeclaration" d.encode
  | .gateCall call => Json.tagged "GateCall" call.encode
  | .assignment a => Json.tagged "Assignment" a.encode
  | .kept rule text =>
      Json.tagged "Other" (.object [("rule", .string rule.name), ("text", .string text)])

/-- A statement from a choice. -/
def Statement.decode (j : Json) : Except DecodeError Statement := do
  let (tag, content) ← j.alternative
  let ⟨body, _⟩ ← Json.required content
  match tag with
  | "Include" => do
      let field ← body.record ["path"] 1
      return .inclusion (← Json.asString (← Json.required (field "path")).1)
  | "OldStyleDeclaration" => return .declaration (← Declaration.decode body)
  | "GateCall" => return .gateCall (← GateCall.decode body)
  | "Assignment" => return .assignment (← Assignment.decode body)
  | "Other" => do
      let field ← body.record ["rule", "text"] 2
      let rule ← Json.choice KeptRule.all KeptRule.name (← Json.required (field "rule")).1
      let text ← Json.asString (← Json.required (field "text")).1
      return .kept rule text
  | _ => throw .malformed

mutual

/-- An item as a choice. -/
def Item.encode : Item → Json
  | .statement s => Json.tagged "Statement" s.encode
  | .scope body => Json.tagged "Scope" (.array (Item.encodeAll body))

/-- Several items, each as a choice. -/
def Item.encodeAll : List Item → List Json
  | [] => []
  | first :: others => first.encode :: Item.encodeAll others

end

/-- An item from a choice. -/
def Item.decode (j : Json) : Except DecodeError Item := do
  let (tag, content) ← j.alternative
  let ⟨body, _⟩ ← Json.required content
  match tag with
  | "Statement" => return .statement (← Statement.decode body)
  | "Scope" => do
      let parts ← body.items
      return .scope (← parts.mapM fun ⟨part, _⟩ => Item.decode part)
  | _ => throw .malformed
termination_by sizeOf j

/-- An element as a choice. -/
def Element.encode : Element → Json
  | .version specifier =>
      Json.tagged "Version" (.object [("specifier", .string specifier)])
  | .item i => Json.tagged "StatementOrScope" i.encode
  | .endOfInput => .string "Eof"

/-- An element from a choice. -/
def Element.decode (j : Json) : Except DecodeError Element := do
  let (tag, content) ← j.alternative
  match tag with
  | "Version" => do
      let field ← (← Json.required content).1.record ["specifier"] 1
      return .version (← Json.asString (← Json.required (field "specifier")).1)
  | "StatementOrScope" => return .item (← Item.decode (← Json.required content).1)
  | "Eof" => do
      Json.noContent content
      return .endOfInput
  | _ => throw .malformed

/-- A program as a record. -/
def Program.encode (program : Program) : Json :=
  .object [("children", .array (program.children.map Element.encode))]

/-- A program from a record. -/
def Program.decode (j : Json) : Except DecodeError Program := do
  let field ← j.record ["children"] 1
  let children ← Json.asList Element.decode (← Json.required (field "children")).1
  return ⟨children⟩

end QasmDiagram
