/-
Module: QasmDiagram.Program
Purpose: Programs as trees: elements, statements, operands, and the text of each. Statements that
  the language has but the tree does not take apart are kept as source text under their rule.
Trusted boundary: none
Main exports: Index, Indexed, Operand, Declaration, GateCall, Assignment, KeptRule, Statement,
  Item, Element, Program, Program.render
-/
import QasmDiagram.Expression.Equality

namespace QasmDiagram

/-- One bracketed index: a list of expressions, or a range or set kept as source text. -/
inductive Index where
  | expressions (items : List Expression)
  | verbatim (text : String)
deriving Repr, Inhabited, DecidableEq

/-- A name followed by any number of indices. -/
structure Indexed where
  name : String
  indices : List Index
deriving Repr, Inhabited, DecidableEq

/-- What a gate or measurement acts on: an indexed name or a physical qubit. -/
inductive Operand where
  | indexed (target : Indexed)
  | hardware (text : String)
deriving Repr, Inhabited, DecidableEq

/-- The declaration of a register, with its size if one is written. -/
structure Declaration where
  keyword : Terminal
  name : String
  size : Option Expression
deriving Repr, Inhabited, DecidableEq

/-- A gate applied to operands. `arguments` is absent where no parentheses are written; modifiers
are source text. -/
structure GateCall where
  modifiers : List String
  gate : String
  arguments : Option (List Expression)
  designator : Option Expression
  operands : List Operand
deriving Repr, Inhabited, DecidableEq

/-- What an assignment stores: the result of a measurement or the value of an expression. -/
inductive AssignedValue where
  | measure (operand : Operand)
  | expression (e : Expression)
deriving Repr, Inhabited, DecidableEq

/-- An assignment, plain or compound. -/
structure Assignment where
  target : Indexed
  op : Terminal
  value : AssignedValue
deriving Repr, Inhabited, DecidableEq

/-- The grammar rules whose statements are kept as source text. -/
inductive KeptRule where
  | quantumDeclaration
  | classicalDeclaration
  | constDeclaration
  | measureArrowAssignment
  | reset
  | barrier
  | delay
  | gate
  | definition
  | conditional
  | forLoop
  | whileLoop
  | box
  | other
deriving Repr, Inhabited, DecidableEq

/-- A statement. -/
inductive Statement where
  | inclusion (path : String)
  | declaration (d : Declaration)
  | gateCall (call : GateCall)
  | assignment (a : Assignment)
  | kept (rule : KeptRule) (text : String)
deriving Repr, Inhabited, DecidableEq

/-- A statement or a braced scope. -/
inductive Item where
  | statement (s : Statement)
  | scope (body : List Item)
deriving Repr, Inhabited

/-- A direct part of a program. -/
inductive Element where
  | version (specifier : String)
  | item (i : Item)
  | endOfInput
deriving Repr, Inhabited

/-- A program. What a reader produces ends with one `endOfInput` and has no other. -/
structure Program where
  children : List Element
deriving Repr, Inhabited

/-- The texts of several expressions with a comma and a blank between them. -/
def renderList (items : List Expression) : String :=
  ", ".intercalate (items.map Expression.render)

/-- The text of an index, with its brackets. -/
def Index.render : Index → String
  | .expressions items => "[" ++ renderList items ++ "]"
  | .verbatim text => "[" ++ text ++ "]"

/-- The text of an indexed name. -/
def Indexed.render (target : Indexed) : String :=
  target.name ++ String.join (target.indices.map Index.render)

/-- The text of an operand. -/
def Operand.render : Operand → String
  | .indexed target => target.render
  | .hardware text => text

/-- The text of a bracketed size, nothing if there is none. -/
def renderDesignator : Option Expression → String
  | none => ""
  | some size => "[" ++ size.render ++ "]"

/-- The text of a declaration. -/
def Declaration.render (d : Declaration) : String :=
  d.keyword.text ++ " " ++ d.name ++ renderDesignator d.size ++ ";"

/-- The text of a parenthesised argument list, nothing if there is none. -/
def renderArguments : Option (List Expression) → String
  | none => ""
  | some items => "(" ++ renderList items ++ ")"

/-- The text of the operands of a call, set apart from what stands before them by a blank. -/
def renderOperands : List Operand → String
  | [] => ""
  | operands => " " ++ ", ".intercalate (operands.map Operand.render)

/-- The text of a gate call. -/
def GateCall.render (call : GateCall) : String :=
  String.join (call.modifiers.map (· ++ " @ ")) ++ call.gate ++ renderArguments call.arguments
    ++ renderDesignator call.designator ++ renderOperands call.operands ++ ";"

/-- The text of an assigned value. -/
def AssignedValue.render : AssignedValue → String
  | .measure operand => "measure " ++ operand.render
  | .expression e => e.render

/-- The text of an assignment. -/
def Assignment.render (a : Assignment) : String :=
  a.target.render ++ " " ++ a.op.text ++ " " ++ a.value.render ++ ";"

/-- The text of a statement. -/
def Statement.render : Statement → String
  | .inclusion path => "include \"" ++ path ++ "\";"
  | .declaration d => d.render
  | .gateCall call => call.render
  | .assignment a => a.render
  | .kept _ text => text

mutual

/-- The text of an item: the items of a scope stand between braces, a blank around each. -/
def Item.render : Item → String
  | .statement s => s.render
  | .scope body => "\x7b " ++ Item.renderAll body ++ " \x7d"

/-- The texts of several items with a blank between them. -/
def Item.renderAll : List Item → String
  | [] => ""
  | [only] => only.render
  | first :: others => first.render ++ " " ++ Item.renderAll others

end

/-- The text of an element. -/
def Element.render : Element → String
  | .version specifier => "OPENQASM " ++ specifier ++ ";"
  | .item i => i.render
  | .endOfInput => "<EOF>"

/-- The text of an element as a line of a program; the end of input has no line. -/
def Element.renderLine : Element → String
  | .endOfInput => ""
  | element => element.render ++ "\n"

/-- The text of a program, one line an element. -/
def Program.render (program : Program) : String :=
  String.join (program.children.map Element.renderLine)

mutual

/-- Whether two items are equal. -/
def Item.same : Item → Item → Bool
  | .statement s, .statement s' => s == s'
  | .scope body, .scope body' => Item.sameAll body body'
  | _, _ => false

/-- Whether two lists of items are equal. -/
def Item.sameAll : List Item → List Item → Bool
  | [], [] => true
  | first :: others, first' :: others' => first.same first' && Item.sameAll others others'
  | _, _ => false

end

mutual

/-- `Item.same` decides equality. -/
theorem Item.same_iff (a b : Item) : a.same b = true ↔ a = b := by
  cases a <;> cases b <;> simp [Item.same, Item.sameAll_iff _ _]

/-- `Item.sameAll` decides equality of lists. -/
theorem Item.sameAll_iff (as bs : List Item) : Item.sameAll as bs = true ↔ as = bs := by
  cases as <;> cases bs <;> simp [Item.sameAll, Item.same_iff _ _, Item.sameAll_iff _ _]

end

instance : DecidableEq Item := fun a b => decidable_of_iff _ (Item.same_iff a b)

deriving instance DecidableEq for Element
deriving instance DecidableEq for Program

end QasmDiagram
