/-
Module: QasmDiagram.Expression
Purpose: Expressions of the language, the lengths of their paths, and their text. Height and text
  are given twice: by recursion on the expression, and by a walk over a list of pending work, which
  needs no stack however deep an expression is.
Trusted boundary: none
Main exports: TerminalKind, Terminal, Expression, Expression.height, Expression.depth,
  Expression.text, Expression.render
-/

namespace QasmDiagram

/-- The roles of the tokens that a tree keeps. -/
inductive TerminalKind where
  | qreg
  | creg
  | decimalInteger
  | binaryInteger
  | octalInteger
  | hexInteger
  | float
  | imaginary
  | boolean
  | identifier
  | plus
  | minus
  | asterisk
  | slash
  | percent
  | doubleAsterisk
  | tilde
  | exclamationPoint
  | equals
  | compoundAssignment
deriving Repr, Inhabited, DecidableEq

/-- A token that a tree keeps, with its exact text. -/
structure Terminal where
  kind : TerminalKind
  text : String
deriving Repr, Inhabited, DecidableEq

/-- An expression. Parentheses are nodes, so a tree says how it was written. -/
inductive Expression where
  | binary (lhs : Expression) (op : Terminal) (rhs : Expression)
  | literal (leaf : Terminal)
  | paren (inner : Expression)
  | unary (op : Terminal) (operand : Expression)
  | call (name : String) (arguments : List Expression)
deriving Repr, Inhabited

namespace Expression

/-- The direct parts of an expression, from left to right. -/
def children : Expression → List Expression
  | .binary lhs _ rhs => [lhs, rhs]
  | .literal _ => []
  | .paren inner => [inner]
  | .unary _ operand => [operand]
  | .call _ arguments => arguments

mutual

/-- The number of nodes of an expression. -/
def nodeCount : Expression → Nat
  | .binary lhs _ rhs => lhs.nodeCount + rhs.nodeCount + 1
  | .literal _ => 1
  | .paren inner => inner.nodeCount + 1
  | .unary _ operand => operand.nodeCount + 1
  | .call _ arguments => nodeCountAll arguments + 1

/-- The number of nodes of several expressions together. -/
def nodeCountAll : List Expression → Nat
  | [] => 0
  | first :: others => first.nodeCount + nodeCountAll others

end

mutual

/-- The number of nodes on the longest path from the root to a leaf. -/
def height : Expression → Nat
  | .binary lhs _ rhs => max lhs.height rhs.height + 1
  | .literal _ => 1
  | .paren inner => inner.height + 1
  | .unary _ operand => operand.height + 1
  | .call _ arguments => heightAll arguments + 1

/-- The greatest height among several expressions, zero if there is none. -/
def heightAll : List Expression → Nat
  | [] => 0
  | first :: others => max first.height (heightAll others)

end

/-- The parts of an expression together have one node less than the expression. -/
theorem nodeCountAll_children (e : Expression) : nodeCountAll e.children + 1 = e.nodeCount := by
  cases e with
  | binary lhs op rhs => simp [children, nodeCount, nodeCountAll]
  | literal leaf => simp [children, nodeCount, nodeCountAll]
  | paren inner => simp [children, nodeCount, nodeCountAll]
  | unary op operand => simp [children, nodeCount, nodeCountAll]
  | call name arguments => simp [children, nodeCount]

/-- Counting the nodes of a concatenation. -/
theorem nodeCountAll_append (left right : List Expression) :
    nodeCountAll (left ++ right) = nodeCountAll left + nodeCountAll right := by
  induction left with
  | nil => simp [nodeCountAll]
  | cons first others ih => simp [nodeCountAll, ih, Nat.add_assoc]

/-- The order of expressions does not matter to the number of their nodes. -/
theorem nodeCountAll_reverse (items : List Expression) :
    nodeCountAll items.reverse = nodeCountAll items := by
  induction items with
  | nil => rfl
  | cons first others ih => simp [nodeCountAll, nodeCountAll_append, ih, Nat.add_comm]

/-- The nodes that a list of pending expressions still holds. -/
def pendingNodes (pending : List (Expression × Nat)) : Nat :=
  nodeCountAll (pending.map Prod.fst)

/-- Visits pending expressions, each with the length of the path that led to it, and keeps the
longest path seen. Of the parts of an expression the last is visited first. -/
def deepestFrom (deepest : Nat) : List (Expression × Nat) → Nat
  | [] => deepest
  | (e, depth) :: pending =>
      deepestFrom (max deepest depth) (e.children.reverse.map (·, depth + 1) ++ pending)
termination_by pending => pendingNodes pending
decreasing_by
  have h := nodeCountAll_children e
  simp only [pendingNodes, List.map_append, List.map_map, List.map_cons, nodeCountAll,
    nodeCountAll_append, Function.comp_def, List.map_id', nodeCountAll_reverse]
  omega

/-- The number of nodes on the longest path from the root to a leaf, found without recursion on
the expression. -/
def depth (e : Expression) : Nat :=
  deepestFrom 0 [(e, 1)]

mutual

/-- The text of an expression: operators stand without blanks, arguments are set apart by a comma
and a blank. -/
def text : Expression → String
  | .binary lhs op rhs => lhs.text ++ op.text ++ rhs.text
  | .literal leaf => leaf.text
  | .paren inner => "(" ++ inner.text ++ ")"
  | .unary op operand => op.text ++ operand.text
  | .call name arguments => name ++ "(" ++ textAll arguments ++ ")"

/-- The texts of several expressions with a comma and a blank between them. -/
def textAll : List Expression → String
  | [] => ""
  | [only] => only.text
  | first :: others => first.text ++ ", " ++ textAll others

end

/-- A part of the text still to be written. -/
inductive Piece where
  | text (text : String)
  | node (e : Expression)
deriving Repr, Inhabited

/-- The pieces of an argument list. -/
def argumentPieces : List Expression → List Piece
  | [] => []
  | [only] => [.node only]
  | first :: others => .node first :: .text ", " :: argumentPieces others

/-- The pieces of an expression, its own tokens written out and its parts left as nodes. -/
def pieces : Expression → List Piece
  | .binary lhs op rhs => [.node lhs, .text op.text, .node rhs]
  | .literal leaf => [.text leaf.text]
  | .paren inner => [.text "(", .node inner, .text ")"]
  | .unary op operand => [.text op.text, .node operand]
  | .call name arguments => .text name :: .text "(" :: (argumentPieces arguments ++ [.text ")"])

/-- The expressions among pieces. -/
def Piece.node? : Piece → Option Expression
  | .text _ => none
  | .node e => some e

/-- The nodes of an argument list's pieces are the arguments. -/
theorem filterMap_argumentPieces (arguments : List Expression) :
    (argumentPieces arguments).filterMap Piece.node? = arguments := by
  fun_induction argumentPieces arguments with
  | case1 => rfl
  | case2 only => rfl
  | case3 first others _ ih => simpa [List.filterMap_cons, Piece.node?] using ih

/-- The nodes of an expression's pieces are its parts. -/
theorem filterMap_pieces (e : Expression) : e.pieces.filterMap Piece.node? = e.children := by
  cases e with
  | call name arguments =>
    simp [pieces, children, List.filterMap_cons, Piece.node?, filterMap_argumentPieces]
  | _ => rfl

/-- Writes pending pieces in order after `written`. -/
def writePieces (written : String) : List Piece → String
  | [] => written
  | .text s :: pending => writePieces (written ++ s) pending
  | .node e :: pending => writePieces written (e.pieces ++ pending)
termination_by pending => (nodeCountAll (pending.filterMap Piece.node?), pending.length)
decreasing_by
  · simp [List.filterMap_cons, Piece.node?, Prod.lex_def]
  · have h := nodeCountAll_children e
    apply Prod.Lex.left
    simp only [List.filterMap_append, filterMap_pieces, nodeCountAll_append, List.filterMap_cons,
      Piece.node?, nodeCountAll]
    omega

/-- The text of an expression, written without recursion on it. -/
def render (e : Expression) : String :=
  writePieces "" [.node e]

end Expression

end QasmDiagram
