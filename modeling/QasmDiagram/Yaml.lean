/-
Module: QasmDiagram.Yaml
Purpose: Documents of the YAML format as trees: scalars with the way they are written, sequences,
  mappings, and nodes that other places refer to by an anchor.
Trusted boundary: none
Main exports: Yaml, Yaml.anchors, Yaml.content
-/

namespace QasmDiagram

/-- How a scalar is written. -/
inductive ScalarStyle where
  | plain
  | singleQuoted
  | doubleQuoted
  | literal
  | folded
deriving Repr, Inhabited, DecidableEq

/-- A document or part of one. A scalar keeps its tag, as octets, its style and its text, since only
the place where it is used says what it is. A node with an anchor carries the number of the anchor,
and a reference names the number of the anchor it means. -/
inductive Yaml where
  | scalar (tag : Option (List UInt8)) (style : ScalarStyle) (text : String)
  | sequence (items : List Yaml)
  | mapping (entries : List (Yaml × Yaml))
  | anchored (number : Nat) (content : Yaml)
  | reference (number : Nat)
deriving Repr, Inhabited

namespace Yaml

/-- What stands where no value is written. -/
def missing : Yaml :=
  .scalar none .plain ""

/-- Whether nothing is written: an empty plain scalar, with or without a tag. -/
def isMissing : Yaml → Bool
  | .scalar _ .plain text => text.isEmpty
  | _ => false

mutual

/-- The nodes with an anchor inside a node, each with its number, in the order in which they
begin. -/
def anchorsInOrder : Yaml → List (Nat × Yaml)
  | .scalar _ _ _ => []
  | .sequence items => anchorsOfItems items
  | .mapping entries => anchorsOfEntries entries
  | .anchored number content => (number, content) :: anchorsInOrder content
  | .reference _ => []

/-- The nodes with an anchor inside the items of a sequence. -/
def anchorsOfItems : List Yaml → List (Nat × Yaml)
  | [] => []
  | item :: items => anchorsInOrder item ++ anchorsOfItems items

/-- The nodes with an anchor inside the entries of a mapping. -/
def anchorsOfEntries : List (Yaml × Yaml) → List (Nat × Yaml)
  | [] => []
  | (key, value) :: entries =>
      anchorsInOrder key ++ (anchorsInOrder value ++ anchorsOfEntries entries)

end

/-- The nodes with an anchor, for looking them up by number: of several with one number, the last
in the document comes first. -/
def anchors (document : Yaml) : List (Nat × Yaml) :=
  document.anchorsInOrder.reverse

/-- A node without its anchor, or the node that a reference means. -/
def content (anchors : List (Nat × Yaml)) : Yaml → Yaml
  | .anchored _ inner => inner
  | .reference number => (anchors.lookup number).getD missing
  | node => node

end Yaml

end QasmDiagram
