/-
Module: QasmDiagram.Yaml.Reader
Purpose: Reading a text that holds one document. Nodes are built from tokens; an anchor gets its
  number where its node begins, and a reference means the last anchor of its name before it.
Trusted boundary: none
Main exports: Yaml.Tape, Yaml.nodeReader, Yaml.ofText?
-/
import QasmDiagram.Yaml.Outline

namespace QasmDiagram

namespace Yaml

/-- The tokens still ahead, what the handles of tags stand for, and the names of the anchors so far
with their numbers. -/
structure Tape where
  ahead : List Token
  handles : List (String × List UInt8) := []
  anchors : List (String × Nat) := []
deriving Repr, Inhabited

namespace Tape

/-- The tape behind the next token. -/
def next (t : Tape) : Tape :=
  { t with ahead := t.ahead.drop 1 }

/-- Whether the next token is one of the given. -/
def isAt (tokens : List Token) (t : Tape) : Bool :=
  t.ahead.head?.any fun token => tokens.contains token

/-- The tape with one more anchor, and the number of the anchor: how many names were in use. An
anchor whose name is in use takes the name over. -/
def addAnchor (name : String) (t : Tape) : Nat × Tape :=
  let number := t.anchors.length
  let others := t.anchors.filter fun anchor => anchor.1 != name
  (number, { t with anchors := (name, number) :: others })

end Tape

/-- Reads a node or part of one and moves the tape behind it. -/
abbrev TapeReader (α : Type) := Tape → Option (α × Tape)

/-- Takes at most `limit` steps from `state` until one declines with `none` inside. -/
def repeatFrom {σ : Type} (step : σ → Tape → Option (Option (σ × Tape))) (limit : Nat)
    (state : σ) : TapeReader σ := fun t =>
  match limit with
  | 0 => none
  | limit + 1 =>
      match step state t with
      | none => none
      | some none => some (state, t)
      | some (some (state, t)) => repeatFrom step limit state t

/-- Moves over the given token. -/
def pass? (token : Token) (t : Tape) : Option Tape :=
  if t.isAt [token] then some t.next else none

/-- A node, or nothing if one of the given tokens follows. -/
def unlessAt (tokens : List Token) (node : TapeReader Yaml) : TapeReader Yaml := fun t =>
  if t.isAt tokens then some (missing, t) else node t

/-- The value of an entry, behind a colon if there is one; none is written if one of the given
tokens follows. -/
def entryValue (tokens : List Token) (node : TapeReader Yaml) : TapeReader Yaml := fun t =>
  if t.isAt [.value] then unlessAt tokens node t.next else some (missing, t)

/-- The tag that a handle and what follows it stand for. -/
def tagOf? (handle : Option String) (suffix : List UInt8) (t : Tape) : Option (List UInt8) :=
  match handle with
  | none => some suffix
  | some handle => (t.handles.lookup handle).map (· ++ suffix)

/-- What may stand before a node, in either order: the number of its anchor, and its tag. -/
structure Properties where
  anchor : Option Nat := none
  tag : Option (List UInt8) := none
deriving Repr, Inhabited

/-- An anchor, if one follows. -/
def anchorReader (p : Properties) : TapeReader Properties := fun t =>
  match t.ahead with
  | .anchor name :: _ =>
      let (number, t) := t.next.addAnchor name
      some ({ p with anchor := some number }, t)
  | _ => some (p, t)

/-- A tag, if one follows. -/
def tagReader (p : Properties) : TapeReader Properties := fun t =>
  match t.ahead with
  | .tag handle suffix :: _ => do
      let tag ← tagOf? handle suffix t
      return ({ p with tag := some tag }, t.next)
  | _ => some (p, t)

/-- What stands before a node. -/
def propertiesReader : TapeReader Properties := fun t => do
  match t.ahead with
  | .anchor _ :: _ =>
      let (p, t) ← anchorReader {} t
      tagReader p t
  | _ =>
      let (p, t) ← tagReader {} t
      anchorReader p t

/-- The node with its anchor. -/
def Properties.mark (p : Properties) (node : Yaml) : Yaml :=
  match p.anchor with
  | none => node
  | some number => .anchored number node

/-- The tag of a scalar that is written; an exclamation mark alone is no tag. -/
def Properties.scalarTag (p : Properties) : Option (List UInt8) :=
  if p.tag = some "!".toUTF8.toList then none else p.tag

/-- One more item behind a dash, put before `items`, which are in reverse; `stops` are the tokens
before which nothing is written. -/
def blockItem (stops : List Token) (node : TapeReader Yaml) (items : List Yaml) (t : Tape) :
    Option (Option (List Yaml × Tape)) :=
  if t.isAt [.item] then do
    let (item, t) ← unlessAt stops node t.next
    return some (item :: items, t)
  else some none

/-- The items of a sequence by indentation. -/
def blockSequence (limit : Nat) (node : TapeReader Yaml) : TapeReader Yaml := fun t => do
  let (items, t) ← repeatFrom (blockItem [.item, .closeBlock] node) limit [] t
  return (.sequence items.reverse, ← pass? .closeBlock t)

/-- The items of a sequence that is indented no further than the key before it. -/
def unindentedSequence (limit : Nat) (node : TapeReader Yaml) : TapeReader Yaml := fun t => do
  let (items, t) ← repeatFrom (blockItem [.item, .key, .value, .closeBlock] node) limit [] t
  return (.sequence items.reverse, t)

/-- One more entry, put before `entries`, which are in reverse. -/
def blockEntry (node : TapeReader Yaml) (entries : List (Yaml × Yaml)) (t : Tape) :
    Option (Option (List (Yaml × Yaml) × Tape)) :=
  if t.isAt [.key] then do
    let stops := [.key, .value, .closeBlock]
    let (key, t) ← unlessAt stops node t.next
    let (value, t) ← entryValue stops node t
    return some ((key, value) :: entries, t)
  else some none

/-- The entries of a mapping by indentation. -/
def blockMapping (limit : Nat) (node : TapeReader Yaml) : TapeReader Yaml := fun t => do
  let (entries, t) ← repeatFrom (blockEntry node) limit [] t
  return (.mapping entries.reverse, ← pass? .closeBlock t)

/-- Parts of a collection in brackets up to its closing bracket, with commas between them. A comma
may stand behind the last. -/
def bracketed {α : Type} (limit : Nat) (collection : Collection) (part : TapeReader α) :
    TapeReader (List α) := fun t => do
  let close := Token.closeBracket collection
  let step (parts : List α) (t : Tape) : Option (Option (List α × Tape)) := do
    if t.isAt [close] then return none
    let t ← if parts.isEmpty then some t else pass? .comma t
    if t.isAt [close] then return some (parts, t)
    let (part, t) ← part t
    return some (part :: parts, t)
  let (parts, t) ← repeatFrom step limit [] t
  return (parts.reverse, ← pass? close t)

/-- An item of a sequence in brackets. A key makes it a mapping of one entry; where no key is
written the token behind it is passed over. -/
def bracketedItem (node : TapeReader Yaml) : TapeReader Yaml := fun t =>
  if t.isAt [.key] then do
    let t := t.next
    let (key, t) ←
      if t.isAt [.value, .comma, .closeBracket .sequence] then some (missing, t.next) else node t
    let (value, t) ← entryValue [.comma, .closeBracket .sequence] node t
    return (.mapping [(key, value)], t)
  else node t

/-- An entry of a mapping in brackets. A node that is no key is one without a value. -/
def bracketedEntry (node : TapeReader Yaml) : TapeReader (Yaml × Yaml) := fun t =>
  if t.isAt [.key] then do
    let (key, t) ← unlessAt [.value, .comma, .closeBracket .mapping] node t.next
    let (value, t) ← entryValue [.comma, .closeBracket .mapping] node t
    return ((key, value), t)
  else do
    let (key, t) ← node t
    return ((key, missing), t)

/-- Which nodes may stand at a place: any inside brackets, by indentation, or behind a key also a
sequence that is indented no further. -/
inductive Surroundings where
  | bracketed
  | block
  | entry
deriving Repr, Inhabited, DecidableEq

/-- What follows the properties of a node; `inner` reads the nodes inside it. Properties alone are
those of an empty scalar. A collection has at most `limit` parts. -/
def contentReader (limit : Nat) (inner : Surroundings → TapeReader Yaml)
    (around : Surroundings) (p : Properties) : TapeReader Yaml := fun t =>
  match t.ahead, around with
  | .item :: _, .entry => unindentedSequence limit (inner .block) t
  | .scalar style text :: _, _ => some (.scalar p.scalarTag style text, t.next)
  | .openBracket .sequence :: _, _ => do
      let (items, t) ← bracketed limit .sequence (bracketedItem (inner .bracketed)) t.next
      return (.sequence items, t)
  | .openBracket .mapping :: _, _ => do
      let (entries, t) ← bracketed limit .mapping (bracketedEntry (inner .bracketed)) t.next
      return (.mapping entries, t)
  | .openBlock .sequence :: _, .block => blockSequence limit (inner .block) t.next
  | .openBlock .sequence :: _, .entry => blockSequence limit (inner .block) t.next
  | .openBlock .mapping :: _, .block => blockMapping limit (inner .entry) t.next
  | .openBlock .mapping :: _, .entry => blockMapping limit (inner .entry) t.next
  | _, _ =>
      if p.anchor.isSome || p.tag.isSome then some (.scalar p.tag .plain "", t) else none

/-- A node with at most `levels` levels of nesting, and at most as many parts in each collection.
The number of tokens is enough for both. -/
def nodeReader (levels : Nat) (around : Surroundings) : TapeReader Yaml := fun t =>
  match levels with
  | 0 => none
  | levels + 1 =>
      match t.ahead with
      | .reference name :: _ => (t.anchors.lookup name).map (.reference ·, t.next)
      | _ => do
          let (p, t) ← propertiesReader t
          let (node, t) ← contentReader levels (nodeReader levels) around p t
          return (p.mark node, t)

/-- The directives before a document: whether a version is named, the meanings of handles, and the
tokens that follow. At most one version is named, and each handle is given one meaning. -/
def directives? (hasVersion : Bool) (handles : List (String × List UInt8)) :
    List Token → Option (List (String × List UInt8) × List Token)
  | .version major minor :: rest =>
      if !hasVersion && major == 1 && (minor == 1 || minor == 2) then directives? true handles rest
      else none
  | .tagHandle handle meaning :: rest =>
      if (handles.lookup handle).isNone then
        directives? hasVersion ((handle, meaning) :: handles) rest
      else none
  | tokens => some (handles, tokens)

/-- The meanings of the handles that need no directive. -/
def standardHandles : List (String × List UInt8) :=
  [("!", "!".toUTF8.toList), ("!!", "tag:yaml.org,2002:".toUTF8.toList)]

/-- The node of a document from tokens, and those behind it. A document that begins with a mark may
be empty, and only such a document has directives. -/
def documentReader (tokens : List Token) : Option (Yaml × List Token) := do
  let (handles, rest) ← directives? false [] tokens
  let node (ahead : List Token) : Option (Yaml × List Token) := do
    let (root, t) ← nodeReader (tokens.length + 1) .block ⟨ahead, handles ++ standardHandles, []⟩
    return (root, t.ahead)
  match tokens, rest with
  | [], _ => return (missing, [])
  | _, .documentStart :: rest =>
      match rest with
      | [] => return (missing, [])
      | .documentEnd :: _ => return (missing, rest)
      | _ => node rest
  | .version _ _ :: _, _ => none
  | .tagHandle _ _ :: _, _ => none
  | _, _ => node tokens

/-- The document that a text holds; marks that close it may follow. -/
def ofText? (text : String) : Option Yaml := do
  let (root, rest) ← documentReader (← Outline.tokens? text)
  if rest.all (· == .documentEnd) then some root else none

end Yaml

end QasmDiagram
