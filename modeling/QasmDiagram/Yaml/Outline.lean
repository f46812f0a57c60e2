/-
Module: QasmDiagram.Yaml.Outline
Purpose: Cutting a document into tokens. Indentation opens and closes collections, and a colon may
  make what stands before it on its line a key, so the tokens so far are kept together with the
  columns of the open collections and the places where a key may have begun.
Trusted boundary: none
Main exports: Outline, Outline.step, Outline.tokens?
-/
import QasmDiagram.Yaml.Scalar
import QasmDiagram.Yaml.Token

namespace QasmDiagram

open Yaml (Collection Token)

/-- A place where a key may have begun: its number among such places, where it is, and whether a key
must begin there, since entries of the open mapping stand in this column. -/
structure KeyPlace where
  number : Nat
  line : Nat
  column : Nat
  isRequired : Bool
deriving Repr, Inhabited

/-- What is found in a document: tokens, and places where a key may begin. -/
inductive Found where
  | token (token : Token)
  | keyPlace (number : Nat)
deriving Repr, Inhabited

/-- A document that is read up to some place: the text ahead, what is found so far, in reverse, and
for each place where a key may begin the tokens that turned out to belong there; the columns of the
collections that are open by indentation, innermost first; the last place where a key may have
begun, inside the innermost open bracket and before each open bracket; and whether a key may begin
here. -/
structure Outline where
  ahead : List Placed
  found : List Found := []
  keys : Array (List Token) := #[]
  columns : List Nat := []
  keyPlace : Option KeyPlace := none
  outerPlaces : List (Option KeyPlace) := []
  allowsKey : Bool := true
deriving Inhabited

namespace Outline

open Placed

/-- Whether a bracket is open. -/
def inBrackets (o : Outline) : Bool :=
  !o.outerPlaces.isEmpty

/-- Adds a token. -/
def add (token : Token) (o : Outline) : Outline :=
  { o with found := .token token :: o.found }

/-- Moves to the given text. -/
def moveTo (rest : List Placed) (o : Outline) : Outline :=
  { o with ahead := rest }

/-- Says whether a key may begin next. -/
def allowKey (allowed : Bool) (o : Outline) : Outline :=
  { o with allowsKey := allowed }

/-- What lies behind blanks, comments and ends of lines, and whether a key may begin there: outside
brackets it may on a new line. Where a key may begin, tabs are no blanks. -/
def skipGap (inBrackets allowsKey inComment : Bool) : List Placed → Bool × List Placed
  | [] => (allowsKey, [])
  | p :: rest =>
      if p.isBreak then skipGap inBrackets (allowsKey || !inBrackets) false rest
      else if inComment then skipGap inBrackets allowsKey true rest
      else if p.char == '#' then skipGap inBrackets allowsKey true rest
      else if p.char == ' ' || (p.char == '\t' && (inBrackets || !allowsKey)) then
        skipGap inBrackets allowsKey false rest
      else (allowsKey, p :: rest)

/-- Whether a colon at `p` would come too late for a key that begins at the given place: on another
line, or more than 1024 characters behind it. -/
def KeyPlace.isPast (place : KeyPlace) (p : Placed) : Bool :=
  place.line < p.line || place.column + 1024 < p.column

/-- Gives up a place whose key would have ended before `p`. `none` if a key is required there. -/
def dropPast? (p : Placed) : Option KeyPlace → Option (Option KeyPlace)
  | none => some none
  | some place =>
      if !KeyPlace.isPast place p then some (some place)
      else if place.isRequired then none
      else some none

/-- Gives up all places whose key would have ended before `p`. -/
def dropAllPast? (p : Placed) (o : Outline) : Option Outline := do
  let outer ← o.outerPlaces.mapM (dropPast? p)
  let inner ← dropPast? p o.keyPlace
  return { o with keyPlace := inner, outerPlaces := outer }

/-- Gives up the last place where a key may have begun. `none` if a key is required there. -/
def dropPlace? (o : Outline) : Option Outline :=
  match o.keyPlace with
  | some place => if place.isRequired then none else some { o with keyPlace := none }
  | none => some o

/-- Notes that a key may begin at `p`, if one may. -/
def notePlace? (p : Placed) (o : Outline) : Option Outline :=
  if o.allowsKey then do
    let o ← o.dropPlace?
    let number := o.keys.size
    let isRequired := !o.inBrackets && o.columns.head? == some p.column
    return { o with
      found := .keyPlace number :: o.found
      keys := o.keys.push []
      keyPlace := some ⟨number, p.line, p.column, isRequired⟩ }
  else some o

/-- Whether a collection that begins in the given column is not yet open. -/
def opensAt (column : Nat) (o : Outline) : Bool :=
  !o.inBrackets && o.columns.head?.all fun innermost => innermost < column

/-- Opens a collection by indentation in the given column, unless it is open. -/
def openBlock (collection : Collection) (column : Nat) (o : Outline) : Outline :=
  if o.opensAt column then
    { o with columns := column :: o.columns }.add (.openBlock collection)
  else o

/-- Closes the collections that are indented further than to the given column, or all. -/
def closeBlocks (column : Option Nat) (o : Outline) : Outline :=
  if o.inBrackets then o
  else
    let closed := o.columns.takeWhile fun inner => column.all (· < inner)
    { o with
      found := closed.map (fun _ => .token .closeBlock) ++ o.found
      columns := o.columns.drop closed.length }

/-- A mark that opens or closes a document, or another token outside all collections. -/
def outsideAll? (token : Token) (rest : List Placed) (o : Outline) : Option Outline := do
  let o ← (o.closeBlocks none).dropPlace?
  return ((o.allowKey false).add token).moveTo rest

/-- An opening bracket. -/
def openBracket? (collection : Collection) (p : Placed) (rest : List Placed) (o : Outline) :
    Option Outline := do
  let o ← o.notePlace? p
  let o := { o with outerPlaces := o.keyPlace :: o.outerPlaces, keyPlace := none }
  return ((o.allowKey true).add (.openBracket collection)).moveTo rest

/-- A closing bracket. -/
def closeBracket? (collection : Collection) (rest : List Placed) (o : Outline) :
    Option Outline := do
  let o ← o.dropPlace?
  let o :=
    match o.outerPlaces with
    | [] => o
    | place :: places => { o with keyPlace := place, outerPlaces := places }
  return ((o.allowKey false).add (.closeBracket collection)).moveTo rest

/-- A comma. -/
def comma? (rest : List Placed) (o : Outline) : Option Outline := do
  let o ← o.dropPlace?
  return ((o.allowKey true).add .comma).moveTo rest

/-- The dash of an item. -/
def item? (p : Placed) (rest : List Placed) (o : Outline) : Option Outline := do
  if !o.inBrackets && !o.allowsKey then none
  let o ← (o.openBlock .sequence p.column).dropPlace?
  return ((o.allowKey true).add .item).moveTo rest

/-- The question mark of a key. -/
def key? (p : Placed) (rest : List Placed) (o : Outline) : Option Outline := do
  if !o.inBrackets && !o.allowsKey then none
  let o ← (o.openBlock .mapping p.column).dropPlace?
  return ((o.allowKey (!o.inBrackets)).add .key).moveTo rest

/-- The colon of a value. What begins at the last place where a key may begin is the key, and it may
open a mapping. -/
def value? (p : Placed) (rest : List Placed) (o : Outline) : Option Outline :=
  match o.keyPlace with
  | some place =>
      let opens := o.opensAt place.column
      let o := { o with
        keys := o.keys.setIfInBounds place.number
          (if opens then [.openBlock .mapping, .key] else [.key])
        columns := if opens then place.column :: o.columns else o.columns
        keyPlace := none }
      some (((o.allowKey false).add .value).moveTo rest)
  | none =>
      if !o.inBrackets && !o.allowsKey then none
      else
        let o := o.openBlock .mapping p.column
        some (((o.allowKey (!o.inBrackets)).add .value).moveTo rest)

/-- A token that may begin a key, and what follows it. -/
def content? (p : Placed) (read : Option (Token × List Placed)) (o : Outline) : Option Outline := do
  let o ← o.notePlace? p
  let (token, rest) ← read
  return ((o.allowKey false).add token).moveTo rest

/-- A quoted scalar. -/
def quoted? (style : ScalarStyle) (p : Placed) (read : Option (List Char × List Placed))
    (o : Outline) : Option Outline :=
  o.content? p (read.map fun (text, rest) => (.scalar style (String.ofList text), rest))

/-- A literal or folded scalar. -/
def blockScalar? (style : ScalarStyle) (rest : List Placed) (o : Outline) : Option Outline := do
  let o ← o.dropPlace?
  let (text, rest) ← Scalar.block? (style = .folded) o.columns.head? rest
  return ((o.allowKey true).add (.scalar style (String.ofList text))).moveTo rest

/-- A plain scalar. If its line ends behind it, a key may begin next. -/
def plain? (p : Placed) (rest : List Placed) (o : Outline) : Option Outline := do
  let o ← o.notePlace? p
  let least := (o.columns.head?.map (· + 1)).getD 0
  let (text, endsLine, rest) ← Scalar.plain? o.inBrackets least [] (p :: rest)
  return ((o.allowKey endsLine).add (.scalar .plain (String.ofList text))).moveTo rest

/-- Whether a plain scalar may begin with `p` when `rest` follows. -/
def beginsPlain (inBrackets : Bool) (p : Placed) (rest : List Placed) : Bool :=
  if p.char == '-' then !(rest.head?.any Placed.isBlank)
  else if p.char == '?' || p.char == ':' then !inBrackets && !atGapOrEnd rest
  else !p.isGap && !",[]\x7b\x7d#&*!|>'\"%@`".contains p.char

/-- Reads the token that begins with `p`. -/
def take? (p : Placed) (rest : List Placed) (o : Outline) : Option Outline :=
  if p.column == 0 && p.char == '%' then do
    let (token, rest) ← Token.ofDirective? rest
    o.outsideAll? token rest
  else if atMark '-' (p :: rest) then o.outsideAll? .documentStart (rest.drop 2)
  else if atMark '.' (p :: rest) then o.outsideAll? .documentEnd (rest.drop 2)
  else if p.char == '[' then o.openBracket? .sequence p rest
  else if p.char == '\x7b' then o.openBracket? .mapping p rest
  else if p.char == ']' then o.closeBracket? .sequence rest
  else if p.char == '\x7d' then o.closeBracket? .mapping rest
  else if p.char == ',' then o.comma? rest
  else if p.char == '-' && atGapOrEnd rest then o.item? p rest
  else if p.char == '?' && (o.inBrackets || atGapOrEnd rest) then o.key? p rest
  else if p.char == ':' && (o.inBrackets || atGapOrEnd rest) then o.value? p rest
  else if p.char == '*' then
    o.content? p ((Yaml.anchorName? rest).map fun (name, rest) => (.reference name, rest))
  else if p.char == '&' then
    o.content? p ((Yaml.anchorName? rest).map fun (name, rest) => (.anchor name, rest))
  else if p.char == '!' then o.content? p (Token.ofTag? o.inBrackets (p :: rest))
  else if p.char == '|' && !o.inBrackets then o.blockScalar? .literal rest
  else if p.char == '>' && !o.inBrackets then o.blockScalar? .folded rest
  else if p.char == '\'' then o.quoted? .singleQuoted p (Scalar.singleQuoted? [] rest)
  else if p.char == '"' then o.quoted? .doubleQuoted p (Scalar.doubleQuoted? [] rest)
  else if beginsPlain o.inBrackets p rest then o.plain? p rest
  else none

/-- Moves over a gap, closes the collections that end there and reads the next token. At the end of
the document all collections end. -/
def step (o : Outline) : Option Outline :=
  let (allowsKey, ahead) := skipGap o.inBrackets o.allowsKey false o.ahead
  let o := (o.allowKey allowsKey).moveTo ahead
  match ahead with
  | [] => (o.closeBlocks none).dropPlace?
  | p :: rest => do
      let o ← o.dropAllPast? p
      (o.closeBlocks (some p.column)).take? p rest

/-- Takes at most `steps` steps to the end of the document, and the step at its end. -/
def finish? (steps : Nat) (o : Outline) : Option Outline :=
  match steps with
  | 0 => none
  | steps + 1 =>
      match o.step with
      | none => none
      | some next => if next.ahead.isEmpty then next.step else next.finish? steps

/-- The tokens that are found, with those that turned out to belong where a key may begin. -/
def tokens (o : Outline) : List Token :=
  o.found.reverse.flatMap fun
    | .token token => [token]
    | .keyPlace number => o.keys[number]?.getD []

/-- The tokens of a document. Each step takes a character at least. -/
def tokens? (text : String) : Option (List Token) := do
  let ahead ← Placed.ofText? text
  let o ← finish? (ahead.length + 1) { ahead }
  return o.tokens

end Outline

end QasmDiagram
