/-
Module: QasmDiagram.Yaml.Token
Purpose: The tokens of a document, and reading those that are no punctuation: directives, anchors
  and tags.
Trusted boundary: none
Main exports: Yaml.Token, Yaml.Token.ofDirective?, Yaml.Token.ofTag?, Yaml.anchorName?
-/
import QasmDiagram.Text.Hexadecimal
import QasmDiagram.Yaml
import QasmDiagram.Yaml.Placed

namespace QasmDiagram

namespace Yaml

/-- The two kinds of collections. -/
inductive Collection where
  | sequence
  | mapping
deriving Repr, Inhabited, DecidableEq

/-- The tokens of a document. A collection in brackets opens and closes with its brackets, and one
by indentation where its lines begin and end. A tag has a handle that stands for its beginning,
unless it is written in full. -/
inductive Token where
  | version (major minor : Nat)
  | tagHandle (handle : String) (meaning : List UInt8)
  | documentStart
  | documentEnd
  | openBlock (collection : Collection)
  | closeBlock
  | openBracket (collection : Collection)
  | closeBracket (collection : Collection)
  | item
  | comma
  | key
  | value
  | reference (name : String)
  | anchor (name : String)
  | tag (handle : Option String) (suffix : List UInt8)
  | scalar (style : ScalarStyle) (text : String)
deriving Repr, Inhabited, DecidableEq

open Placed

/-- The octet that a percent sign and two hexadecimal digits write, and the rest. -/
def octet? : List Placed → Option (UInt8 × List Placed)
  | p :: a :: b :: rest => do
      if p.char ≠ '%' then none
      let n ← hexNumber? [a.char, b.char]
      return (UInt8.ofNat n, rest)
  | _ => none

/-- How many octets a character takes in UTF-8, by its first octet. -/
def octetCount? (first : UInt8) : Option Nat :=
  if first < 0x80 then some 1
  else if first < 0xC0 then none
  else if first < 0xE0 then some 2
  else if first < 0xF0 then some 3
  else if first < 0xF8 then some 4
  else none

/-- As many further octets of a character as given, put after those in `done` (in reverse), and the
rest. -/
def furtherOctets? (count : Nat) (done : List UInt8) (text : List Placed) :
    Option (List UInt8 × List Placed) :=
  match count with
  | 0 => some (done, text)
  | count + 1 => do
      let (octet, rest) ← octet? text
      if 0x80 ≤ octet ∧ octet < 0xC0 then furtherOctets? count (octet :: done) rest else none

/-- The octets of a character that is written in octets, put after those in `done` (in reverse), and
the rest. -/
def octets? (done : List UInt8) (text : List Placed) : Option (List UInt8 × List Placed) := do
  let (first, rest) ← octet? text
  furtherOctets? ((← octetCount? first) - 1) (first :: done) rest

/-- The characters of tags; brackets and commas only if a tag is written in full. -/
def isTagPart (inFull : Bool) (p : Placed) : Bool :=
  p.isNamePart || ";/?:@&=+$.!~*'()".contains p.char || (inFull && ",[]".contains p.char)

/-- The octets of a tag or the beginning of tags, put after those in `done` (in reverse), and the
rest. -/
def tagOctets? (inFull : Bool) (done : List UInt8) (text : List Placed) :
    Option (List UInt8 × List Placed) :=
  match text with
  | [] => some (done.reverse, [])
  | p :: rest =>
      if p.char == '%' then do
        let (done, after) ← octets? done (p :: rest)
        if after.length ≤ rest.length then tagOctets? inFull done after else none
      else if isTagPart inFull p then tagOctets? inFull (UInt8.ofNat p.char.toNat :: done) rest
      else some (done.reverse, p :: rest)
termination_by text.length
decreasing_by
  · simp only [List.length_cons]
    omega
  · simp

/-- The octets of a tag up to an octet of zero, which ends it; there must be some. -/
def wholeTag? (inFull : Bool) (text : List Placed) : Option (List UInt8 × List Placed) :=
  match tagOctets? inFull [] text with
  | some (octet :: octets, rest) => some ((octet :: octets).takeWhile (· ≠ 0), rest)
  | _ => none

/-- What stands at the start of a tag up to where a handle would end: an exclamation mark, a name
that may be empty, and an exclamation mark if it closes a handle. -/
def handle? (text : List Placed) : Option (String × Bool × List Placed) :=
  match text with
  | [] => none
  | p :: rest =>
      if p.char ≠ '!' then none
      else
        let (name, rest) := Placed.name rest
        if startsWith '!' rest then some ("!" ++ name ++ "!", true, rest.drop 1)
        else some ("!" ++ name, false, rest)

/-- A tag at the start of a text and the rest, before the end of the tag is judged. It is written in
full between angle brackets, or with a handle; the handle of a single mark needs no second one, and
that mark alone is a tag in full. -/
def beginTag? (text : List Placed) : Option (Token × List Placed) := do
  if startsWith '<' (text.drop 1) then
    let (octets, rest) ← wholeTag? true (text.drop 2)
    if startsWith '>' rest then some (.tag none octets, rest.drop 1) else none
  else
    let (handle, isClosed, rest) ← handle? text
    if isClosed then
      let (suffix, rest) ← wholeTag? false rest
      return (.tag (some handle) suffix, rest)
    else
      let (octets, rest) ← tagOctets? false handle.toUTF8.toList.reverse rest
      match (octets.drop 1).takeWhile (· ≠ 0) with
      | [] => return (.tag none "!".toUTF8.toList, rest)
      | suffix => return (.tag (some "!") suffix, rest)

/-- A tag at the start of a text and the rest. White space must follow it, or a comma inside
brackets. -/
def Token.ofTag? (inBrackets : Bool) (text : List Placed) : Option (Token × List Placed) := do
  let (token, rest) ← beginTag? text
  if atGapOrEnd rest || (inBrackets && startsWith ',' rest) then some (token, rest) else none

/-- The name of an anchor and the rest. -/
def anchorName? (text : List Placed) : Option (String × List Placed) :=
  let (name, rest) := Placed.name text
  let isApart := atGapOrEnd rest || rest.head?.any fun p => "?:,]\x7d%@`".contains p.char
  if !name.isEmpty && isApart then some (name, rest) else none

/-- A number of a version, which has at most nine digits, and the rest. -/
def versionNumber? (text : List Placed) : Option (Nat × List Placed) :=
  let digits := chars (text.takeWhile fun p => p.char.isDigit)
  if digits.isEmpty || 9 < digits.length then none
  else
    some (digits.foldl (fun n c => 10 * n + (c.toNat - '0'.toNat)) 0,
      text.dropWhile fun p => p.char.isDigit)

/-- The directive that names the version of the format. -/
def versionDirective? (text : List Placed) : Option (Token × List Placed) := do
  let (major, rest) ← versionNumber? (trimStart text)
  if !startsWith '.' rest then none
  let (minor, rest) ← versionNumber? (rest.drop 1)
  return (.version major minor, rest)

/-- The directive that gives a handle of tags its meaning. -/
def handleDirective? (text : List Placed) : Option (Token × List Placed) := do
  let (handle, isClosed, rest) ← handle? (trimStart text)
  if !isClosed && handle ≠ "!" then none
  if !(rest.head?.any Placed.isBlank) then none
  let (meaning, rest) ← wholeTag? true (trimStart rest)
  if atGapOrEnd rest then some (.tagHandle handle meaning, rest) else none

/-- A directive from behind its percent sign, and what follows its line. -/
def Token.ofDirective? (text : List Placed) : Option (Token × List Placed) := do
  let (name, rest) := Placed.name text
  if !atGapOrEnd rest then none
  let (token, rest) ←
    if name = "YAML" then versionDirective? rest
    else if name = "TAG" then handleDirective? rest
    else none
  return (token, ← nextLine? rest)

end Yaml

end QasmDiagram
