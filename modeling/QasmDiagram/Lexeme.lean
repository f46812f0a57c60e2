/-
Module: QasmDiagram.Lexeme
Purpose: The division of a source text into segments by longest match, and the tokens that remain
  once the layout between them is set aside. Nothing is lost: the texts of the segments are the
  source, and every lexeme keeps the layout before it and the line on which it starts.
Trusted boundary: none
Main exports: Rule.longest, Segment, Segment.ofText, Lexeme, Lexeme.ofText, Lexeme.excerpt
-/
import QasmDiagram.ParseError

namespace QasmDiagram

namespace Rule

/-- What remains of the rules after reading the character `c`; dead rules are dropped. -/
def advance (c : Char) (rules : List Rule) : List Rule :=
  rules.filterMap fun rule =>
    let next := rule.pattern.derive c
    if next.isNever then none else some { rule with pattern := next }

/-- The shape of the first rule that is complete as it stands. -/
def complete? (rules : List Rule) : Option Shape :=
  (rules.find? fun rule => rule.pattern.acceptsEmpty).map Rule.shape

/-- Reads on while some rule is alive. `taken` characters have been read, and `best` is the longest
match among them. -/
def longestFrom (rules : List Rule) (taken : Nat) (best : Option (Nat × Shape)) :
    List Char → Option (Nat × Shape)
  | [] => best
  | c :: rest =>
      let alive := advance c rules
      if alive.isEmpty then best
      else
        match complete? alive with
        | some shape => longestFrom alive (taken + 1) (some (taken + 1, shape)) rest
        | none => longestFrom alive (taken + 1) best rest

/-- The length and shape of the longest non-empty beginning of a text that a rule matches. -/
def longest (rules : List Rule) (text : List Char) : Option (Nat × Shape) :=
  longestFrom rules 0 none text

end Rule

/-- A stretch of source text with what it is. -/
structure Segment where
  text : List Char
  shape : Shape
deriving Repr, Inhabited, DecidableEq

namespace Segment

/-- The extent and shape of the first segment of the non-empty text `c :: rest`, as the number of
characters it takes from `rest`. A character that opens no match is invalid alone. -/
def extent (c : Char) (rest : List Char) : Nat × Shape :=
  match Rule.longest Rule.table (c :: rest) with
  | some (length, shape) => (length - 1, shape)
  | none => (0, .invalid)

/-- The segments of a text, put after those already `done` (which stand in reverse). -/
def splitOnto (done : List Segment) : List Char → List Segment
  | [] => done.reverse
  | c :: rest =>
      let first := extent c rest
      splitOnto (⟨c :: rest.take first.1, first.2⟩ :: done) (rest.drop first.1)
termination_by text => text.length
decreasing_by
  simp only [List.length_drop, List.length_cons]
  omega

/-- The division of a text into segments, each as long as the rules allow. -/
def ofText (text : List Char) : List Segment :=
  splitOnto [] text

end Segment

/-- The number of line ends in a text. -/
def lineEnds (text : List Char) : Nat :=
  text.count '\n'

/-- A token with its text, the layout that stands before it, and the line on which it starts. -/
structure Lexeme where
  kind : TokenKind
  text : String
  lead : String
  line : Nat
deriving Repr, Inhabited, DecidableEq

namespace Lexeme

/-- Sets the layout aside. `line` is the line of the next segment, `lead` the layout met since the
last token, `done` the tokens so far in reverse. The answer holds the line on which the text ends.
The first invalid segment decides a failure. -/
def gather (done : List Lexeme) (lead : List Char) (line : Nat) :
    List Segment → Except ParseError (List Lexeme × Nat)
  | [] => .ok (done.reverse, line)
  | segment :: rest =>
      let after := line + lineEnds segment.text
      match segment.shape with
      | .layout => gather done (lead ++ segment.text) after rest
      | .token kind =>
          let lexeme : Lexeme := ⟨kind, String.ofList segment.text, String.ofList lead, line⟩
          gather (lexeme :: done) [] after rest
      | .invalid => .error (.invalidToken line (String.ofList segment.text))

/-- The tokens of a source text and the line on which the text ends. -/
def ofText (source : String) : Except ParseError (List Lexeme × Nat) :=
  gather [] [] 1 (Segment.ofText source.toList)

/-- The source text from the first of the given lexemes to the end of the last. -/
def excerpt : List Lexeme → String
  | [] => ""
  | first :: others =>
      others.foldl (fun text lexeme => text ++ lexeme.lead ++ lexeme.text) first.text

end Lexeme

end QasmDiagram
