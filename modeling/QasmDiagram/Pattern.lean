/-
Module: QasmDiagram.Pattern
Purpose: Regular patterns over characters, what it means for a text to match one, and the
  derivative of a pattern, by which a reader moves through a text one character at a time.
Trusted boundary: none
Main exports: CharSet, Pattern, Pattern.Matches, Pattern.acceptsEmpty, Pattern.derive,
  Pattern.accepts
-/

namespace QasmDiagram

/-- A set of characters: those in one of the inclusive ranges, or, when complemented, all others. -/
structure CharSet where
  ranges : List (Char × Char)
  complemented : Bool
deriving Repr, Inhabited, DecidableEq

namespace CharSet

/-- The set that holds exactly the characters of `text`. -/
def of (text : String) : CharSet :=
  ⟨text.toList.map fun c => (c, c), false⟩

/-- The set that holds every character but those of `text`. -/
def except (text : String) : CharSet :=
  ⟨text.toList.map fun c => (c, c), true⟩

/-- Membership of a character. -/
def contains (set : CharSet) (c : Char) : Bool :=
  (set.ranges.any fun range => decide (range.1 ≤ c) && decide (c ≤ range.2)) != set.complemented

/-- The union of two sets given by ranges. -/
def union (left right : CharSet) : CharSet :=
  ⟨left.ranges ++ right.ranges, false⟩

/-- The decimal digits. -/
def digit : CharSet :=
  ⟨[('0', '9')], false⟩

/-- The letters that may open a name: `a` to `z`, `A` to `Z` and the underscore. -/
def nameStart : CharSet :=
  ⟨[('a', 'z'), ('A', 'Z'), ('_', '_')], false⟩

/-- The digits of base sixteen in either case. -/
def hexDigit : CharSet :=
  ⟨[('0', '9'), ('a', 'f'), ('A', 'F')], false⟩

end CharSet

/-- A regular pattern over characters. -/
inductive Pattern where
  | never
  | empty
  | one (set : CharSet)
  | both (first second : Pattern)
  | either (left right : Pattern)
  | many (body : Pattern)
deriving Repr, Inhabited, DecidableEq

namespace Pattern

/-- The texts that match a pattern. -/
inductive Matches : Pattern → List Char → Prop where
  | empty : Matches .empty []
  | one {set c} : set.contains c = true → Matches (.one set) [c]
  | both {p q u v} : Matches p u → Matches q v → Matches (.both p q) (u ++ v)
  | left {p q u} : Matches p u → Matches (.either p q) u
  | right {p q u} : Matches q u → Matches (.either p q) u
  | stop {p} : Matches (.many p) []
  | more {p u v} : Matches p u → Matches (.many p) v → Matches (.many p) (u ++ v)

/-- Whether the empty text matches. -/
def acceptsEmpty : Pattern → Bool
  | .never => false
  | .empty => true
  | .one _ => false
  | .both p q => p.acceptsEmpty && q.acceptsEmpty
  | .either p q => p.acceptsEmpty || q.acceptsEmpty
  | .many _ => true

/-- Whether the pattern is the one that nothing matches. -/
def isNever : Pattern → Bool
  | .never => true
  | _ => false

/-- The sequence of two patterns, with the trivial ones dropped. -/
def andThen : Pattern → Pattern → Pattern
  | .never, _ => .never
  | .empty, q => q
  | p, q => if q.isNever then .never else .both p q

/-- The choice of two patterns, with the impossible ones dropped. -/
def orElse : Pattern → Pattern → Pattern
  | .never, q => q
  | p, q => if q.isNever then p else .either p q

/-- What may follow the character `c` in a text that matches. -/
def derive (c : Char) : Pattern → Pattern
  | .never => .never
  | .empty => .never
  | .one set => if set.contains c then .empty else .never
  | .both p q =>
      if p.acceptsEmpty then orElse (andThen (p.derive c) q) (q.derive c)
      else andThen (p.derive c) q
  | .either p q => orElse (p.derive c) (q.derive c)
  | .many p => andThen (p.derive c) (.many p)

/-- Whether a text matches, decided by reading it one character at a time. -/
def accepts (p : Pattern) (text : List Char) : Bool :=
  (text.foldl (fun rest c => rest.derive c) p).acceptsEmpty

/-- Exactly the given text. -/
def word (text : String) : Pattern :=
  text.toList.foldr (fun c rest => andThen (.one (CharSet.of (String.singleton c))) rest) .empty

/-- One or more times `p`. -/
def atLeastOnce (p : Pattern) : Pattern :=
  .both p (.many p)

/-- `p` or nothing. -/
def optional (p : Pattern) : Pattern :=
  .either p .empty

/-- The given patterns one after the other. -/
def sequence (parts : List Pattern) : Pattern :=
  parts.foldr .both .empty

/-- Any one of the given patterns. -/
def anyOf (choices : List Pattern) : Pattern :=
  choices.foldr .either .never

end Pattern

end QasmDiagram
