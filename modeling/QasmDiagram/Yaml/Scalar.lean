/-
Module: QasmDiagram.Yaml.Scalar
Purpose: Reading scalars of each style. Quoted and plain scalars may run over several lines, which
  are folded: one end of a line counts as a space, of more all but the first are kept. Literal and
  folded scalars are lines that are indented alike.
Trusted boundary: none
Main exports: Scalar.singleQuoted?, Scalar.doubleQuoted?, Scalar.plain?, Scalar.block?
-/
import QasmDiagram.Text.Hexadecimal
import QasmDiagram.Yaml.Placed

namespace QasmDiagram

namespace Scalar

open Placed

/-- White space between two words as it counts. Blanks inside a line stay. At the end of a line
blanks do not count; a line feed alone is a space, and before further ends of lines it is left
out. -/
def joined (gap : List Char) : List Char :=
  match gap.filter endsLine with
  | [] => gap
  | ['\n'] => [' ']
  | '\n' :: more => more
  | ends => ends

/-- The white space at the start of a text. -/
def gapOf (text : List Placed) : List Char :=
  chars (text.takeWhile isGap)

/-- Nothing is longer than what it was cut from. -/
theorem length_dropWhile_le {α : Type} (p : α → Bool) (l : List α) :
    (l.dropWhile p).length ≤ l.length :=
  (List.dropWhile_sublist p).length_le

/-- The content of a single-quoted scalar up to its closing quote, put after what is in `done` (in
reverse), and the rest; a quote inside is written twice. -/
def singleQuoted? (done : List Char) (text : List Placed) : Option (List Char × List Placed) :=
  match text with
  | [] => none
  | p :: rest =>
      if atDocumentMark (p :: rest) then none
      else if p.char == '\'' then
        match rest with
        | [] => some (done.reverse, [])
        | q :: after =>
            if q.char == '\'' then singleQuoted? ('\'' :: done) after
            else some (done.reverse, q :: after)
      else if p.isGap then
        singleQuoted? ((joined (p.char :: gapOf rest)).reverse ++ done) (rest.dropWhile isGap)
      else singleQuoted? (p.char :: done) rest
termination_by text.length
decreasing_by
  all_goals
    have := length_dropWhile_le isGap rest
    simp_all only [List.length_cons]
    omega

/-- The character that a letter stands for behind a backslash. -/
def escaped? (letter : Char) : Option Char :=
  match letter with
  | '0' => some '\x00'
  | 'a' => some '\x07'
  | 'b' => some '\x08'
  | 't' => some '\t'
  | '\t' => some '\t'
  | 'n' => some '\n'
  | 'v' => some '\x0b'
  | 'f' => some '\x0c'
  | 'r' => some '\r'
  | 'e' => some '\x1b'
  | ' ' => some ' '
  | '"' => some '"'
  | '/' => some '/'
  | '\\' => some '\\'
  | 'N' => some '\u0085'
  | '_' => some '\u00a0'
  | 'L' => some '\u2028'
  | 'P' => some '\u2029'
  | _ => none

/-- How many hexadecimal digits follow a letter behind a backslash. -/
def hexWidth? (letter : Char) : Option Nat :=
  match letter with
  | 'x' => some 2
  | 'u' => some 4
  | 'U' => some 8
  | _ => none

/-- The character whose number hexadecimal digits write, if there are `width` of them. -/
def codePoint? (width : Nat) (digits : List Char) : Option Char := do
  let n ← hexNumber? digits
  if digits.length = width ∧ n.isValidChar then some (Char.ofNat n) else none

/-- The character that is written behind a backslash and the rest. -/
def escape? (letter : Char) (rest : List Placed) : Option (Char × List Placed) :=
  match escaped? letter, hexWidth? letter with
  | some c, _ => some (c, rest)
  | none, some width => (codePoint? width (chars (rest.take width))).map (·, rest.drop width)
  | none, none => none

/-- What `escape?` leaves is not longer than what it was given. -/
theorem length_of_escape? {letter c : Char} {rest after : List Placed}
    (h : escape? letter rest = some (c, after)) : after.length ≤ rest.length := by
  unfold escape? at h
  split at h
  · simp_all
  · rw [Option.map_eq_some_iff] at h
    obtain ⟨_, _, h⟩ := h
    simp only [Prod.mk.injEq] at h
    simp [← h.2]
  · simp at h

/-- The content of a double-quoted scalar up to its closing quote, put after what is in `done` (in
reverse), and the rest. A backslash at the end of a line takes the end of the line and the blanks
behind it away. -/
def doubleQuoted? (done : List Char) (text : List Placed) : Option (List Char × List Placed) :=
  match text with
  | [] => none
  | p :: rest =>
      if atDocumentMark (p :: rest) then none
      else if p.char == '"' then some (done.reverse, rest)
      else if p.char == '\\' then
        match rest with
        | [] => none
        | q :: rest =>
            if q.isBreak then
              doubleQuoted? (((gapOf rest).filter endsLine).reverse ++ done) (rest.dropWhile isGap)
            else
              match _h : escape? q.char rest with
              | none => none
              | some (c, after) => doubleQuoted? (c :: done) after
      else if p.isGap then
        doubleQuoted? ((joined (p.char :: gapOf rest)).reverse ++ done) (rest.dropWhile isGap)
      else doubleQuoted? (p.char :: done) rest
termination_by text.length
decreasing_by
  · have := length_dropWhile_le isGap rest
    simp only [List.length_cons]
    omega
  · have := length_of_escape? _h
    simp only [List.length_cons]
    omega
  · have := length_dropWhile_le isGap rest
    simp only [List.length_cons]
    omega
  · simp

/-- The brackets and the comma, which divide what stands inside brackets. -/
def dividesBrackets (c : Char) : Bool :=
  ",[]\x7b\x7d".contains c

/-- Whether a plain scalar ends before the character `p` when `rest` follows: before a colon that
stands apart, and inside brackets also before a bracket or comma. -/
def closesPlain (inBrackets : Bool) (p : Placed) (rest : List Placed) : Bool :=
  (p.char == ':' && atGapOrEnd rest) || (inBrackets && dividesBrackets p.char)

/-- Whether the character `p` is a colon that may not stand before `rest` inside brackets. -/
def isMisplacedColon (inBrackets : Bool) (p : Placed) (rest : List Placed) : Bool :=
  inBrackets && p.char == ':' &&
    match rest with
    | [] => false
    | q :: _ => dividesBrackets q.char || q.char == '?'

/-- Whether a plain scalar goes on behind white space with the given text. Outside brackets its
further lines are indented to the column `least` or more. -/
def continuesPlain (inBrackets : Bool) (least : Nat) (text : List Placed) : Bool :=
  match text with
  | [] => false
  | p :: rest =>
      p.char != '#' && !atDocumentMark text && (inBrackets || least ≤ p.column)
        && !closesPlain inBrackets p rest

/-- The text of a plain scalar, put after what is in `done` (in reverse), whether a line ends behind
it, and the rest behind the white space that follows it. Tabs may not indent its further lines. -/
def plain? (inBrackets : Bool) (least : Nat) (done : List Char) (text : List Placed) :
    Option (List Char × Bool × List Placed) :=
  match text with
  | [] => some (done.reverse, false, [])
  | p :: rest =>
      if p.isGap then
        let gap := p :: rest.takeWhile isGap
        let after := rest.dropWhile isGap
        let indents := gap.dropWhile fun q => !q.isBreak
        if indents.any fun q => q.char == '\t' && q.column < least then none
        else if continuesPlain inBrackets least after then
          plain? inBrackets least ((joined (chars gap)).reverse ++ done) after
        else some (done.reverse, !indents.isEmpty, after)
      else if isMisplacedColon inBrackets p rest then none
      else if closesPlain inBrackets p rest then some (done.reverse, false, p :: rest)
      else plain? inBrackets least (p.char :: done) rest
termination_by text.length
decreasing_by
  · have := length_dropWhile_le isGap rest
    simp only [List.length_cons]
    omega
  · simp

/-- What becomes of the ends of lines at the end of a literal or folded scalar: none stays, the
first stays, or all stay. -/
inductive Chomping where
  | strip
  | clip
  | keep
deriving Repr, Inhabited, DecidableEq

/-- The sign that chooses what becomes of the last ends of lines. -/
def chomping? : List Placed → Option (Chomping × List Placed)
  | [] => none
  | p :: rest =>
      if p.char == '-' then some (.strip, rest)
      else if p.char == '+' then some (.keep, rest)
      else none

/-- The digit that says how far the lines are indented, if there is one; it is not zero. -/
def increment? : List Placed → Option (Option Nat × List Placed)
  | [] => some (none, [])
  | p :: rest =>
      if p.char == '0' then none
      else if p.char.isDigit then some (some (p.char.toNat - '0'.toNat), rest)
      else some (none, p :: rest)

/-- The sign and the digit, in either order, behind the mark of a literal or folded scalar, and the
lines that follow. -/
def header? (text : List Placed) : Option (Chomping × Option Nat × List Placed) := do
  match chomping? text with
  | some (chomping, rest) =>
      let (increment, rest) ← increment? rest
      return (chomping, increment, ← nextLine? rest)
  | none =>
      let (increment, rest) ← increment? text
      match if increment.isSome then chomping? rest else none with
      | some (chomping, rest) => return (chomping, increment, ← nextLine? rest)
      | none => return (.clip, increment, ← nextLine? rest)

/-- The ends of the lines that hold nothing but indentation, put after those in `ends` (in reverse),
the column of what follows or of a later end of a line, whichever is more, and the rest. Where the
indentation is known no more than that is taken; tabs may not indent. -/
def emptyLines? (indent : Option Nat) (widest : Nat) (ends : List Char) (text : List Placed) :
    Option (List Char × Nat × List Placed) :=
  match _h : text.dropWhile fun p => p.char == ' ' && indent.all (p.column < ·) with
  | [] => some (ends.reverse, widest, [])
  | p :: rest =>
      if p.char == '\t' && indent.all (p.column < ·) then none
      else if p.isBreak then emptyLines? indent (max widest p.column) (p.char :: ends) rest
      else some (ends.reverse, max widest p.column, p :: rest)
termination_by text.length
decreasing_by
  have := length_dropWhile_le (fun p : Placed => p.char == ' ' && indent.all (p.column < ·)) text
  rw [_h] at this
  simp only [List.length_cons] at this
  omega

/-- What `emptyLines?` leaves is not longer than what it was given. -/
theorem length_of_emptyLines? {indent : Option Nat} {widest column : Nat} {ends found : List Char}
    {text after : List Placed}
    (h : emptyLines? indent widest ends text = some (found, column, after)) :
    after.length ≤ text.length := by
  fun_induction emptyLines? indent widest ends text with
  | case1 =>
    simp only [Option.some.injEq, Prod.mk.injEq] at h
    simp [← h.2.2]
  | case2 => simp at h
  | case3 widest ends text p rest shorter _ _ ih =>
    have := ih h
    have := length_dropWhile_le (fun p : Placed => p.char == ' ' && indent.all (p.column < ·)) text
    rw [shorter] at this
    simp only [List.length_cons] at this
    omega
  | case4 widest ends text p rest shorter =>
    simp only [Option.some.injEq, Prod.mk.injEq] at h
    rw [← h.2.2, ← shorter]
    exact length_dropWhile_le _ text

/-- A line of a literal or folded scalar: its text, its end, which the last may lack, and the ends
of the empty lines behind it. -/
structure BlockLine where
  text : List Char
  ending : List Char
  empty : List Char
deriving Repr, Inhabited

/-- Whether a line begins with a blank. -/
def BlockLine.isIndented (line : BlockLine) : Bool :=
  match line.text with
  | [] => false
  | c :: _ => c == ' ' || c == '\t'

/-- The lines that are indented to the column `indent`, put after those in `done` (in reverse), and
the rest. -/
def blockLines? (indent : Nat) (done : List BlockLine) (text : List Placed) :
    Option (List BlockLine × List Placed) :=
  if !(text.head?.any fun p => p.column == indent) then some (done.reverse, text)
  else
    let line := chars (text.takeWhile fun q => !q.isBreak)
    match _h : text.dropWhile fun q => !q.isBreak with
    | [] => some ((⟨line, [], []⟩ :: done).reverse, [])
    | ending :: rest =>
        match _h' : emptyLines? (some indent) 0 [] rest with
        | none => none
        | some (empty, _, after) => blockLines? indent (⟨line, [ending.char], empty⟩ :: done) after
termination_by text.length
decreasing_by
  have := length_dropWhile_le (fun q : Placed => !q.isBreak) text
  have := length_of_emptyLines? _h'
  simp_all only [List.length_cons]
  omega

/-- What stands between two lines. A folded scalar joins lines that do not begin with a blank. -/
def between (folded : Bool) (line next : BlockLine) : List Char :=
  if folded && line.ending == ['\n'] && !line.isIndented && !next.isIndented then
    if line.empty.isEmpty then [' '] else line.empty
  else line.ending ++ line.empty

/-- The text of lines. -/
def textOfLines (folded : Bool) (chomping : Chomping) : List BlockLine → List Char
  | [] => []
  | [line] =>
      match chomping with
      | .strip => line.text
      | .clip => line.text ++ line.ending
      | .keep => line.text ++ line.ending ++ line.empty
  | line :: next :: lines =>
      line.text ++ between folded line next ++ textOfLines folded chomping (next :: lines)

/-- A literal or folded scalar from behind its mark, and the rest. Its lines are indented further
than the column `parent` of the collection around it: by the given number, or else as far as the
first. -/
def block? (folded : Bool) (parent : Option Nat) (text : List Placed) :
    Option (List Char × List Placed) := do
  let (chomping, increment, text) ← header? text
  let given := increment.map (parent.getD 0 + ·)
  let (ends, widest, text) ← emptyLines? given 0 [] text
  let indent := given.getD (max widest (max 1 ((parent.map (· + 1)).getD 0)))
  let (lines, rest) ← blockLines? indent [] text
  match lines with
  | [] => return (if chomping = .keep then ends else [], rest)
  | lines => return (ends ++ textOfLines folded chomping lines, rest)

end Scalar

end QasmDiagram
