/-
Module: QasmDiagram.Text.Lowercase
Purpose: Lower-casing of text. Each letter has one lower-case letter, with two exceptions: the
  capital dotted I becomes two characters, and a capital sigma that ends a word becomes the final
  form of its letter.
Trusted boundary: none
Main exports: lowercase
-/
import QasmDiagram.Text.CaseTable

namespace QasmDiagram

namespace Lowercase

/-- Whether a character lies in one of the given ranges of code points. -/
def inRanges (ranges : List (Nat × Nat)) (c : Char) : Bool :=
  ranges.any fun range => decide (range.1 ≤ c.toNat) && decide (c.toNat ≤ range.2)

/-- The lower-case letter of a character by itself. -/
def letter (c : Char) : Char :=
  match CaseTable.lowerRuns.find? fun run =>
      run.first ≤ c.toNat && c.toNat ≤ run.last && (c.toNat - run.first) % run.step == 0 with
  | some run => Char.ofNat ((c.toNat : Int) + run.distance).toNat
  | none => c

/-- Whether the first character that is not passed over has case. -/
def meetsLetter (text : List Char) : Bool :=
  match text.dropWhile (inRanges CaseTable.ignorableRanges) with
  | [] => false
  | c :: _ => inRanges CaseTable.casedRanges c

/-- Lower-cases a text, given the characters `before` it in reverse, and puts the result after those
already `done` (which stand in reverse). -/
def lowerOnto (done before : List Char) : List Char → List Char
  | [] => done.reverse
  | c :: rest =>
      let result :=
        if c = 'İ' then ['i', '\u0307']
        else if c = 'Σ' then if meetsLetter before && !meetsLetter rest then ['ς'] else ['σ']
        else [letter c]
      lowerOnto (result.reverse ++ done) (c :: before) rest

end Lowercase

/-- A text in lower case. -/
def lowercase (text : String) : String :=
  String.ofList (Lowercase.lowerOnto [] [] text.toList)

end QasmDiagram
