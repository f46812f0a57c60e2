/-
Module: QasmDiagram.Json.Reader
Purpose: Reading JSON text. The text is first cut into tokens; a machine with a stack of open arrays
  and objects then takes the tokens one at a time.
Trusted boundary: none
Main exports: Json.Token, Json.tokens?, Json.Machine, Json.Machine.step, Json.ofText?
-/
import QasmDiagram.Binary64.Text
import QasmDiagram.Json
import QasmDiagram.Pattern
import QasmDiagram.Text.Hexadecimal

namespace QasmDiagram

namespace Json

/-- The tokens of a JSON text: brackets, braces, separators and single values. -/
inductive Token where
  | openArray
  | closeArray
  | openObject
  | closeObject
  | comma
  | colon
  | scalar (value : Json)
deriving Repr, Inhabited

/-- Blanks between tokens. -/
def isBlank (c : Char) : Bool :=
  c == ' ' || c == '\t' || c == '\n' || c == '\r'

/-- The tokens that are a single character. -/
def punctuation? (c : Char) : Option Token :=
  if c = '[' then some .openArray
  else if c = ']' then some .closeArray
  else if c = '\x7b' then some .openObject
  else if c = '\x7d' then some .closeObject
  else if c = ',' then some .comma
  else if c = ':' then some .colon
  else none

/-- The character of an escape of one letter. -/
def shortEscape? (c : Char) : Option Char :=
  if c = '"' then some '"'
  else if c = '\\' then some '\\'
  else if c = '/' then some '/'
  else if c = 'b' then some '\x08'
  else if c = 'f' then some '\x0c'
  else if c = 'n' then some '\n'
  else if c = 'r' then some '\r'
  else if c = 't' then some '\t'
  else none

/-- The first character after the escaping backslash and `u`, and the rest. Two units that form a
surrogate pair are one character; a surrogate alone is none. -/
def unicodeEscape? : List Char → Option (Char × List Char)
  | a :: b :: c :: d :: rest => do
      let unit ← hexNumber? [a, b, c, d]
      if 0xD800 ≤ unit ∧ unit < 0xDC00 then
        match rest with
        | '\\' :: 'u' :: a :: b :: c :: d :: rest => do
            let low ← hexNumber? [a, b, c, d]
            if 0xDC00 ≤ low ∧ low < 0xE000 then
              some (Char.ofNat (0x10000 + (unit - 0xD800) * 0x400 + (low - 0xDC00)), rest)
            else none
        | _ => none
      else if 0xDC00 ≤ unit ∧ unit < 0xE000 then none
      else some (Char.ofNat unit, rest)
  | _ => none

/-- What `unicodeEscape?` leaves is shorter than what it was given. -/
theorem length_of_unicodeEscape? {text : List Char} {c : Char} {rest : List Char}
    (h : unicodeEscape? text = some (c, rest)) : rest.length < text.length := by
  unfold unicodeEscape? at h
  split at h
  · simp only [Option.bind_eq_bind, Option.bind_eq_some_iff] at h
    obtain ⟨unit, _, h⟩ := h
    split at h
    · split at h
      · simp only [Option.bind_eq_some_iff] at h
        obtain ⟨low, _, h⟩ := h
        split at h
        · simp only [Option.some.injEq, Prod.mk.injEq] at h
          obtain ⟨_, rfl⟩ := h
          simp only [List.length_cons]
          omega
        · simp at h
      · simp at h
    · split at h
      · simp at h
      · simp only [Option.some.injEq, Prod.mk.injEq] at h
        obtain ⟨_, rfl⟩ := h
        simp only [List.length_cons]
        omega
  · simp at h

/-- The characters of a string up to its closing quotation mark, put after those already `done`
(which stand in reverse), and the rest of the text. Control characters must be escaped. -/
def stringTail? (done : List Char) (text : List Char) : Option (List Char × List Char) :=
  match text with
  | [] => none
  | c :: rest =>
      if c = '"' then some (done.reverse, rest)
      else if c = '\\' then
        match rest with
        | [] => none
        | letter :: rest =>
            if letter = 'u' then
              match _h : unicodeEscape? rest with
              | none => none
              | some (c, after) => stringTail? (c :: done) after
            else
              match shortEscape? letter with
              | none => none
              | some c => stringTail? (c :: done) rest
      else if c.toNat < 32 then none
      else stringTail? (c :: done) rest
termination_by text.length
decreasing_by
  · have := length_of_unicodeEscape? _h
    simp only [List.length_cons]
    omega
  · simp only [List.length_cons]
    omega
  · simp only [List.length_cons]
    omega

/-- What `stringTail?` leaves is shorter than what it was given. -/
theorem length_of_stringTail? {done text value rest : List Char}
    (h : stringTail? done text = some (value, rest)) : rest.length < text.length := by
  fun_induction stringTail? done text with
  | case1 => simp at h
  | case2 =>
    simp only [Option.some.injEq, Prod.mk.injEq] at h
    simp [h.2]
  | case3 => simp at h
  | case4 => simp at h
  | case5 =>
    rename_i ih
    have := length_of_unicodeEscape? (by assumption)
    have := ih h
    simp only [List.length_cons]
    omega
  | case6 => simp at h
  | case7 =>
    rename_i ih
    have := ih h
    simp only [List.length_cons]
    omega
  | case8 => simp at h
  | case9 =>
    rename_i ih
    have := ih h
    simp only [List.length_cons]
    omega

/-- The characters of words and numbers. -/
def isBare (c : Char) : Bool :=
  c.isAlphanum || c == '+' || c == '-' || c == '.'

/-- The form of a number: no plus sign, no leading zero, digits on both sides of a point. -/
def numberPattern : Pattern :=
  .sequence [.optional (.word "-"),
    .either (.word "0") (.both (.one ⟨[('1', '9')], false⟩) (.many (.one .digit))),
    .optional (.both (.word ".") (.atLeastOnce (.one .digit))),
    .optional (.sequence [.one (.of "eE"), .optional (.one (.of "+-")),
      .atLeastOnce (.one .digit)])]

/-- Whether a number is too large for a floating-point number. -/
def overflows (text : List Char) : Bool :=
  match Binary64.ofText? text with
  | some (.infinite _) => true
  | _ => false

/-- The integer that a whole numeral with an optional sign denotes. -/
def wholeValue : List Char → Int
  | '-' :: digits => -(decimalValue digits : Int)
  | digits => decimalValue digits

/-- The value of a word or number. A number that no floating-point number reaches is refused. -/
def bareValue? (text : List Char) : Option Json :=
  if text = "null".toList then some .null
  else if text = "true".toList then some (.bool true)
  else if text = "false".toList then some (.bool false)
  else if !numberPattern.accepts text || overflows text then none
  else if (text.any fun c => c == '.' || c == 'e' || c == 'E') || text = ['-', '0'] then
    some (.real (String.ofList text))
  else some (.integer (wholeValue text))

/-- The tokens of a text, put after those already `done` (which stand in reverse). -/
def tokensOnto? (done : List Token) (text : List Char) : Option (List Token) :=
  match text with
  | [] => some done.reverse
  | c :: rest =>
      if isBlank c then tokensOnto? done rest
      else if c = '"' then
        match _h : stringTail? [] rest with
        | none => none
        | some (value, after) => tokensOnto? (.scalar (.string (String.ofList value)) :: done) after
      else
        match punctuation? c with
        | some token => tokensOnto? (token :: done) rest
        | none =>
            match bareValue? (c :: rest.takeWhile isBare) with
            | none => none
            | some value => tokensOnto? (.scalar value :: done) (rest.dropWhile isBare)
termination_by text.length
decreasing_by
  · simp
  · have := length_of_stringTail? _h
    simp only [List.length_cons]
    omega
  · simp
  · have := (List.dropWhile_sublist isBare (l := rest)).length_le
    simp only [List.length_cons]
    omega

/-- The tokens of a text. -/
def tokens? (text : String) : Option (List Token) :=
  tokensOnto? [] text.toList

/-- An array or object that is not yet closed: its members so far, in reverse, and for an object the
name of the field whose value is being read. -/
inductive Frame where
  | array (items : List Json)
  | object (fields : List (String × Json)) (name : String)
deriving Repr, Inhabited

/-- A reading machine: the open arrays and objects, innermost first, and what it expects next. -/
inductive Machine where
  | value (stack : List Frame)
  | firstItem (stack : List Frame)
  | firstField (stack : List Frame)
  | field (stack : List Frame) (fields : List (String × Json))
  | colon (stack : List Frame) (fields : List (String × Json)) (name : String)
  | done (stack : List Frame) (value : Json)
deriving Repr, Inhabited

/-- The most arrays and objects that may be open at once. -/
def openLimit : Nat := 127

namespace Machine

/-- Takes the first token of a value. -/
def beginValue (stack : List Frame) : Token → Option Machine
  | .scalar result => some (.done stack result)
  | .openArray => if stack.length < openLimit then some (.firstItem stack) else none
  | .openObject => if stack.length < openLimit then some (.firstField stack) else none
  | _ => none

/-- Takes the name of a field. -/
def beginField (stack : List Frame) (fields : List (String × Json)) : Token → Option Machine
  | .scalar (.string name) => some (.colon stack fields name)
  | _ => none

/-- A field put before earlier ones, which are in reverse; of two of one name the later stays. -/
def addField (name : String) (result : Json) (fields : List (String × Json)) :
    List (String × Json) :=
  (name, result) :: fields.filter fun entry => entry.1 != name

/-- Takes what follows a complete value. -/
def afterValue (stack : List Frame) (result : Json) (token : Token) : Option Machine :=
  match stack, token with
  | .array items :: stack, .comma => some (.value (.array (result :: items) :: stack))
  | .array items :: stack, .closeArray => some (.done stack (.array (result :: items).reverse))
  | .object fields name :: stack, .comma => some (.field stack (addField name result fields))
  | .object fields name :: stack, .closeObject =>
      some (.done stack (.object (addField name result fields).reverse))
  | _, _ => none

/-- Takes one token. -/
def step (machine : Machine) (token : Token) : Option Machine :=
  match machine with
  | .value stack => beginValue stack token
  | .firstItem stack =>
      match token with
      | .closeArray => some (.done stack (.array []))
      | _ => beginValue (.array [] :: stack) token
  | .firstField stack =>
      match token with
      | .closeObject => some (.done stack (.object []))
      | _ => beginField stack [] token
  | .field stack fields => beginField stack fields token
  | .colon stack fields name =>
      match token with
      | .colon => some (.value (.object fields name :: stack))
      | _ => none
  | .done stack result => afterValue stack result token

/-- Takes tokens in order. -/
def run (machine : Machine) : List Token → Option Machine
  | [] => some machine
  | token :: rest =>
      match machine.step token with
      | some machine => machine.run rest
      | none => none

end Machine

/-- The value of a JSON text. -/
def ofText? (text : String) : Option Json := do
  match ← (Machine.value []).run (← tokens? text) with
  | .done [] result => some result
  | _ => none

end Json

end QasmDiagram
