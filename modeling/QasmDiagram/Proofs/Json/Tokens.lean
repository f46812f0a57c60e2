/-
Module: QasmDiagram.Proofs.Json.Tokens
Purpose: The pieces that JSON texts are written with are cut back into their tokens: escaped
  strings, words, whole numbers below two to the power 52, punctuation and blanks.
Trusted boundary: none
Main exports: Json.stringTail?_escape, Json.toList_writeString, Json.bareValue?_natural,
  Json.Separate, Json.Cuts, Json.cuts_blanks, Json.cuts_punctuation, Json.cuts_string,
  Json.cuts_word
-/
import QasmDiagram.Json.Reader
import QasmDiagram.Proofs.Binary64.Numeral
import QasmDiagram.Proofs.Derivative

namespace QasmDiagram

namespace Json

/-! ### Strings -/

/-- The two digits that a control character is written with are its number. -/
theorem hexNumber?_control : ∀ n < 32,
    hexNumber? ['0', '0', hexDigit (n / 16), hexDigit (n % 16)] = some n := by
  decide

theorem unicodeEscape?_control {n : Nat} (h : n < 32) (rest : List Char) :
    unicodeEscape? ('0' :: '0' :: hexDigit (n / 16) :: hexDigit (n % 16) :: rest) =
      some (Char.ofNat n, rest) := by
  have notHigh : ¬ (0xD800 ≤ n ∧ n < 0xDC00) := by omega
  have notLow : ¬ (0xDC00 ≤ n ∧ n < 0xE000) := by omega
  simp only [unicodeEscape?, hexNumber?_control n h, Option.bind_eq_bind, Option.bind_some,
    if_neg notHigh, if_neg notLow]

/-- A character is written as an escape of one letter, by the digits of its number, or as it is. -/
theorem escape_cases (c : Char) :
    (∃ letter, escape c = ['\\', letter] ∧ shortEscape? letter = some c) ∨
    (c.toNat < 32 ∧ escape c =
      ['\\', 'u', '0', '0', hexDigit (c.toNat / 16), hexDigit (c.toNat % 16)]) ∨
    (c ≠ '"' ∧ c ≠ '\\' ∧ ¬ c.toNat < 32 ∧ escape c = [c]) := by
  unfold escape
  split_ifs with quote backslash backspace feed newline carriage tab control
  case pos | pos | pos | pos | pos | pos | pos =>
    subst c
    exact .inl ⟨_, rfl, rfl⟩
  · exact .inr (.inl ⟨control, rfl⟩)
  · exact .inr (.inr ⟨quote, backslash, control, rfl⟩)

/-! The three ways in which a character of a string is read. -/

theorem stringTail?_quote (done rest : List Char) :
    stringTail? done ('"' :: rest) = some (done.reverse, rest) := by
  rw [stringTail?.eq_def]
  simp

theorem stringTail?_short {letter c : Char} (h : shortEscape? letter = some c)
    (done rest : List Char) :
    stringTail? done ('\\' :: letter :: rest) = stringTail? (c :: done) rest := by
  have notUnicode : letter ≠ 'u' := by
    rintro rfl
    cases h
  rw [stringTail?.eq_def]
  simp [notUnicode, h]

theorem stringTail?_unicode {c : Char} {escaped rest : List Char}
    (h : unicodeEscape? escaped = some (c, rest)) (done : List Char) :
    stringTail? done ('\\' :: 'u' :: escaped) = stringTail? (c :: done) rest := by
  rw [stringTail?.eq_def]
  simp only [Char.reduceEq, if_false, if_true]
  split
  · rename_i none
    rw [h] at none
    cases none
  · rename_i c' rest' found
    rw [h] at found
    cases found
    rfl

theorem stringTail?_plain {c : Char} (notQuote : c ≠ '"') (notBackslash : c ≠ '\\')
    (notControl : ¬ c.toNat < 32) (done rest : List Char) :
    stringTail? done (c :: rest) = stringTail? (c :: done) rest := by
  rw [stringTail?.eq_def]
  simp [notQuote, notBackslash, notControl]

/-- What is written for a character inside a string is read as that character. -/
theorem stringTail?_escape (done : List Char) (c : Char) (rest : List Char) :
    stringTail? done (escape c ++ rest) = stringTail? (c :: done) rest := by
  rcases escape_cases c with ⟨letter, written, named⟩ | ⟨control, written⟩ |
    ⟨notQuote, notBackslash, notControl, written⟩
  · rw [written]
    exact stringTail?_short named done rest
  · rw [written]
    have read := stringTail?_unicode (unicodeEscape?_control control rest) done
    rwa [Char.ofNat_toNat] at read
  · rw [written]
    exact stringTail?_plain notQuote notBackslash notControl done rest

/-- The escaped characters of a string are read up to its closing quotation mark. -/
theorem stringTail?_flatMap (done chars rest : List Char) :
    stringTail? done (chars.flatMap escape ++ '"' :: rest) =
      some (done.reverse ++ chars, rest) := by
  induction chars generalizing done with
  | nil => rw [List.flatMap_nil, List.nil_append, stringTail?_quote, List.append_nil]
  | cons c chars ih =>
      rw [List.flatMap_cons, List.append_assoc, stringTail?_escape, ih, List.reverse_cons,
        List.append_assoc, List.singleton_append]

theorem toList_foldl_push (chars : List Char) (out : String) :
    (chars.foldl String.push out).toList = out.toList ++ chars := by
  induction chars generalizing out with
  | nil => simp
  | cons c chars ih => rw [List.foldl_cons, ih, String.toList_push, List.append_assoc,
      List.singleton_append]

theorem toList_writeChars (chars : List Char) (out : String) :
    (writeChars out chars).toList = out.toList ++ chars.flatMap escape := by
  induction chars generalizing out with
  | nil => rw [writeChars, List.flatMap_nil, List.append_nil]
  | cons c chars ih =>
      rw [writeChars, ih, toList_foldl_push, List.append_assoc, List.flatMap_cons]

/-- The text of a string: its escaped characters between quotation marks. -/
theorem toList_writeString (out text : String) :
    (writeString out text).toList = out.toList ++ '"' :: (text.toList.flatMap escape ++ ['"']) := by
  rw [writeString, String.toList_push, toList_writeChars, String.toList_push]
  simp only [List.append_assoc, List.cons_append, List.nil_append]

/-! ### Words and numbers -/

/-- A digit is a digit of the patterns. -/
theorem digit_contains (c : Char) : CharSet.digit.contains c = c.isDigit := by
  simp only [CharSet.digit, CharSet.contains, List.any_cons, List.any_nil, Bool.or_false,
    Bool.bne_false, Char.isDigit]
  rfl

/-- A numeral of digits alone has the form of a number. -/
theorem numberPattern_toDigits (n : Nat) : numberPattern.Matches (Nat.toDigits 10 n) := by
  have leading : ∀ c ∈ "123456789".toList, (CharSet.mk [('1', '9')] false).contains c = true :=
    List.all_eq_true.mp rfl
  refine Pattern.matches_sequence_cons.mpr ⟨[], Nat.toDigits 10 n, rfl, .right .empty, ?_⟩
  refine Pattern.matches_sequence_cons.mpr ⟨Nat.toDigits 10 n, [], (List.append_nil _).symm, ?_,
    (Pattern.acceptsEmpty_iff _).mp (by decide)⟩
  rcases toDigits_cases n with zero | ⟨c, rest, digits, first⟩
  · rw [zero]
    exact .left (Pattern.matches_word.mpr rfl)
  · have later : ∀ d ∈ rest, CharSet.digit.contains d = true := by
      intro d hd
      rw [digit_contains]
      exact isDigit_of_mem_toDigits (n := n) (by rw [digits]; exact List.mem_cons_of_mem c hd)
    rw [digits]
    exact .right (.both (.one (leading c first)) (Pattern.matches_many_one.mpr later))

/-- A text of digits is none that holds another character. -/
theorem digits_ne {digits word : List Char} {c : Char} (h : ∀ d ∈ digits, d.isDigit = true)
    (hc : c ∈ word) (notDigit : c.isDigit = false) : digits ≠ word := by
  rintro rfl
  rw [h c hc] at notDigit
  cases notDigit

/-- The numeral of a number below two to the power 52 is read as that number. -/
theorem bareValue?_natural {n : Nat} (h : n < 2 ^ 52) :
    bareValue? (toString (n : Int)).toList = some (.integer n) := by
  have text : (toString (n : Int)).toList = Nat.toDigits 10 n := Nat.toList_repr
  have digits : ∀ c ∈ Nat.toDigits 10 n, c.isDigit = true := fun c hc => isDigit_of_mem_toDigits hc
  have accepted : numberPattern.accepts (Nat.toDigits 10 n) = true :=
    Pattern.accepts_iff.mpr (numberPattern_toDigits n)
  have fits : overflows (Nat.toDigits 10 n) = false := by
    obtain ⟨rank, read⟩ := Binary64.ofText?_toDigits h
    rw [overflows, read]
  have noPoint : ((Nat.toDigits 10 n).any fun c => c == '.' || c == 'e' || c == 'E') = false := by
    rw [List.any_eq_false]
    intro c hc point
    have digit := digits c hc
    simp only [Bool.or_eq_true, beq_iff_eq] at point
    rcases point with (rfl | rfl) | rfl <;> cases digit
  have value : wholeValue (Nat.toDigits 10 n) = n := by
    unfold wholeValue
    split
    · rename_i sign
      exact absurd sign (digits_ne digits List.mem_cons_self rfl)
    · rw [decimalValue_toDigits]
  have notNull : Nat.toDigits 10 n ≠ "null".toList := digits_ne (c := 'n') digits (by decide) rfl
  have notTrue : Nat.toDigits 10 n ≠ "true".toList := digits_ne (c := 't') digits (by decide) rfl
  have notFalse : Nat.toDigits 10 n ≠ "false".toList := digits_ne (c := 'f') digits (by decide) rfl
  have notZero : Nat.toDigits 10 n ≠ ['-', '0'] := digits_ne (c := '-') digits (by decide) rfl
  rw [text, bareValue?, if_neg notNull, if_neg notTrue, if_neg notFalse, accepted, fits, noPoint,
    value]
  simp [notZero]

/-! ### Cutting -/

/-- A rest before which a word or number ends: it does not open with one of their characters. -/
def Separate (rest : List Char) : Prop :=
  ∀ c ∈ rest.head?, isBare c = false

/-- A word or number takes nothing from such a rest. -/
theorem Separate.takeWhile_dropWhile {rest : List Char} (h : Separate rest) :
    rest.takeWhile isBare = [] ∧ rest.dropWhile isBare = rest := by
  cases rest with
  | nil => exact ⟨rfl, rfl⟩
  | cons c rest =>
      have ends : isBare c = false := h c rfl
      rw [List.takeWhile_cons, List.dropWhile_cons, ends]
      exact ⟨rfl, rfl⟩

/-- The text is cut into the tokens, whatever stands before it and before every rest that `behind`
admits. -/
def Cuts (behind : List Char → Prop) (text : List Char) (tokens : List Token) : Prop :=
  ∀ done rest, behind rest →
    tokensOnto? done (text ++ rest) = tokensOnto? (tokens.reverse ++ done) rest

/-! Blanks, punctuation and the characters of words have none in common. -/

theorem bare_of_blank {c : Char} (h : isBlank c = true) : isBare c = false := by
  simp only [isBlank, Bool.or_eq_true, beq_iff_eq] at h
  rcases h with ((rfl | rfl) | rfl) | rfl <;> rfl

theorem bare_of_punctuation {c : Char} {token : Token} (h : punctuation? c = some token) :
    isBare c = false ∧ isBlank c = false := by
  unfold punctuation? at h
  split_ifs at h <;> subst c <;> exact ⟨rfl, rfl⟩

section

variable {behind : List Char → Prop} {text : List Char}

/-- Blanks are no tokens. -/
theorem cuts_blanks (h : ∀ c ∈ text, isBlank c = true) : Cuts behind text [] := by
  intro done rest _
  induction text with
  | nil => rfl
  | cons c text ih =>
      rw [List.cons_append, tokensOnto?.eq_def]
      simp only [h c (by simp), if_true]
      exact ih fun d hd => h d (List.mem_cons_of_mem c hd)

/-- A character of punctuation is its token. -/
theorem cuts_punctuation {c : Char} {token : Token} (h : punctuation? c = some token) :
    Cuts behind [c] [token] := by
  intro done rest _
  have notQuote : c ≠ '"' := by
    rintro rfl
    cases h
  rw [List.singleton_append, tokensOnto?.eq_def]
  simp [(bare_of_punctuation h).2, notQuote, h]

/-- A string between its quotation marks is one token. -/
theorem cuts_string (chars : List Char) :
    Cuts behind ('"' :: (chars.flatMap escape ++ ['"']))
      [.scalar (.string (String.ofList chars))] := by
  intro done rest _
  have read : stringTail? [] (chars.flatMap escape ++ '"' :: rest) = some (chars, rest) :=
    stringTail?_flatMap [] chars rest
  have notBlank : isBlank '"' = false := rfl
  rw [List.cons_append, List.append_assoc, List.singleton_append, tokensOnto?.eq_def]
  simp only [notBlank, if_true, Bool.false_eq_true, if_false]
  split
  · rename_i none
    rw [read] at none
    cases none
  · rename_i value after found
    rw [read] at found
    cases found
    rfl

/-- A word or number is one token where it ends. -/
theorem cuts_word {value : Json} (h : bareValue? text = some value) (nonempty : text ≠ [])
    (bare : ∀ c ∈ text, isBare c = true) : Cuts Separate text [.scalar value] := by
  intro done rest separate
  obtain ⟨c, text, rfl⟩ := List.exists_cons_of_ne_nil nonempty
  have bareHead := bare c List.mem_cons_self
  have notBlank : isBlank c = false := by
    by_contra blank
    rw [bare_of_blank (Bool.eq_true_of_not_eq_false blank)] at bareHead
    cases bareHead
  have notQuote : c ≠ '"' := by
    rintro rfl
    cases bareHead
  have notPunctuation : punctuation? c = none := by
    by_contra token
    obtain ⟨token, found⟩ := Option.ne_none_iff_exists'.mp token
    rw [(bare_of_punctuation found).1] at bareHead
    cases bareHead
  have tail : ∀ d ∈ text, isBare d = true := fun d hd => bare d (List.mem_cons_of_mem c hd)
  have taken : (text ++ rest).takeWhile isBare = text := by
    rw [List.takeWhile_append_of_pos tail, separate.takeWhile_dropWhile.1, List.append_nil]
  have left : (text ++ rest).dropWhile isBare = rest := by
    rw [List.dropWhile_append_of_pos tail, separate.takeWhile_dropWhile.2]
  rw [List.cons_append, tokensOnto?.eq_def]
  simp only [notBlank, notQuote, notPunctuation, taken, left, h, if_false, Bool.false_eq_true]
  rfl

end

end Json

end QasmDiagram
