/-
Module: QasmDiagram.Token
Purpose: The classes of tokens of an OpenQASM text, their names in diagnostics, and the table of
  patterns that says which texts belong to which class.
Trusted boundary: none
Main exports: Keyword, Radix, Mark, TokenKind, TokenKind.describe, Shape, Rule, Rule.table
-/
import QasmDiagram.Pattern

namespace QasmDiagram

/-- The words that are reserved by the lexical grammar itself. -/
inductive Keyword where
  | version
  | inclusion
  | qreg
  | creg
  | measure
  | ctrl
  | negctrl
  | inv
  | pow
deriving Repr, Inhabited, DecidableEq

/-- The spelling of a keyword. -/
def Keyword.text : Keyword → String
  | .version => "OPENQASM"
  | .inclusion => "include"
  | .qreg => "qreg"
  | .creg => "creg"
  | .measure => "measure"
  | .ctrl => "ctrl"
  | .negctrl => "negctrl"
  | .inv => "inv"
  | .pow => "pow"

/-- Every keyword once. -/
def Keyword.all : List Keyword :=
  [.version, .inclusion, .qreg, .creg, .measure, .ctrl, .negctrl, .inv, .pow]

/-- The bases in which an integer literal may be written. -/
inductive Radix where
  | decimal
  | binary
  | octal
  | hexadecimal
deriving Repr, Inhabited, DecidableEq

/-- Operators and punctuation with a role of their own in the grammar. -/
inductive Mark where
  | plus
  | minus
  | star
  | slash
  | percent
  | power
  | tilde
  | bang
  | equals
  | arrow
  | at
  | leftParen
  | rightParen
  | leftBracket
  | rightBracket
  | leftBrace
  | rightBrace
  | semicolon
  | colon
  | comma
deriving Repr, Inhabited, DecidableEq

/-- The spelling of a mark. -/
def Mark.text : Mark → String
  | .plus => "+"
  | .minus => "-"
  | .star => "*"
  | .slash => "/"
  | .percent => "%"
  | .power => "**"
  | .tilde => "~"
  | .bang => "!"
  | .equals => "="
  | .arrow => "->"
  | .at => "@"
  | .leftParen => "("
  | .rightParen => ")"
  | .leftBracket => "["
  | .rightBracket => "]"
  | .leftBrace => "\x7b"
  | .rightBrace => "\x7d"
  | .semicolon => ";"
  | .colon => ":"
  | .comma => ","

/-- Every mark once. -/
def Mark.all : List Mark :=
  [.plus, .minus, .star, .slash, .percent, .power, .tilde, .bang, .equals, .arrow, .at,
    .leftParen, .rightParen, .leftBracket, .rightBracket, .leftBrace, .rightBrace, .semicolon,
    .colon, .comma]

/-- The class of a token. -/
inductive TokenKind where
  | keyword (word : Keyword)
  | boolean
  | imaginary
  | float
  | integer (radix : Radix)
  | string
  | hardwareQubit
  | identifier
  | mark (m : Mark)
  | compoundAssignment
  | otherOperator
deriving Repr, Inhabited, DecidableEq

/-- How a diagnostic names the class it expected: a fixed spelling stands for itself. -/
def TokenKind.describe : TokenKind → String
  | .keyword word => word.text
  | .boolean => "boolean literal"
  | .imaginary => "imaginary literal"
  | .float => "float literal"
  | .integer _ => "integer literal"
  | .string => "string literal"
  | .hardwareQubit => "hardware qubit"
  | .identifier => "identifier"
  | .mark m => m.text
  | .compoundAssignment => "compound assignment"
  | .otherOperator => "operator"

/-- What a stretch of source text is: layout between tokens, a token, or no part of the language. -/
inductive Shape where
  | layout
  | token (kind : TokenKind)
  | invalid
deriving Repr, Inhabited, DecidableEq

/-- A pattern together with what its matches are. -/
structure Rule where
  pattern : Pattern
  shape : Shape
deriving Repr, Inhabited, DecidableEq

namespace Rule

open Pattern

/-- A digit followed by any digits and underscores. -/
def digits : Pattern :=
  both (one .digit) (many (one (CharSet.digit.union (.of "_"))))

/-- A decimal exponent: the letter, an optional sign, digits. -/
def exponent : Pattern :=
  sequence [one (.of "eE"), optional (one (.of "+-")), atLeastOnce (one .digit)]

/-- A point followed by any digits and underscores, perhaps none. -/
def fraction : Pattern :=
  both (one (.of ".")) (many (one (CharSet.digit.union (.of "_"))))

/-- A block comment up to, and without, the slash that closes it. -/
def openComment : Pattern :=
  sequence [word "/*", many (either (one (.except "*"))
    (both (atLeastOnce (one (.of "*"))) (one (.except "*/")))), many (one (.of "*"))]

/-- Blanks, line comments and closed block comments. -/
def layoutPatterns : List Pattern :=
  [atLeastOnce (one (.of " \t\r\n")),
    both (word "//") (many (one (.except "\n"))),
    sequence [word "/*", many (one (.except "*")), atLeastOnce (one (.of "*")),
      many (sequence [one (.except "/*"), many (one (.except "*")), atLeastOnce (one (.of "*"))]),
      word "/"]]

/-- The classes of literals, names and operators that have more than one spelling. -/
def openClasses : List (Pattern × TokenKind) :=
  [(anyOf [word "true", word "false"], .boolean),
    (sequence [digits, optional fraction, optional exponent, word "im"], .imaginary),
    (anyOf [sequence [digits, fraction, optional exponent],
      sequence [word ".", digits, optional exponent],
      both digits exponent], .float),
    (sequence [word "0", one (.of "xX"), atLeastOnce (one (CharSet.hexDigit.union (.of "_")))],
      .integer .hexadecimal),
    (sequence [word "0", one (.of "bB"), atLeastOnce (one (.of "01_"))], .integer .binary),
    (both (word "0o") (atLeastOnce (one ⟨[('0', '7'), ('_', '_')], false⟩)), .integer .octal),
    (digits, .integer .decimal),
    (sequence [word "\"", many (one (.except "\"")), word "\""], .string),
    (both (word "$") (atLeastOnce (one .digit)), .hardwareQubit),
    (both (one .nameStart) (many (one (CharSet.nameStart.union .digit))), .identifier),
    (anyOf (["+=", "-=", "*=", "/="].map word), .compoundAssignment),
    (anyOf
      (["==", "!=", "<=", ">=", "<<", ">>", "&&", "||", "<", ">", "&", "|", "^", "."].map word),
      .otherOperator)]

/-- A string or block comment that is never closed, which spoils the text up to its end. -/
def unterminatedPatterns : List Pattern :=
  [both (word "\"") (many (one (.except "\""))), openComment]

/-- Every rule of the lexical grammar. Of two rules that match the same text the earlier one
decides, so a keyword or truth value is not an identifier. -/
def table : List Rule :=
  layoutPatterns.map (⟨·, .layout⟩)
    ++ Keyword.all.map (fun k => ⟨word k.text, .token (.keyword k)⟩)
    ++ openClasses.map (fun entry => ⟨entry.1, .token entry.2⟩)
    ++ Mark.all.map (fun m => ⟨word m.text, .token (.mark m)⟩)
    ++ unterminatedPatterns.map (⟨·, .invalid⟩)

end Rule

end QasmDiagram
