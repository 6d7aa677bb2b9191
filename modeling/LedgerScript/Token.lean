/-
# Tokens

A script is a row of tokens.  A fragment of text without blanks is classified by its characters
alone: the two parentheses, a row of ASCII digits, a row of ASCII word characters, anything else.
A number keeps its text beside its value, because leading zeros are part of the text.

Text is cut into lines.  In each line the comment is dropped, blanks are set around parentheses,
and the line is cut at blanks; what remains is classified.  A comment runs from a semicolon to the
end of the line, and nothing but a line feed ends a line.
-/
import LedgerScript.Text.Decimal

namespace LedgerScript

/-- The kinds of tokens. -/
inductive TokenKind where
  | openParen
  | closeParen
  | number
  | identifier
  | symbol
  deriving DecidableEq

/-- The name under which a kind is listed. -/
def TokenKind.label : TokenKind → String
  | openParen => "PAREN_OPEN"
  | closeParen => "PAREN_CLOSE"
  | number => "NUMBER"
  | identifier => "IDENTIFIER"
  | symbol => "SYMBOL"

/-- A classified fragment of script text. -/
inductive Token where
  | openParen
  | closeParen
  | number (text : String) (value : Int)
  | identifier (text : String)
  | symbol (text : String)
  deriving DecidableEq

namespace Token

/-- The kind of a token. -/
def kind : Token → TokenKind
  | openParen => .openParen
  | closeParen => .closeParen
  | number _ _ => .number
  | identifier _ => .identifier
  | symbol _ => .symbol

/-- The fragment that a token stands for. -/
def text : Token → String
  | openParen => "("
  | closeParen => ")"
  | number text _ => text
  | identifier text => text
  | symbol text => text

/-- The value of a number. -/
def value? : Token → Option Int
  | number _ value => some value
  | _ => none

/-! ## 1. Classification -/

/-- A word character: an ASCII letter, an ASCII digit or the underscore. -/
def isWordChar (c : Char) : Bool := c.isAlphanum || c == '_'

/-- A fragment that is read as a number. -/
def isNumeral (fragment : List Char) : Bool := !fragment.isEmpty && fragment.all Char.isDigit

/-- A fragment of word characters. -/
def isWord (fragment : List Char) : Bool := !fragment.isEmpty && fragment.all isWordChar

/-- A name: a fragment of word characters that is not a numeral. -/
def isName (fragment : List Char) : Bool := isWord fragment && !isNumeral fragment

/-- The token of a fragment; it fails only on a numeral with too many digits. -/
def ofFragment (fragment : List Char) : Except HostFault Token :=
  if fragment = ['('] then .ok .openParen
  else if fragment = [')'] then .ok .closeParen
  else if isNumeral fragment then do
    let value ← Text.readDigits fragment
    .ok (.number (String.ofList fragment) value)
  else if isWord fragment then .ok (.identifier (String.ofList fragment))
  else .ok (.symbol (String.ofList fragment))

/-! ## 2. From text to tokens -/

/-- A line up to its comment. -/
def dropComment (line : List Char) : List Char := line.takeWhile (· != ';')

/-- A character with blanks around it if it is a parenthesis. -/
def padParen (c : Char) : List Char := if c = '(' ∨ c = ')' then [' ', c, ' '] else [c]

/-- The fragments of a line, each to be classified on its own. -/
def lineFragments (line : List Char) : List (List Char) :=
  Text.fragments ((dropComment line).flatMap padParen)

/-- The tokens of a text, in order; the leftmost numeral that is too long is the one reported. -/
def ofText (text : String) : Except HostFault (List Token) :=
  ((Text.lines text.toList).flatMap lineFragments).mapM ofFragment

end Token

end LedgerScript
