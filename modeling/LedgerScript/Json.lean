/-
# JSON values and their text

Members of an object keep the order in which they were written.  Integers are exact and unbounded;
a number written with a point or an exponent is kept as a decimal of its own kind, because a
request may ask for an integer.  Words for numbers that are not finite are read and never written.

The text is pure ASCII: every other character is escaped by its UTF-16 units.  `compact` puts a
value on one line, `pretty` puts every item on a line of its own, indented by two blanks a level.
-/
import LedgerScript.HostFault
import LedgerScript.Text.Decimal
import LedgerScript.Text.Quoted

namespace LedgerScript

/-- A JSON value. -/
inductive Json where
  | null
  | bool (b : Bool)
  | integer (n : Int)
  /-- The number `mantissa * 10 ^ exponent`, written with a point or an exponent. -/
  | decimal (mantissa exponent : Int)
  /-- An infinite number, or none at all. -/
  | notFinite
  | string (s : String)
  | array (items : List Json)
  | object (members : List (String × Json))

namespace Json

/-! ## 1. Strings -/

/-- One UTF-16 unit as an escape. -/
def unitEscape (unit : Nat) : List Char := '\\' :: 'u' :: Text.hexDigits 4 unit

/-- A character inside a JSON string. -/
def escapeChar (c : Char) : List Char :=
  if c = '"' ∨ c = '\\' then ['\\', c]
  else if c = '\n' then ['\\', 'n']
  else if c = '\r' then ['\\', 'r']
  else if c = '\t' then ['\\', 't']
  else if c = '\x08' then ['\\', 'b']
  else if c = '\x0c' then ['\\', 'f']
  else if 0x20 ≤ c.toNat ∧ c.toNat < 0x7F then [c]
  else if c.toNat < 0x10000 then unitEscape c.toNat
  else
    let offset := c.toNat - 0x10000
    unitEscape (0xD800 + offset / 0x400) ++ unitEscape (0xDC00 + offset % 0x400)

/-- A JSON string literal. -/
def literal (s : String) : String :=
  String.ofList ('"' :: s.toList.flatMap escapeChar ++ ['"'])

/-! ## 2. Text on one line -/

mutual

/-- The text of a value on one line, with a blank after each comma and colon. -/
def compact : Json → String
  | .null => "null"
  | .bool true => "true"
  | .bool false => "false"
  | .integer n => toString n
  | .decimal mantissa exponent => s!"{mantissa}e{exponent}"
  | .notFinite => "NaN"
  | .string s => literal s
  | .array items => "[" ++ ", ".intercalate (compactItems items) ++ "]"
  | .object members => "\x7b" ++ ", ".intercalate (compactMembers members) ++ "\x7d"

/-- The texts of the items of an array. -/
def compactItems : List Json → List String
  | [] => []
  | item :: rest => compact item :: compactItems rest

/-- The texts of the members of an object. -/
def compactMembers : List (String × Json) → List String
  | [] => []
  | (key, value) :: rest => (literal key ++ ": " ++ compact value) :: compactMembers rest

end

/-! ## 3. Text over several lines -/

/-- The start of a line at some level. -/
def newline (level : Nat) : String := "\n" ++ String.ofList (List.replicate (2 * level) ' ')

/-- Brackets around parts that stand on lines of their own. -/
def block (opening closing : String) (level : Nat) (parts : List String) : String :=
  if parts.isEmpty then opening ++ closing
  else opening ++ newline (level + 1) ++ ("," ++ newline (level + 1)).intercalate parts
    ++ newline level ++ closing

mutual

/-- The text of a value that starts at some level of indentation. -/
def prettyAt (level : Nat) : Json → String
  | .array items => block "[" "]" level (prettyItems (level + 1) items)
  | .object members => block "\x7b" "\x7d" level (prettyMembers (level + 1) members)
  | atom => compact atom

/-- The texts of the items of an array, at their own level. -/
def prettyItems (level : Nat) : List Json → List String
  | [] => []
  | item :: rest => prettyAt level item :: prettyItems level rest

/-- The texts of the members of an object, at their own level. -/
def prettyMembers (level : Nat) : List (String × Json) → List String
  | [] => []
  | (key, value) :: rest =>
    (literal key ++ ": " ++ prettyAt level value) :: prettyMembers level rest

end

/-- The text of a value over several lines. -/
def pretty (value : Json) : String := prettyAt 0 value

/-! ## 4. What cannot be written -/

mutual

/-- The values inside a value that are no array and no object, in the order of the text. -/
def atoms : Json → List Json
  | .array items => atomsOfItems items
  | .object members => atomsOfMembers members
  | atom => [atom]

/-- The atoms of the items of an array. -/
def atomsOfItems : List Json → List Json
  | [] => []
  | item :: rest => atoms item ++ atomsOfItems rest

/-- The atoms of the members of an object. -/
def atomsOfMembers : List (String × Json) → List Json
  | [] => []
  | (_, value) :: rest => atoms value ++ atomsOfMembers rest

end

/-- An integer that is too long to be written. -/
def tooLong? : Json → Option Int
  | .integer n => if Text.isWritable n then none else some n
  | _ => none

/-- A value that is about to be written; an integer that is too long is the host's fault. -/
def checked (value : Json) : Except HostFault Json :=
  if value.atoms.all fun atom => atom.tooLong?.isNone then .ok value else .error .integerTooLong

end Json

end LedgerScript
