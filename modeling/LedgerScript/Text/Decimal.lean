/-
# Decimal text of integers

Integers are unbounded, but their decimal text is not: a text of more than `digitLimit` digits is
neither read nor written.  Reading counts leading zeros, writing does not count the sign.

Script text admits ASCII digits only (`readDigits`).  Amounts given by a user are read more
leniently (`readInteger`): blanks around, one sign, digits of any script, and single underscores
between digits.  The characters of the Unicode class Nd stand in runs of ten, from the digit zero
to the digit nine of one script, so the class is given by its zeros.
-/
import LedgerScript.HostFault
import LedgerScript.Text.Blank

namespace LedgerScript.Text

/-! ## 1. Writing -/

-- Irreducible, so that no proof computes the power for the digit limit on its way.
/-- A power of ten: the least number with more than so many digits. -/
@[irreducible]
def powerOfTen (digits : Nat) : Nat := Nat.pow 10 digits

/-- Whether an integer is short enough to be written. -/
def isWritable (n : Int) : Bool := decide (n.natAbs < powerOfTen digitLimit)

/-- The decimal text of an integer. -/
def writeInteger (n : Int) : Except HostFault String :=
  if isWritable n then .ok (toString n) else .error .integerTooLong

/-! ## 2. Reading ASCII digits -/

/-- The number that a row of digit values stands for. -/
def ofDigits (digits : List Nat) : Nat := digits.foldl (fun n d => 10 * n + d) 0

/-- The number written by ASCII digits. -/
def readDigits (digits : List Char) : Except HostFault Nat :=
  if digits.length ≤ digitLimit then .ok (ofDigits (digits.map fun c => c.toNat - 48))
  else .error (.textTooLong digits.length)

/-! ## 3. Digits of all scripts -/

/-- The digit zero of every script that has decimal digits in Unicode 14. -/
def digitZeros : List Nat :=
  [0x0030, 0x0660, 0x06F0, 0x07C0, 0x0966, 0x09E6, 0x0A66, 0x0AE6, 0x0B66, 0x0BE6, 0x0C66,
   0x0CE6, 0x0D66, 0x0DE6, 0x0E50, 0x0ED0, 0x0F20, 0x1040, 0x1090, 0x17E0, 0x1810, 0x1946,
   0x19D0, 0x1A80, 0x1A90, 0x1B50, 0x1BB0, 0x1C40, 0x1C50, 0xA620, 0xA8D0, 0xA900, 0xA9D0,
   0xA9F0, 0xAA50, 0xABF0, 0xFF10, 0x104A0, 0x10D30, 0x11066, 0x110F0, 0x11136, 0x111D0,
   0x112F0, 0x11450, 0x114D0, 0x11650, 0x116C0, 0x11730, 0x118E0, 0x11950, 0x11C50, 0x11D50,
   0x11DA0, 0x16A60, 0x16AC0, 0x16B50, 0x1D7CE, 0x1D7D8, 0x1D7E2, 0x1D7EC, 0x1D7F6, 0x1E140,
   0x1E2F0, 0x1E950, 0x1FBF0]

/-- The value of a decimal digit of any script. -/
def digitValue? (c : Char) : Option Nat :=
  (digitZeros.find? fun base => decide (base ≤ c.toNat ∧ c.toNat < base + 10)).map (c.toNat - ·)

/-- An ASCII digit has its usual value. -/
theorem digitValue?_of_isDigit (c : Char) (h : c.isDigit = true) :
    digitValue? c = some (c.toNat - 48) := by
  have hc : 48 ≤ c.toNat ∧ c.toNat < 58 := by
    simp [Char.isDigit, UInt32.le_iff_toNat_le] at h
    have : c.toNat = c.val.toNat := rfl
    omega
  simp [digitValue?, digitZeros, hc]

/-! ## 4. Reading an integer written by hand -/

/-- The blanks that may stand around an integer: all but the information separators. -/
def isMargin (c : Char) : Bool := isBlank c && !inBlocks [(0x1C, 0x1F)] c.toNat

/-- A text without its outer characters of a class. -/
def trim (outer : Char → Bool) (text : List Char) : List Char :=
  ((text.dropWhile outer).reverse.dropWhile outer).reverse

/-- The sign in front of a text, and the rest. -/
def takeSign : List Char → Bool × List Char
  | '-' :: rest => (true, rest)
  | '+' :: rest => (false, rest)
  | text => (false, text)

/-- The values of digits that stand alone or in groups joined by single underscores. -/
def groupedDigits? (text : List Char) : Option (List Nat) := do
  let groups ← (splitOn (· == '_') text).mapM fun group =>
    if group.isEmpty then none else group.mapM digitValue?
  pure groups.flatten

/-- An integer as a user writes it; `none` if the text is not one, or has too many digits. -/
def readInteger (text : String) : Option Int := do
  let (negative, digits) := takeSign (trim isMargin text.toList)
  let values ← groupedDigits? digits
  if values.length ≤ digitLimit then
    let n : Int := ofDigits values
    pure (if negative then -n else n)
  else none

end LedgerScript.Text
