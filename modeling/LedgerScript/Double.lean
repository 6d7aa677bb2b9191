/-
# Doubles

A number that a request writes with a point or an exponent has the value of the double nearest to
it.  A double is a whole number of units; the unit is a power of two, such that the number has 53
binary digits, but not smaller than the least unit of all.  Of two doubles that are equally near,
the one with an even number of units counts.  A double that is too large is not finite; its whole
number is told all the same.
-/

namespace LedgerScript.Double

/-- The number of binary digits that a double keeps. -/
def precision : Nat := 53

/-- The exponent of the least unit. -/
def leastUnit : Int := -1074

/-! ## 1. Rounding -/

/-- The whole number nearest to a quotient; of two that are equally near, the even one. -/
def roundQuotient (num den : Nat) : Nat :=
  let floor := num / den
  let twice := 2 * (num % den)
  if twice < den then floor
  else if den < twice then floor + 1
  else floor + floor % 2

/-- The exponent of the leading binary digit of a quotient. -/
def leadingExponent (num den : Nat) : Int :=
  let exponent : Int := (num.log2 : Int) - den.log2
  if den * Nat.pow 2 exponent.toNat ≤ num * Nat.pow 2 (-exponent).toNat then exponent
  else exponent - 1

/-- The double nearest to a quotient: how many units, and the exponent of the unit. -/
def nearest (num den : Nat) : Nat × Int :=
  let unit := max (leadingExponent num den + 1 - precision) leastUnit
  (roundQuotient (num * Nat.pow 2 (-unit).toNat) (den * Nat.pow 2 unit.toNat), unit)

/-! ## 2. Decimals -/

/-- Decimal exponents beyond this make a number too large or too small to matter. -/
def exponentLimit : Nat := 400

/-- The double nearest to `mantissa * 10 ^ exponent`.  An exponent out of bounds is taken at the
bound, where the double is zero or out of every range all the same. -/
def ofDecimal (mantissa : Nat) (exponent : Int) : Nat × Int :=
  let digits := mantissa.log2 + 1
  let exponent := max (-((exponentLimit + digits : Nat) : Int)) (min exponent exponentLimit)
  nearest (mantissa * Nat.pow 10 exponent.toNat) (Nat.pow 10 (-exponent).toNat)

/-- The exponent of the least power of two that is too large for a double. -/
def overflowExponent : Int := 1024

/-- Whether the double of `mantissa * 10 ^ exponent` is finite. -/
def isFinite (mantissa exponent : Int) : Bool :=
  let (units, unit) := ofDecimal mantissa.natAbs exponent
  units == 0 || decide ((units.log2 : Int) + unit < overflowExponent)

/-- The whole number that a number of units comes to, if it is one. -/
def whole? (units : Nat) (unit : Int) : Option Nat :=
  let parts := Nat.pow 2 (-unit).toNat
  if units % parts = 0 then some (units / parts * Nat.pow 2 unit.toNat) else none

/-- The whole number that `mantissa * 10 ^ exponent` stands for, if its double is one. -/
def wholeOfDecimal? (mantissa exponent : Int) : Option Int :=
  let (units, unit) := ofDecimal mantissa.natAbs exponent
  (whole? units unit).map fun n => if mantissa < 0 then -(n : Int) else n

end LedgerScript.Double
