/-
# Balances on the command line

Each item gives one account and its balance as `NAME=AMOUNT`.  The name ends at the first equals
sign and is not empty; the amount is an integer as users write it, and not negative.  A name that is
given again keeps its place and takes the later amount.
-/
import LedgerScript.Table
import LedgerScript.Text.Decimal

namespace LedgerScript.CommandLine

/-- Why a `NAME=AMOUNT` item is refused. -/
inductive BalanceError where
  /-- There is no equals sign, or no name before it. -/
  | shape (item : String)
  | notInteger (name amount : String)
  | negative (name : String)
  deriving DecidableEq

/-- The text of a refused item. -/
def BalanceError.message : BalanceError → String
  | shape item => s!"expected NAME=AMOUNT, got '{item}'"
  | notInteger name amount => s!"amount for '{name}' is not an integer: '{amount}'"
  | negative name => s!"amount for '{name}' cannot be negative"

/-- The parts of an item before and after its first equals sign. -/
def splitItem (item : String) : Option (String × String) :=
  let name := item.toList.takeWhile (· != '=')
  match item.toList.drop name.length with
  | [] => none
  | _ :: amount => some (String.ofList name, String.ofList amount)

/-- The account and the balance of an item. -/
def readBalance (item : String) : Except BalanceError (String × Int) :=
  match splitItem item with
  | none => .error (.shape item)
  | some (name, amount) =>
    if name = "" then .error (.shape item)
    else
      match Text.readInteger amount with
      | none => .error (.notInteger name amount)
      | some n => if n < 0 then .error (.negative name) else .ok (name, n)

/-- The balances that a list of items gives; the first bad item is the one reported. -/
def readBalances (items : List String) : Except BalanceError (Table String Int) :=
  items.foldlM (fun balances item => do
    let (name, n) ← readBalance item
    pure (Table.put balances name n)) []

end LedgerScript.CommandLine
