/-
# Ledgers

An account is an opaque key of the ledger.  It is told apart from every other value, so an address
can be printed and paid to, and nothing else.

A ledger holds a balance for each of its accounts, in the order in which the accounts came in; an
account it does not hold has the balance zero.  Balances are never negative: `setBalance` refuses.
The holder of a ledger may lock accounts, whose balances it then refuses to set at all.
-/
import LedgerScript.Table
import LedgerScript.Text.Decimal

namespace LedgerScript

/-- A ledger account, by its address. -/
structure Account where
  address : String
  deriving DecidableEq

/-- Balances by account. -/
structure Ledger where
  entries : Table Account Int := []
  /-- Accounts whose balance cannot be set. -/
  locked : List Account := []

namespace Ledger

/-- The balance of an account. -/
def balance (ledger : Ledger) (account : Account) : Int := (ledger.entries.get? account).getD 0

/-- The ledger with another balance for an account. -/
def setBalance (ledger : Ledger) (account : Account) (amount : Int) : Except HostFault Ledger :=
  if account ∈ ledger.locked then .error (.locked account.address)
  else if amount < 0 then do
    let shown ← Text.writeInteger amount
    .error (.negativeBalance account.address shown)
  else .ok { ledger with entries := ledger.entries.put account amount }

/-- The accounts, oldest first. -/
def accounts (ledger : Ledger) : List Account := ledger.entries.keys

/-- The sum of all balances. -/
def total (ledger : Ledger) : Int := ledger.entries.foldr (fun entry sum => entry.2 + sum) 0

/-- The balances by address, oldest first. -/
def toPairs (ledger : Ledger) : Table String Int :=
  ledger.entries.map fun entry => (entry.1.address, entry.2)

/-- The ledger with the balances of a table, set one after another. -/
def ofPairs (balances : Table String Int) : Except HostFault Ledger :=
  balances.foldlM (fun ledger entry => ledger.setBalance ⟨entry.1⟩ entry.2) {}

/-- The ledger with some accounts locked. -/
def lock (ledger : Ledger) (accounts : List Account) : Ledger := { ledger with locked := accounts }

/-! ## What setting a balance changes -/

theorem balance_of_setBalance {ledger ledger' : Ledger} {account : Account} {amount : Int}
    (h : ledger.setBalance account amount = .ok ledger') (other : Account) :
    ledger'.balance other = if account = other then amount else ledger.balance other := by
  unfold setBalance at h
  split at h
  · cases h
  · split at h
    · cases hw : Text.writeInteger amount <;> (rw [hw] at h; cases h)
    · cases h
      simp only [balance, Table.get?_put]
      split <;> rfl

theorem locked_of_setBalance {ledger ledger' : Ledger} {account : Account} {amount : Int}
    (h : ledger.setBalance account amount = .ok ledger') : ledger'.locked = ledger.locked := by
  unfold setBalance at h
  split at h
  · cases h
  · split at h
    · cases hw : Text.writeInteger amount <;> (rw [hw] at h; cases h)
    · cases h; rfl

end Ledger

end LedgerScript
