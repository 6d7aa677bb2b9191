/-
# Values

What a form can evaluate to.  Scripts make integers, accounts, closures and nil; a host may bind
truth values and texts as well, which scripts can pass around and print and which no arithmetic
accepts.

A closure keeps the id of the scope it captured, not the scope: it means something only in the run
that made it.
-/
import LedgerScript.Json
import LedgerScript.Ledger
import LedgerScript.Node

namespace LedgerScript

/-- The id of a scope in a run's arena.  A host may write any integer; `0`, `1`, … are those that
the arena gives out. -/
abbrev ScopeId := Int

/-- A runtime value. -/
inductive Value where
  | integer (n : Int)
  /-- The value of forms that have none to give. -/
  | nil
  | account (account : Account)
  | closure (params : List String) (body : Node) (scope : ScopeId)
  /-- A truth value of the host. -/
  | truth (b : Bool)
  /-- A text of the host. -/
  | text (s : String)

namespace Value

/-- The text of a closure names its parameters only. -/
def closureText (params : List String) : String := "<closure (" ++ " ".intercalate params ++ ")>"

/-- The text that `println` writes. -/
def shown : Value → Except HostFault String
  | integer n => Text.writeInteger n
  | nil => .ok "nil"
  | account a => .ok a.address
  | closure params _ _ => .ok (closureText params)
  | truth true => .ok "True"
  | truth false => .ok "False"
  | text s => .ok s

/-- The value as reports give it: integers and nil as they are, all else as its text. -/
def toJson : Value → Json
  | integer n => .integer n
  | nil => .null
  | account a => .string a.address
  | closure params _ _ => .string (closureText params)
  | truth b => .string (if b then "True" else "False")
  | text s => .string s

/-- The texts of several values, failing with the first that cannot be written. -/
def allShown (values : List Value) : Except HostFault (List String) := values.mapM shown

end Value

end LedgerScript
