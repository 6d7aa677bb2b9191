/-
# The arena of scopes

All scopes of a run live in one arena and are addressed by id, in the order of their making; the
root is scope `0`.  A scope has bindings of its own and, unless it is the root, a parent that the
look-up of a name goes on with.  Each scope also keeps the names it has been told to permit; calls
consult the root's alone.

A look-up that ends visits each scope at most once, so the number of scopes bounds it.
-/
import LedgerScript.Table
import LedgerScript.Value

namespace LedgerScript

/-- One scope. -/
structure Scope where
  parent : Option ScopeId
  bindings : Table String Value := []
  /-- The names that may be called, without repetition. -/
  permitted : List String := []

/-- The scopes of a run; the id of a scope is its place. -/
structure Arena where
  scopes : Array Scope

namespace Arena

/-! ## 1. Scopes -/

/-- The id of the scope that every script starts in. -/
def rootId : ScopeId := 0

/-- An arena that holds an empty root. -/
def start : Arena := ⟨#[{ parent := none }]⟩

/-- The scope with an id. -/
def scope? (arena : Arena) (id : ScopeId) : Option Scope :=
  if id < 0 then none else arena.scopes[id.toNat]?

/-- The arena with one scope changed. -/
def modify (arena : Arena) (id : ScopeId) (change : Scope → Scope) : Except HostFault Arena :=
  match arena.scope? id with
  | none => .error (.unknownScope id)
  | some _ => .ok ⟨arena.scopes.modify id.toNat change⟩

/-- The arena with a new empty scope, and the id of that scope. -/
def newScope (arena : Arena) (parent : Option ScopeId) : ScopeId × Arena :=
  (arena.scopes.size, ⟨arena.scopes.push { parent := parent }⟩)

/-! ## 2. Bindings -/

/-- Binds a name in one scope, hiding what the scopes around it bind. -/
def define (arena : Arena) (id : ScopeId) (name : String) (value : Value) :
    Except HostFault Arena :=
  arena.modify id fun scope => { scope with bindings := scope.bindings.put name value }

/-- Looks a name up from a scope on, visiting at most `bound` scopes; `none` is an unbound name. -/
def lookupWithin (arena : Arena) (name : String) :
    (bound : Nat) → Option ScopeId → Except HostFault (Option Value)
  | _, none => .ok none
  | 0, some _ => .error .endlessLookup
  | bound + 1, some id =>
    match arena.scope? id with
    | none => .error (.unknownScope id)
    | some scope =>
      match scope.bindings.get? name with
      | some value => .ok (some value)
      | none => arena.lookupWithin name bound scope.parent

/-- The value of a name in a scope or the nearest one around it that binds it. -/
def lookup (arena : Arena) (id : Option ScopeId) (name : String) :
    Except HostFault (Option Value) :=
  arena.lookupWithin name (arena.scopes.size + 1) id

/-! ## 3. Permitted names -/

/-- Adds a name to those that a scope permits. -/
def permit (arena : Arena) (id : ScopeId) (name : String) : Except HostFault Arena :=
  arena.modify id fun scope =>
    if name ∈ scope.permitted then scope
    else { scope with permitted := scope.permitted ++ [name] }

/-- The names that a scope permits. -/
def permitted (arena : Arena) (id : ScopeId) : Except HostFault (List String) :=
  match arena.scope? id with
  | none => .error (.unknownScope id)
  | some scope => .ok scope.permitted

/-! ## 4. Views -/

/-- Names in the order of their code points. -/
def sorted (names : List String) : List String := names.mergeSort fun a b => decide (a ≤ b)

/-- A scope as JSON, its names sorted. -/
def scopeJson (id : Nat) (scope : Scope) : Json :=
  .object [("scope_id", .integer id),
    ("parent_id", match scope.parent with | none => .null | some parent => .integer parent),
    ("bindings", .array ((sorted scope.bindings.keys).map .string)),
    ("permitted", .array ((sorted scope.permitted).map .string))]

/-- Every scope, in the order of ids. -/
def toJson (arena : Arena) : Json :=
  .object [("scopes", .array (arena.scopes.toList.mapIdx scopeJson))]

/-- Whether an id can be told.  A place in memory has few digits, so an id can only be too long if
the arena did not give it out. -/
def tells (arena : Arena) (id : ScopeId) : Bool := (arena.scope? id).isSome || Text.isWritable id

/-- Every scope, as JSON that is about to be written: the scopes through `Json.checked`, in every
arena that a memory holds (`snapshot_eq_checked`). -/
def snapshot (arena : Arena) : Except HostFault Json :=
  if arena.scopes.all fun scope => scope.parent.all arena.tells then .ok arena.toJson
  else .error .integerTooLong

/-- The bindings of a scope, sorted by name. -/
def bindings (arena : Arena) (id : ScopeId) : Except HostFault (Table String Value) :=
  match arena.scope? id with
  | none => .error (.unknownScope id)
  | some scope => .ok (scope.bindings.mergeSort fun a b => decide (a.1 ≤ b.1))

end Arena

end LedgerScript
