/-
# The setting and the state of a run

A run is told its knobs and the contract that it executes as.  The step limit counts evaluations,
the depth limit counts evaluations that are active at once; how deep a host can go is for the host
to say.

A run changes one state: the arena of scopes, the ledger, the lines written, the count of steps
and the log.  A fault stops the run and leaves the state as it is, so what was done before it
stays done; `Eval` is the monad of such computations.
-/
import LedgerScript.Arena
import LedgerScript.Ledger
import LedgerScript.Run.Record

namespace LedgerScript.Run

/-- The knobs of a run. -/
structure Config where
  /-- The most evaluation steps, if there is a limit. -/
  maxSteps : Option Int := some 10000
  /-- Whether calls bind arguments unevaluated in the captured scope, and `*` adds. -/
  legacy : Bool := false
  /-- Whether each form and the scopes after it are logged. -/
  trace : Bool := false
  /-- The most evaluations that may be active at once. -/
  maxDepth : Nat

/-- What stays the same during a run. -/
structure Setting where
  /-- The account that the script executes as. -/
  me : Account
  config : Config
  /-- Whether somebody listens to the log during the run; what cannot be told then ends the run. -/
  listening : Bool := false

/-- What ends a run before its end. -/
inductive Fault where
  | script (error : ScriptError)
  | host (fault : HostFault)
  /-- More evaluations are active at once than the depth limit allows. -/
  | tooDeep
  deriving DecidableEq

/-- A failure as the end of a run. -/
def Fault.ofFailure : Failure → Fault
  | .script error => .script error
  | .host fault => .host fault

/-- All that a run changes. -/
structure State where
  arena : Arena := .start
  ledger : Ledger
  /-- The lines written, oldest first. -/
  output : List String := []
  /-- The lines passed on to the listener of the run, if it has one. -/
  sink : Option (List String) := none
  /-- The evaluations counted. -/
  steps : Nat := 0
  /-- The records logged, oldest first. -/
  log : List Record := []

/-- A computation on the state that may end in a fault and keeps the state when it does. -/
abbrev Eval := EStateM Fault State

namespace Eval

/-- Ends the run with a script error. -/
def fail {α : Type} (error : ScriptError) : Eval α := throw (.script error)

/-- The result of a host's operation. -/
def ofHost {α : Type} : Except HostFault α → Eval α
  | .ok a => pure a
  | .error fault => throw (.host fault)

/-- The result of an operation that can fail in both ways. -/
def ofOutcome {α : Type} : Except Failure α → Eval α
  | .ok a => pure a
  | .error failure => throw (.ofFailure failure)

/-- Ends the run with an error that tells a text, if there is one to tell. -/
def failTelling {α : Type} (error : String → ScriptError) (text : Except HostFault String) :
    Eval α :=
  throw (.ofFailure (.telling error text))

/-! ## 1. Steps, output and log -/

/-- Counts a step; the step that goes over the limit is counted too. -/
def countStep (limit : Option Int) : Eval Unit := do
  modify fun s => { s with steps := s.steps + 1 }
  match limit with
  | none => pure ()
  | some most =>
    if most < (← get).steps then failTelling .stepLimit (Text.writeInteger most) else pure ()

/-- Writes a line, to the listener as well. -/
def writeLine (line : String) : Eval Unit :=
  modify fun s => { s with output := s.output ++ [line], sink := s.sink.map (· ++ [line]) }

/-- Adds a record to the log. -/
def log (record : Record) : Eval Unit := modify fun s => { s with log := s.log ++ [record] }

/-! ## 2. Scopes -/

/-- Applies an operation of the arena. -/
def changeArena (change : Arena → Except HostFault Arena) : Eval Unit := do
  let arena ← ofHost (change (← get).arena)
  modify fun s => { s with arena := arena }

/-- Makes a scope and returns its id. -/
def newScope (parent : Option ScopeId) : Eval ScopeId := do
  let (id, arena) := (← get).arena.newScope parent
  modify fun s => { s with arena := arena }
  pure id

/-- Binds a name in a scope. -/
def define (scope : ScopeId) (name : String) (value : Value) : Eval Unit :=
  changeArena (·.define scope name value)

/-- The value of a name, if it is bound. -/
def lookup? (scope : Option ScopeId) (name : String) : Eval (Option Value) := do
  ofHost ((← get).arena.lookup scope name)

/-- The value of a name. -/
def lookup (scope : Option ScopeId) (name : String) : Eval Value := do
  match ← lookup? scope name with
  | some value => pure value
  | none => fail (.unboundVariable name)

/-- Adds to the names that a scope permits. -/
def permit (scope : ScopeId) (name : String) : Eval Unit := changeArena (·.permit scope name)

/-- The names that a scope permits. -/
def permitted (scope : ScopeId) : Eval (List String) := do ofHost ((← get).arena.permitted scope)

/-! ## 3. The ledger -/

/-- The balance of an account. -/
def balance (account : Account) : Eval Int := do return (← get).ledger.balance account

/-- Sets the balance of an account. -/
def setBalance (account : Account) (amount : Int) : Eval Unit := do
  let ledger ← ofHost ((← get).ledger.setBalance account amount)
  modify fun s => { s with ledger := ledger }

end Eval

end LedgerScript.Run
