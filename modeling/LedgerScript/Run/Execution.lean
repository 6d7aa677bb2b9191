/-
# Execution of scripts

A script is read, and its forms are evaluated one after another in the root scope; the first fault
ends the run.  `run` does this on a fresh arena.  `interpret` does the same and reports a script
error as an outcome; a fault of the host is no outcome and is handed on.
-/
import LedgerScript.Node.Dump
import LedgerScript.Run.Evaluation

namespace LedgerScript.Run

open Eval

/-! ## 1. Forms -/

/-- Turns the depth fault into the script error that reports it. -/
def reportDepth {α : Type} (computation : Eval α) : Eval α :=
  tryCatch computation fun
    | .tooDeep => fail .depthLimit
    | fault => throw fault

/-- The record of a form that is evaluated next: its dump, or that it is nested too deeply. -/
def dumpRecord (form : Node) : Except HostFault Record :=
  match form.dump Node.dumpDepth with
  | .ok dump => dump.checked.map .form
  | .error (.script error) => .ok (.formNotDumped error)
  | .error (.host fault) => .error fault

/-- Logs the form that is evaluated next. -/
def logForm (form : Node) : Eval Unit := do log (← ofHost (dumpRecord form))

/-- Logs the scopes as they are. -/
def logScopes : Eval Unit := do log (.scopes (← ofHost (← get).arena.snapshot))

/-- Evaluates one form of a script in the root scope. -/
def executeForm (setting : Setting) (form : Node) : Eval Value := do
  if setting.config.trace then logForm form
  let value ← reportDepth (evaluate setting setting.config.maxDepth form Arena.rootId)
  log (.finalValue (← ofHost value.shown))
  if setting.config.trace then logScopes
  pure value

/-- Evaluates the forms of a script in the root scope. -/
def execute (setting : Setting) (forms : List Node) : Eval (List Value) :=
  forms.mapM (executeForm setting)

/-! ## 2. Scripts -/

/-- The forms of a script. -/
def readScript (script : String) : Eval (List Node) := do
  let tokens ← ofHost (Token.ofText script)
  match Node.ofTokens tokens with
  | .error error => fail error
  | .ok forms => do
    log (.parsed forms.length tokens.length)
    pure forms

/-- Reads a script and evaluates its forms. -/
def runScript (setting : Setting) (script : String) : Eval (List Value) := do
  execute setting (← readScript script)

/-! ## 3. Runs -/

/-- The names of the accounts of a ledger that a script can write, each bound to its account. -/
def accountBindings (ledger : Ledger) : Table String Value :=
  (ledger.accounts.filter fun account => Token.isName account.address.toList).map fun account =>
    (account.address, .account account)

/-- The state that a run starts from: a root scope with some bindings and nothing else.  A run
with a listener passes on the lines that it writes. -/
def State.initial (ledger : Ledger) (bindings : Table String Value) (listener : Bool) : State :=
  { ledger
    arena := ⟨#[{ parent := none, bindings := Table.ofPairs bindings }]⟩
    sink := if listener then some [] else none }

/-- Runs a script from the start. -/
def run (setting : Setting) (script : String) (ledger : Ledger) (bindings : Table String Value)
    (listener : Bool) : EStateM.Result Fault State (List Value) :=
  runScript setting script (.initial ledger bindings listener)

/-! ## 4. Reports -/

/-- What a run came to, as hosts tell it. -/
structure Report where
  contract : Account
  /-- The values of the forms, or the error that ended the run. -/
  outcome : Except ScriptError (List Json)
  output : List String
  balances : Table String Int
  steps : Nat

namespace Report

/-- Whether every form was evaluated. -/
def success (report : Report) : Bool := report.outcome.isOk

/-- The error that ended the run, if it failed. -/
def error? (report : Report) : Option ScriptError :=
  match report.outcome with
  | .ok _ => none
  | .error error => some error

/-- The values of the forms; a failed run has none. -/
def results (report : Report) : List Json :=
  match report.outcome with
  | .ok results => results
  | .error _ => []

/-- The messages of the errors: one if the run failed. -/
def errors (report : Report) : List String := report.error?.toList.map ScriptError.message

/-- The kind of the error, if the run failed. -/
def errorKind? (report : Report) : Option ErrorKind := report.error?.map ScriptError.kind

end Report

/-- Reports an outcome in the state that the run ended in.  A ledger that does not list its accounts
is reported without balances. -/
def reportOf (setting : Setting) (lists : Bool) (outcome : Except ScriptError (List Json))
    (state : State) : Report where
  contract := setting.me
  outcome
  output := state.output
  balances := if lists then state.ledger.toPairs else []
  steps := state.steps

/-- Reports a script error, which is logged. -/
def reportError (setting : Setting) (lists : Bool) (error : ScriptError) (state : State) :
    Except HostFault Report × State :=
  let state := { state with log := state.log ++ [.failed setting.me error] }
  (.ok (reportOf setting lists (.error error) state), state)

/-- Runs a script from the start and reports the outcome, with the state at the end; `lists` says
whether the ledger lists its accounts. -/
def interpret (setting : Setting) (script : String) (ledger : Ledger)
    (bindings : Table String Value) (lists : Bool) : Except HostFault Report × State :=
  match run setting script ledger bindings false with
  | .ok values state => (.ok (reportOf setting lists (.ok (values.map Value.toJson)) state), state)
  | .error (.host fault) state => (.error fault, state)
  | .error (.script error) state => reportError setting lists error state
  | .error .tooDeep state => reportError setting lists .depthLimit state

/-- The version of the interpreter, as hosts tell it. -/
def version : String := "0.1.0"

end LedgerScript.Run
