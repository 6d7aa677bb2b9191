/-
# The handlers of the service

The service executes scripts, parses them, and tells of its health.  A script that fails is reported
like any other.  The service is ready if a fixed script, which reads, calls a closure and transfers,
leaves the values and balances that it should.  Every run is made on the same host, which lets
evaluations nest to some depth.

The handlers are built on a framework that is not theirs.  It reads a request as a call of one of
them, answers those that it cannot read, and sends what a handler replies.  `respond` is the service
for any framework.
-/
import LedgerScript.Run.Execution

namespace LedgerScript.Service

/-! ## 1. Execution -/

/-- The knobs of a run, as requests give them. -/
structure ExecuteOptions where
  maxSteps : Option Int := some 10000
  legacy : Bool := false
  trace : Bool := false

/-- A request to execute a script. -/
structure ExecuteRequest where
  script : String
  contract : String
  balances : Table String Int := []
  options : Option ExecuteOptions := none

/-- What a handler returns: the body of an answer, or that it refuses, with a status and words. -/
inductive Reply where
  | body (json : Json)
  | refused (status : Nat) (detail : String)

/-- The configuration that a request asks for, on a host with some depth. -/
def ExecuteRequest.config (request : ExecuteRequest) (maxDepth : Nat) : Run.Config :=
  let options := request.options.getD {}
  { maxSteps := options.maxSteps, legacy := options.legacy, trace := options.trace, maxDepth }

/-- A report as the body of an answer.  Runs are not timed, so the time is given as zero. -/
def reportBody (report : Run.Report) : Json :=
  .object [
    ("success", .bool report.success),
    ("contract", .string report.contract.address),
    ("results", .array report.results),
    ("output", .array (report.output.map .string)),
    ("balances", .object (report.balances.map fun entry => (entry.1, .integer entry.2))),
    ("steps", .integer report.steps),
    ("execution_time_ms", .integer 0),
    ("error", if report.errors.isEmpty then .null else .string ("; ".intercalate report.errors)),
    ("error_kind", match report.errorKind? with | none => .null | some k => .string k.name)]

/-- Executes a script on a ledger of its own. -/
def executeScript (maxDepth : Nat) (request : ExecuteRequest) : Except HostFault Reply :=
  if request.balances.any (·.2 < 0) then .ok (.refused 422 "Balances cannot be negative")
  else do
    let ledger ← Ledger.ofPairs request.balances
    let setting : Run.Setting := { me := ⟨request.contract⟩, config := request.config maxDepth }
    let report ← (Run.interpret setting request.script ledger (Run.accountBindings ledger) true).1
    return .body (reportBody report)

/-! ## 2. Parsing -/

/-- What is told of a script that is parsed. -/
def parseBody (valid : Bool) (tokens : Nat) (forms : List Json) (errors : List ScriptError) :
    Json :=
  .object [
    ("valid", .bool valid),
    ("token_count", .integer tokens),
    ("forms", .array forms),
    ("errors", .array (errors.map fun error => .string (error.kind.name ++ ": " ++ error.message)))]

/-- Parses a script.  Forms that are nested too deeply to be dumped are valid and left out. -/
def parseScript (script : String) : Except HostFault Reply := do
  let tokens ← Token.ofText script
  let count := tokens.length
  match Node.ofTokens tokens with
  | .error error => return .body (parseBody false count [] [error])
  | .ok forms =>
    match Node.dumpForest Node.dumpDepth forms with
    | .error (.script error) => return .body (parseBody true count [] [error])
    | .error (.host fault) => throw fault
    | .ok dumps => return .body (parseBody true count dumps [])

/-! ## 3. Health -/

/-- How the service runs scripts. -/
abbrev Runner :=
  Run.Setting → String → Ledger → Table String Value →
    EStateM.Result Run.Fault Run.State (List Value)

/-- The interpreter as a runner. -/
def interpreter : Runner := fun setting script ledger bindings =>
  Run.run setting script ledger bindings false

/-- The script that is run to see whether the service is ready. -/
def readinessScript : String :=
  "(define f (lambda (n) (* n 2))) ($transfer (f 3) sink) ($balance $me)"

/-- Whether the last value is an integer. -/
def endsWith (values : List Value) (n : Int) : Bool :=
  match values.getLast? with
  | some (.integer m) => m == n
  | _ => false

/-- Whether the script comes out as it should; a script error means that it does not. -/
def isReady (runner : Runner) (maxDepth : Nat) : Except HostFault Bool := do
  let ledger ← Ledger.ofPairs [("health", 10)]
  let setting : Run.Setting := { me := ⟨"health"⟩, config := { maxDepth } }
  match runner setting readinessScript ledger [("sink", .account ⟨"sink"⟩)] with
  | .ok values state =>
    return endsWith values 4 && state.ledger.toPairs.length == 2
      && state.ledger.balance ⟨"health"⟩ == 4 && state.ledger.balance ⟨"sink"⟩ == 6
  | .error (.host fault) _ => throw fault
  | .error _ _ => return false

/-- What the service tells of itself. -/
def rootBody : Json :=
  .object [("name", .string "SmartLang API"), ("version", .string Run.version),
    ("docs", .string "/docs"), ("health", .string "/health")]

/-- What the service tells of its health. -/
def healthBody : Json :=
  .object [("status", .string "healthy"), ("version", .string Run.version),
    ("service", .string "smartlang-api")]

/-- What the service tells of its readiness. -/
def readyBody (ready : Bool) : Json :=
  .object [("ready", .bool ready), ("checks", .object [("runtime", .bool ready)])]

/-- What a server tells the service. -/
inductive LifeEvent where
  | startup
  | shutdown
  deriving DecidableEq

/-- The line that the service logs on an event. -/
def LifeEvent.logLine : LifeEvent → String
  | startup => "INFO api.main: SmartLang API starting..."
  | shutdown => "INFO api.main: SmartLang API shutting down..."

/-! ## 4. The service -/

/-- A call of a handler. -/
inductive Call where
  | root
  | health
  | ready
  | execute (request : ExecuteRequest)
  | parse (script : String)

/-- What is replied to a call. -/
def Call.reply (runner : Runner) (maxDepth : Nat) : Call → Except HostFault Reply
  | root => .ok (.body rootBody)
  | health => .ok (.body healthBody)
  | ready => (isReady runner maxDepth).map fun ready => .body (readyBody ready)
  | execute request => executeScript maxDepth request
  | parse script => parseScript script

/-- A request. -/
structure Request where
  method : String
  path : String
  body : Option Json := none

/-- An answer. -/
structure Response where
  status : Nat
  body : Json

/-- What the handlers are built on. -/
structure Framework where
  /-- The call that a request makes, or how it is answered if it makes none. -/
  read : Request → Except (Except HostFault Response) Call
  /-- How a reply is sent. -/
  send : Reply → Except HostFault Response

/-- The answer to a request. -/
def respond (framework : Framework) (runner : Runner) (maxDepth : Nat) (request : Request) :
    Except HostFault Response :=
  match framework.read request with
  | .error answer => answer
  | .ok call => call.reply runner maxDepth >>= framework.send

end LedgerScript.Service
