/-
# What a command does

A command writes to the two output streams and ends with an exit code: zero for success, one for a
script that fails.  A fault of the host ends the command where it arises; what was written before
stays written.

The commands are built on a toolkit that is not theirs.  It tells the words of a command line
apart, ends the program itself where it cannot make a command of them, and writes lines to the
streams.  `perform` is the program for any toolkit.
-/
import LedgerScript.CommandLine.Balances
import LedgerScript.Run.Execution

namespace LedgerScript

/-! ## 1. Script files -/

namespace ScriptFile

/-- A text with every line end written as a line feed. -/
def unifyLineEnds : List Char → List Char
  | '\r' :: '\n' :: rest => '\n' :: unifyLineEnds rest
  | '\r' :: rest => '\n' :: unifyLineEnds rest
  | c :: rest => c :: unifyLineEnds rest
  | [] => []

/-- The script that a file holds: UTF-8 text in which a line may end in a line feed, a carriage
return, or both.  A byte order mark is part of the script. -/
def script (bytes : ByteArray) : Except HostFault String :=
  match String.fromUTF8? bytes with
  | none => .error .undecodable
  | some text => .ok (String.ofList (unifyLineEnds text.toList))

end ScriptFile

namespace CommandLine

/-- What a path names. -/
inductive FileEntry where
  | file (bytes : ByteArray)
  | directory

/-- The files that a command can see. -/
abbrev Files := String → Option FileEntry

/-- The script in the file that a path names.  No path holds the null character. -/
def Files.script (files : Files) (path : String) : Except HostFault String :=
  if path.toList.contains '\x00' then .error .nullInPath
  else
    match files path with
    | none => .error (.noSuchFile path)
    | some .directory => .error (.isDirectory path)
    | some (.file bytes) => ScriptFile.script bytes

/-! ## 2. Requests and outcomes -/

/-- The options of the `run` command that need not be given. -/
structure RunOptions where
  balances : Table String Int := []
  json : Bool := false
  maxSteps : Int := 10000
  legacy : Bool := false
  trace : Bool := false
  verbose : Bool := false

/-- A command with what it is told; scripts are given by the paths of their files. -/
inductive Request where
  | version
  | tokenize (script : String)
  | parse (script : String)
  | run (script contract : String) (options : RunOptions)

/-- What a command has written, and how it ended. -/
structure Outcome where
  exitCode : Nat := 0
  stdout : String := ""
  stderr : String := ""
  /-- The fault that ended the command, if one did. -/
  fault : Option HostFault := none

/-- What the commands are built on. -/
structure Toolkit where
  /-- What some words ask for, given how the values of `--balance` are read, or how the program ends
  if they ask for help or are mistaken. -/
  read : (List String → Except String (Table String Int)) → Files → List String →
    Except Outcome Request
  /-- What a stream is sent for a line. -/
  echo : String → String

namespace Outcome

/-- The outcome with a log record added to the standard error. -/
def log (outcome : Outcome) (record : Run.Record) : Outcome :=
  { outcome with stderr := outcome.stderr ++ record.line ++ "\n" }

/-- The outcome with another exit code. -/
def exit (outcome : Outcome) (code : Nat) : Outcome := { outcome with exitCode := code }

/-- The outcome ended by a fault of the host. -/
def endedBy (outcome : Outcome) (fault : HostFault) : Outcome :=
  { outcome with exitCode := 1, fault := some fault }

/-- Goes on with the result of an operation of the host, if there is one. -/
def andThen {α : Type} (outcome : Outcome) (result : Except HostFault α) (next : α → Outcome) :
    Outcome :=
  match result with
  | .ok a => next a
  | .error fault => outcome.endedBy fault

end Outcome

section Commands

variable (toolkit : Toolkit)

/-- The outcome with a line added to the standard output. -/
def Outcome.say (outcome : Outcome) (line : String) : Outcome :=
  { outcome with stdout := outcome.stdout ++ toolkit.echo line }

/-- The outcome with several lines added to the standard output. -/
def Outcome.sayAll (outcome : Outcome) (lines : List String) : Outcome :=
  lines.foldl (fun outcome line => outcome.say toolkit line) outcome

/-- The outcome with a line added to the standard error. -/
def Outcome.complain (outcome : Outcome) (line : String) : Outcome :=
  { outcome with stderr := outcome.stderr ++ toolkit.echo line }

/-! ## 3. Reading commands -/

/-- Lists the tokens of a script, one a line. -/
def tokenizeFile (files : Files) (path : String) : Outcome :=
  Outcome.andThen {} (files.script path >>= Token.ofText) fun tokens =>
    Outcome.sayAll toolkit {} (tokens.map fun token => token.kind.label ++ " " ++ token.text)

/-- A script error, as commands tell it. -/
def errorLine (error : ScriptError) : String := s!"Error [{error.kind.name}]: {error.message}"

/-- The dumps of the forms that tokens make up. -/
def dumpsOfTokens (tokens : List Token) : Except Failure (List Json) :=
  match Node.ofTokens tokens with
  | .error error => .error (.script error)
  | .ok forms => Node.dumpForest Node.dumpDepth forms

/-- Writes the forms of a script as JSON. -/
def parseFile (files : Files) (path : String) : Outcome :=
  Outcome.andThen {} (files.script path >>= Token.ofText) fun tokens =>
    match dumpsOfTokens tokens with
    | .error (.script error) => (Outcome.complain toolkit {} (errorLine error)).exit 1
    | .error (.host fault) => Outcome.endedBy {} fault
    | .ok dumps =>
      let told := Json.object [("token_count", .integer tokens.length), ("forms", .array dumps)]
      Outcome.andThen {} told.checked fun json => Outcome.say toolkit {} json.pretty

/-! ## 4. Running -/

/-- A report as JSON.  Runs are not timed, so the time is given as zero. -/
def reportJson (report : Run.Report) : Json :=
  .object [
    ("success", .bool report.success),
    ("contract", .string report.contract.address),
    ("results", .array report.results),
    ("output", .array (report.output.map .string)),
    ("balances", .object (report.balances.map fun entry => (entry.1, .integer entry.2))),
    ("steps", .integer report.steps),
    ("errors", .array (report.errors.map .string)),
    ("error_kind", match report.errorKind? with | none => .null | some k => .string k.name),
    ("execution_time_ms", .integer 0)]

/-- A result as the line that shows it. -/
def resultLine : Json → Except HostFault String
  | .null => .ok "=> nil"
  | .string s => .ok ("=> " ++ s)
  | .integer n => (Text.writeInteger n).map ("=> " ++ ·)
  | other => .ok ("=> " ++ other.compact)

/-- Shows results, each on a line, and goes on. -/
def sayResults (next : Outcome → Outcome) (outcome : Outcome) : List Json → Outcome
  | [] => next outcome
  | result :: rest => outcome.andThen (resultLine result) fun line =>
    sayResults next (outcome.say toolkit line) rest

/-- Balances as a JSON object, sorted by address. -/
def balancesJson (balances : Table String Int) : Json :=
  .object ((balances.mergeSort fun a b => decide (a.1 ≤ b.1)).map fun entry =>
    (entry.1, .integer entry.2))

/-- Shows balances. -/
def sayBalances (balances : Table String Int) (outcome : Outcome) : Outcome :=
  outcome.andThen (balancesJson balances).checked fun json =>
    outcome.say toolkit ("Balances: " ++ json.compact)

/-- Writes a report as text. -/
def sayReport (outcome : Outcome) (report : Run.Report) : Outcome :=
  let outcome := outcome.sayAll toolkit report.output
  match report.outcome with
  | .error error => (outcome.complain toolkit (errorLine error)).exit 1
  | .ok results => sayResults toolkit (sayBalances toolkit report.balances) outcome results

/-- Writes a report as JSON. -/
def sayReportJson (outcome : Outcome) (report : Run.Report) : Outcome :=
  outcome.andThen (reportJson report).checked fun json =>
    (outcome.say toolkit json.pretty).exit (if report.success then 0 else 1)

/-- Runs a script file against a ledger of its own, on a host that lets evaluations nest to some
depth. -/
def runFile (maxDepth : Nat) (files : Files) (path contract : String) (options : RunOptions) :
    Outcome :=
  Outcome.andThen {} (files.script path) fun script =>
    Outcome.andThen {} (Ledger.ofPairs options.balances) fun ledger =>
      let setting : Run.Setting :=
        { me := ⟨contract⟩
          config :=
            { maxSteps := some options.maxSteps
              legacy := options.legacy
              trace := options.trace
              maxDepth } }
      let (result, state) := Run.interpret setting script ledger (Run.accountBindings ledger) true
      let logged : Outcome :=
        if options.verbose || options.trace then state.log.foldl Outcome.log {} else {}
      logged.andThen result fun report =>
        if options.json then sayReportJson toolkit logged report
        else sayReport toolkit logged report

/-! ## 5. All commands -/

/-- Reads the values of `--balance`; the error is what a user is told. -/
def parseBalances (items : List String) : Except String (Table String Int) :=
  (readBalances items).mapError BalanceError.message

/-- Carries out what a command line asks for. -/
def perform (maxDepth : Nat) (files : Files) (words : List String) : Outcome :=
  match toolkit.read parseBalances files words with
  | .error outcome => outcome
  | .ok .version => Outcome.say toolkit {} s!"SmartLang v{Run.version}"
  | .ok (.tokenize path) => tokenizeFile toolkit files path
  | .ok (.parse path) => parseFile toolkit files path
  | .ok (.run path contract options) => runFile toolkit maxDepth files path contract options

end Commands

end CommandLine

end LedgerScript
