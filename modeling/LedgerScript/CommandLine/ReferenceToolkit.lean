/-
# A toolkit for command lines

One toolkit that commands can be built on.  The words of a command line are options, the values of
options, and plain arguments, in any order; after `--` all words are plain.  A long option takes its
value from behind an equals sign or from the next word.  Short options can be written together, and
the first that takes a value takes the rest of the word, or the next word if nothing is left.

Values are checked in a fixed order: the options that are given, in the order of their first
appearance, then the script, then the options that are missing, then arguments left over.  The first
mistake is the one told, and the program ends with exit code two.  Lines are written without control
sequences.
-/
import LedgerScript.CommandLine.Commands
import LedgerScript.Text.ControlSequence
import LedgerScript.Text.Similarity

namespace LedgerScript.CommandLine

/-! ## 1. Mistakes -/

/-- What can be wrong with a command line. -/
inductive UsageError where
  | missingCommand
  /-- An unknown command, and known ones that it resembles. -/
  | noSuchCommand (name : String) (similar : List String)
  /-- An unknown option, and known ones that it resembles. -/
  | noSuchOption (name : String) (similar : List String)
  | valueMissing (option : String)
  | valueUnwanted (option : String)
  | scriptMissing
  | contractMissing
  | scriptNotFound (path : String)
  | scriptIsDirectory (path : String)
  | maxStepsNotInteger (text : String)
  | badBalance (message : String)
  | unexpected (arguments : List String)
  deriving DecidableEq

/-- What is suggested in place of an unknown name. -/
def suggestion : List String → String
  | [] => ""
  | [name] => " Did you mean " ++ Text.quote name ++ "?"
  | names => " (Did you mean one of: " ++ ", ".intercalate (names.map Text.quote) ++ "?)"

/-- The text of a mistake. -/
def UsageError.message : UsageError → String
  | missingCommand => "Missing command."
  | noSuchCommand name similar =>
    "No such command " ++ Text.quote name ++ "." ++ suggestion similar
  | noSuchOption name similar => "No such option " ++ Text.quote name ++ "." ++ suggestion similar
  | valueMissing option => "Option " ++ Text.quote option ++ " requires an argument."
  | valueUnwanted option => "Option " ++ Text.quote option ++ " does not take a value."
  | scriptMissing => "Missing argument 'SCRIPT'."
  | contractMissing => "Missing option '--contract' / '-c'."
  | scriptNotFound path =>
    "Invalid value for 'SCRIPT': File " ++ Text.quote path ++ " does not exist."
  | scriptIsDirectory path =>
    "Invalid value for 'SCRIPT': File " ++ Text.quote path ++ " is a directory."
  | maxStepsNotInteger text =>
    "Invalid value for '--max-steps': " ++ Text.quote text ++ " is not a valid integer."
  | badBalance message => s!"Invalid value for '--balance' / '-b': {message}"
  | unexpected arguments =>
    (if arguments.length = 1 then "Got unexpected extra argument ("
      else "Got unexpected extra arguments (") ++ " ".intercalate arguments ++ ")"

/-! ## 2. Options and arguments -/

/-- The options of the program. -/
inductive Knob where
  | contract
  | balance
  | jsonOutput
  | maxSteps
  | legacy
  | trace
  | verbose
  | help
  deriving DecidableEq

namespace Knob

/-- The long and the short name of an option. -/
def names : Knob → String × Option Char
  | contract => ("--contract", some 'c')
  | balance => ("--balance", some 'b')
  | jsonOutput => ("--json-output", some 'j')
  | maxSteps => ("--max-steps", none)
  | legacy => ("--legacy", none)
  | trace => ("--trace", none)
  | verbose => ("--verbose", some 'v')
  | help => ("--help", none)

/-- Whether an option takes a value; the others are flags. -/
def takesValue : Knob → Bool
  | contract | balance | maxSteps => true
  | _ => false

end Knob

/-- The words of a command line, told apart: each option with its value, in the order given, and the
plain arguments. -/
structure Arguments where
  options : List (Knob × String) := []
  plain : List String := []

/-- What one word that starts with a dash gives: options that are complete, and at the end perhaps
one that takes its value from the next word, with its name as written. -/
structure OptionWord where
  complete : List (Knob × String) := []
  waiting : Option (Knob × String) := none

/-- A long option; `value` is what stands behind its equals sign. -/
def longOption (known : List Knob) (name : String) (value : Option String) :
    Except UsageError OptionWord :=
  match known.find? (·.names.1 == name) with
  | none => .error (.noSuchOption name (Text.similarWords name (known.map (·.names.1))))
  | some knob =>
    match knob.takesValue, value with
    | true, some v => .ok { complete := [(knob, v)] }
    | true, none => .ok { waiting := some (knob, name) }
    | false, some _ => .error (.valueUnwanted name)
    | false, none => .ok { complete := [(knob, "")] }

/-- Short options written together. -/
def shortOptions (known : List Knob) : List Char → Except UsageError OptionWord
  | [] => .ok {}
  | c :: rest =>
    match known.find? (·.names.2 == some c) with
    | none => .error (.noSuchOption (String.ofList ['-', c]) [])
    | some knob =>
      if knob.takesValue then
        if rest.isEmpty then .ok { waiting := some (knob, String.ofList ['-', c]) }
        else .ok { complete := [(knob, String.ofList rest)] }
      else do
        let word ← shortOptions known rest
        .ok { word with complete := (knob, "") :: word.complete }

/-- Whether a word is read as an option. -/
def isOptionWord (word : String) : Bool :=
  match word.toList with
  | '-' :: _ :: _ => true
  | _ => false

/-- Reads a word that starts with a dash. -/
def readOptionWord (known : List Knob) (word : String) : Except UsageError OptionWord :=
  match word.toList with
  | '-' :: '-' :: _ =>
    let name := word.toList.takeWhile (· != '=')
    let value := match word.toList.drop name.length with
      | [] => none
      | _ :: value => some (String.ofList value)
    longOption known (String.ofList name) value
  | letters => shortOptions known letters.tail

/-- Tells the words of a command line apart. -/
def readArguments (known : List Knob) : List String → Except UsageError Arguments
  | [] => .ok {}
  | word :: rest =>
    if word = "--" then .ok { plain := rest }
    else if isOptionWord word then do
      let read ← readOptionWord known word
      match read.waiting, rest with
      | none, rest =>
        let more ← readArguments known rest
        .ok { more with options := read.complete ++ more.options }
      | some (_, name), [] => .error (.valueMissing name)
      | some (knob, _), value :: rest =>
        let more ← readArguments known rest
        .ok { more with options := read.complete ++ (knob, value) :: more.options }
    else do
      let more ← readArguments known rest
      .ok { more with plain := word :: more.plain }

/-! ## 3. Single values -/

/-- How the program ends when it carries out no command. -/
inductive Ending where
  | help
  /-- Nothing is asked for: the help is shown, and counts as a mistake. -/
  | nothing
  | usage (error : UsageError)
  | host (fault : HostFault)

/-- A mistake of the user ends the program. -/
instance : MonadLift (Except UsageError) (Except Ending) where
  monadLift result := result.mapError .usage

/-- The options of the `run` command as far as they have been read. -/
structure Gathered extends RunOptions where
  contract : Option String := none

/-- Takes over the values given for an option. -/
def Gathered.set (readItems : List String → Except String (Table String Int)) (gathered : Gathered)
    (knob : Knob) (values : List String) : Except UsageError Gathered :=
  match knob with
  | .contract => .ok { gathered with contract := values.getLast? }
  | .balance =>
    match readItems values with
    | .ok balances => .ok { gathered with balances }
    | .error message => .error (.badBalance message)
  | .maxSteps =>
    let text := values.getLastD ""
    match Text.readInteger text with
    | some n => .ok { gathered with maxSteps := n }
    | none => .error (.maxStepsNotInteger text)
  | .jsonOutput => .ok { gathered with json := true }
  | .legacy => .ok { gathered with legacy := true }
  | .trace => .ok { gathered with trace := true }
  | .verbose => .ok { gathered with verbose := true }
  | .help => .ok gathered

/-- The options that are given, in the order of their first appearance, with all their values. -/
def groupOptions (given : List (Knob × String)) : Table Knob (List String) :=
  (Table.ofPairs given).keys.map fun knob =>
    (knob, (given.filter (·.1 == knob)).map Prod.snd)

/-- The script argument, which has to name a file. -/
def scriptArgument (files : Files) : List String → Except Ending String
  | [] => .error (.usage .scriptMissing)
  | path :: _ =>
    if path.toList.contains '\x00' then .error (.host .nullInPath)
    else
      match files path with
      | none => .error (.usage (.scriptNotFound path))
      | some .directory => .error (.usage (.scriptIsDirectory path))
      | some (.file _) => .ok path

/-- Refuses arguments that are left over. -/
def noneLeft (arguments : List String) : Except UsageError Unit :=
  if arguments.isEmpty then .ok () else .error (.unexpected arguments)

/-! ## 4. Commands -/

/-- Whether the help of a command is asked for, which goes before all else. -/
def asksHelp (arguments : Arguments) : Bool := arguments.options.any (·.1 == .help)

/-- The options of the `run` command. -/
def runKnobs : List Knob :=
  [.contract, .balance, .jsonOutput, .maxSteps, .legacy, .trace, .verbose, .help]

/-- `run SCRIPT --contract NAME ...`. -/
def readRun (readItems : List String → Except String (Table String Int)) (files : Files)
    (words : List String) : Except Ending Request := do
  let arguments ← readArguments runKnobs words
  if asksHelp arguments then throw .help
  let groups := groupOptions arguments.options
  let gathered ← groups.foldlM
    (fun gathered given => gathered.set readItems given.1 given.2) ({} : Gathered)
  let path ← scriptArgument files arguments.plain
  match gathered.contract with
  | none => throw (.usage .contractMissing)
  | some contract =>
    -- Balances are read also where none are given.
    let gathered ← if Knob.balance ∈ groups.keys then pure gathered
      else gathered.set readItems .balance []
    noneLeft (arguments.plain.drop 1)
    return .run path contract gathered.toRunOptions

/-- A command whose only argument is a script. -/
def readScriptCommand (files : Files) (request : String → Request) (words : List String) :
    Except Ending Request := do
  let arguments ← readArguments [.help] words
  if asksHelp arguments then throw .help
  let path ← scriptArgument files arguments.plain
  noneLeft (arguments.plain.drop 1)
  return request path

/-- `version`. -/
def readVersion (words : List String) : Except Ending Request := do
  let arguments ← readArguments [.help] words
  if asksHelp arguments then throw .help
  noneLeft arguments.plain
  return .version

/-- The words from the command on, and whether the program's own help is asked for before it. -/
def commandWords : List String → Except UsageError (Bool × List String)
  | [] => .ok (false, [])
  | word :: rest =>
    if word = "--" then .ok (false, rest)
    else if isOptionWord word then do
      let _ ← readOptionWord [.help] word
      let (_, words) ← commandWords rest
      .ok (true, words)
    else .ok (false, word :: rest)

/-- The names of the commands. -/
def commandNames : List String := ["run", "parse", "tokenize", "version"]

/-- How the program ends on an unknown command.  It can look like an option behind `--`, and is read
as one then. -/
def readUnknown (command : String) (words : List String) : Except Ending Request := do
  match ← commandWords (command :: words) with
  | (true, _) => throw .help
  | (false, _) => throw (.usage (.noSuchCommand command (Text.similarWords command commandNames)))

/-- What a command line asks for. -/
def readWords (readItems : List String → Except String (Table String Int)) (files : Files)
    (words : List String) : Except Ending Request := do
  if words.isEmpty then throw .nothing
  match ← commandWords words with
  | (true, _) => throw .help
  | (false, []) => throw (.usage .missingCommand)
  | (false, "run" :: rest) => readRun readItems files rest
  | (false, "parse" :: rest) => readScriptCommand files .parse rest
  | (false, "tokenize" :: rest) => readScriptCommand files .tokenize rest
  | (false, "version" :: rest) => readVersion rest
  | (false, name :: rest) => readUnknown name rest

/-! ## 5. The toolkit -/

/-- The help of the program: how it is called, and what its commands do. -/
def helpText : String := "\n".intercalate [
  "Usage: main [OPTIONS] COMMAND [ARGS]...",
  "",
  "  SmartLang CLI - ledger smart contract interpreter.",
  "",
  "Options:",
  "  --help  Show this message and exit.",
  "",
  "Commands:",
  "  parse     Print the AST of a script as JSON.",
  "  run       Execute a SmartLang script against an in-memory ledger.",
  "  tokenize  Print one KIND TEXT line per token.",
  "  version   Show version info."]

/-- What is sent for a line: the line without control sequences, and its end. -/
def echoLine (line : String) : String := Text.dropSequences line ++ "\n"

/-- What the program has written when it ends without a command. -/
def Ending.outcome : Ending → Outcome
  | help => { stdout := echoLine helpText }
  | nothing => { exitCode := 2, stderr := echoLine helpText }
  | usage error => { exitCode := 2, stderr := echoLine s!"Error: {error.message}" }
  | host fault => Outcome.endedBy {} fault

/-- A toolkit to run the program with. -/
def referenceToolkit : Toolkit where
  read readItems files words := (readWords readItems files words).mapError Ending.outcome
  echo := echoLine

end LedgerScript.CommandLine
