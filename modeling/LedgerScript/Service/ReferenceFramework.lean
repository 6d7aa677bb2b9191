/-
# A framework for the service

One framework that the handlers can be built on.  A request names an endpoint by method and path.  A
line feed at the end of a path does not matter; a path that is right but for the slashes at its end
is answered by a redirection.

A field of a body is read as what its endpoint needs.  Reading is lenient where no meaning is lost:
an integer may be written as a truth value, a whole decimal or a text, a truth value as a number or
a word.  What cannot be read is a `Problem`: where it is, and of which sort.  All problems of a body
are reported, in the order of the fields.

Every answer is a status and a JSON body.  An integer in a body that is too long to be read is a
fault of the host, and so is a number that is not finite where a body would tell what was wrong.
-/
import LedgerScript.Double
import LedgerScript.Service.Handlers

namespace LedgerScript

namespace Json

/-- Whether a value is a finite number, or no number. -/
def isFinite : Json → Bool
  | .decimal mantissa exponent => Double.isFinite mantissa exponent
  | .notFinite => false
  | _ => true

/-- A value that is about to be sent; the fault is that the text of the first integer that is too
long cannot be read. -/
def readable (value : Json) : Except HostFault Json :=
  match value.atoms.findSome? tooLong? with
  | none => .ok value
  | some n => .error (.textTooLong (toString n.natAbs).length)

end Json

namespace Service

/-! ## 1. Problems -/

/-- The sorts of problems. -/
inductive ProblemSort where
  | missing
  | notText
  | notObject
  | notFields
  | notInteger
  | notWhole
  | notFinite
  | unreadableInteger
  | integerTooLong
  | tooSmall
  | notTruth
  | unreadableTruth
  deriving DecidableEq

/-- The name under which a sort is reported. -/
def ProblemSort.name : ProblemSort → String
  | missing => "missing"
  | notText => "string_type"
  | notObject => "dict_type"
  | notFields => "model_attributes_type"
  | notInteger => "int_type"
  | notWhole => "int_from_float"
  | notFinite => "finite_number"
  | unreadableInteger => "int_parsing"
  | integerTooLong => "int_parsing_size"
  | tooSmall => "greater_than_equal"
  | notTruth => "bool_type"
  | unreadableTruth => "bool_parsing"

/-- Something in a body that cannot be read. -/
structure Problem where
  /-- The path to the field, from the body inwards. -/
  path : List String
  problem : ProblemSort
  /-- What stands there; for a field that is missing, the object that it is missing from. -/
  input : Json

/-- A problem as JSON. -/
def Problem.toJson (p : Problem) : Json :=
  .object [("loc", .array (p.path.map .string)), ("type", .string p.problem.name)]

/-- What is read, or all the problems there are. -/
abbrev Checked (α : Type) := Except (List Problem) α

namespace Checked

/-- A single problem. -/
def bad {α : Type} (path : List String) (problem : ProblemSort) (input : Json) : Checked α :=
  .error [⟨path, problem, input⟩]

/-- Both of two readings, with the problems of both. -/
def both {α β : Type} : Checked α → Checked β → Checked (α × β)
  | .ok a, .ok b => .ok (a, b)
  | .error ps, .ok _ => .error ps
  | .ok _, .error qs => .error qs
  | .error ps, .error qs => .error (ps ++ qs)

/-- All of several readings, with the problems of all. -/
def all {α : Type} : List (Checked α) → Checked (List α)
  | [] => .ok []
  | first :: rest => (both first (all rest)).map fun (a, as) => a :: as

end Checked

/-! ## 2. Integers -/

/-- Decimals are read as integers below this, and truth values from integers of this range. -/
def machineLimit : Nat := Nat.pow 2 63

/-- A text without the plus sign in front of it, which no minus sign may follow. -/
def dropPlus? : List Char → Option (List Char)
  | '+' :: '-' :: _ => none
  | '+' :: rest => some rest
  | text => some text

/-- Whether a number that is not zero can start with a character. -/
def startsNumber (c : Char) : Bool := c == '-' || c.isDigit && c != '0'

/-- A text without the zeros in front of it, among which underscores may stand.  If nothing but a
fraction follows, the last of them stays. -/
def dropPadding? (text : List Char) : Option (List Char) :=
  let padding := match text with
    | '0' :: _ => text.takeWhile fun c => c == '0' || c == '_'
    | _ => []
  match padding.getLast?, text.drop padding.length with
  | some last, [] => some [last]
  | some last, '.' :: fraction => some (last :: '.' :: fraction)
  | _, c :: rest => if startsNumber c then some (c :: rest) else none
  | none, [] => none

/-- A text without a fraction of zeros. -/
def dropZeroFraction (text : List Char) : List Char :=
  let whole := text.takeWhile (· != '.')
  match text.drop (whole.length + 1) with
  | [] => text
  | fraction => if fraction.all (· == '0') then whole else text

/-- A text without its underscores, if each of them stands between other characters. -/
def joinGroups (text : List Char) : List Char :=
  let groups := Text.splitOn (· == '_') text
  if groups.any List.isEmpty then text else groups.flatten

/-- The integer that digits stand for, of which only zero may start with a zero. -/
def readDigits (digits : List Char) : Except ProblemSort Nat :=
  let leading := digits.takeWhile Char.isDigit
  if digits = ['0'] then .ok 0
  else if leading.isEmpty || leading.head? == some '0' then .error .unreadableInteger
  else if digitLimit < leading.length then .error .integerTooLong
  else if leading.length < digits.length then .error .unreadableInteger
  else .ok (Text.ofDigits (digits.map fun c => c.toNat - 48))

/-- The integer that a text without padding stands for. -/
def readSigned : List Char → Except ProblemSort Int
  | '-' :: digits => (readDigits digits).map fun n => -(n : Int)
  | digits => (readDigits digits).map fun n => (n : Int)

/-- A text without the blanks around it, a plus sign, the zeros in front of its digits, a fraction
of zeros and the underscores, dropped in this order.  Where there is no other sign, a minus sign may
stand behind the zeros in front. -/
def bareText? (text : List Char) : Option (List Char) := do
  let bare ← match ← dropPlus? (Text.trim Text.isMargin text) with
    | '-' :: digits => (dropPadding? digits).map ('-' :: ·)
    | unsigned => dropPadding? unsigned
  pure (joinGroups (dropZeroFraction bare))

/-- The integer that a text stands for, as it is or bare.  It is too long only as it is. -/
def integerOfText (text : String) : Except ProblemSort Int :=
  match readSigned text.toList with
  | .ok n => .ok n
  | .error .integerTooLong => .error .integerTooLong
  | .error _ =>
    match (bareText? text.toList).map readSigned with
    | some (.ok n) => .ok n
    | _ => .error .unreadableInteger

/-- Reads an integer. -/
def readInteger (path : List String) (value : Json) : Checked Int :=
  match value with
  | .integer n => .ok n
  | .bool b => .ok (if b then 1 else 0)
  | .decimal mantissa exponent =>
    match Double.wholeOfDecimal? mantissa exponent with
    | none => .bad path .notWhole value
    | some n => if n.natAbs < machineLimit then .ok n else .bad path .integerTooLong value
  | .notFinite => .bad path .notFinite value
  | .string text =>
    match integerOfText text with
    | .ok n => .ok n
    | .error problem => .bad path problem value
  | _ => .bad path .notInteger value

/-! ## 3. Truth values, texts and tables -/

/-- The words for true and for false, in lower case. -/
def truthWords : List (String × Bool) :=
  [("0", false), ("off", false), ("f", false), ("false", false), ("n", false), ("no", false),
   ("1", true), ("on", true), ("t", true), ("true", true), ("y", true), ("yes", true)]

/-- The truth value that a number stands for: zero is false and one is true. -/
def truthOfNumber? : Int → Option Bool
  | 0 => some false
  | 1 => some true
  | _ => none

/-- The truth value that a word stands for. -/
def truthOfWord? (word : String) : Option Bool :=
  (truthWords.find? (·.1 == word.toLower)).map Prod.snd

/-- Reads a truth value. -/
def readTruth (path : List String) (value : Json) : Checked Bool :=
  match value with
  | .bool b => .ok b
  | .integer n =>
    if -(machineLimit : Int) ≤ n ∧ n < machineLimit then orUnreadable (truthOfNumber? n)
    else .bad path .notTruth value
  | .decimal mantissa exponent =>
    match Double.wholeOfDecimal? mantissa exponent with
    | none => .bad path .notTruth value
    | some n =>
      if n.natAbs < machineLimit then orUnreadable (truthOfNumber? n)
      else .bad path .notTruth value
  | .string text => orUnreadable (truthOfWord? text)
  | _ => .bad path .notTruth value
where
  /-- What could be read, if anything could. -/
  orUnreadable : Option Bool → Checked Bool
    | some b => .ok b
    | none => .bad path .unreadableTruth value

/-- Reads a text. -/
def readText (path : List String) (value : Json) : Checked String :=
  match value with
  | .string text => .ok text
  | _ => .bad path .notText value

/-- Reads an object whose members are all integers. -/
def readIntegers (path : List String) (value : Json) : Checked (Table String Int) :=
  match value with
  | .object members =>
    .all (members.map fun member =>
      (readInteger (path ++ [member.1]) member.2).map fun n => (member.1, n))
  | _ => .bad path .notObject value

/-! ## 4. Fields -/

/-- A field that has to be there. -/
def required {α : Type} (path : List String) (read : List String → Json → Checked α)
    (members : List (String × Json)) (name : String) : Checked α :=
  match Table.get? members name with
  | none => .bad (path ++ [name]) .missing (.object members)
  | some value => read (path ++ [name]) value

/-- A field that has a value when it is absent. -/
def optional {α : Type} (path : List String) (read : List String → Json → Checked α)
    (members : List (String × Json)) (name : String) (absent : α) : Checked α :=
  match Table.get? members name with
  | none => .ok absent
  | some value => read (path ++ [name]) value

/-- Reads null, or what something else reads. -/
def nullable {α : Type} (read : List String → Json → Checked α) (path : List String) :
    Json → Checked (Option α)
  | .null => .ok none
  | value => (read path value).map some

/-- Reads an object field by field. -/
def fieldsOf {α : Type} (read : List String → List (String × Json) → Checked α)
    (path : List String) (value : Json) : Checked α :=
  match value with
  | .object members => read path members
  | _ => .bad path .notFields value

/-- Reads a body that has to be there. -/
def readBody {α : Type} (read : List String → List (String × Json) → Checked α) :
    Option Json → Checked α
  | none => .bad ["body"] .missing .null
  | some value => fieldsOf read ["body"] value

/-! ## 5. Requests to execute and to parse -/

/-- Reads the limit of steps, which is at least one. -/
def readMaxSteps (path : List String) (value : Json) : Checked Int :=
  match readInteger path value with
  | .error problems => .error problems
  | .ok n => if n < 1 then .bad path .tooSmall value else .ok n

/-- Reads the options of a run. -/
def readOptions (path : List String) (members : List (String × Json)) : Checked ExecuteOptions :=
  let defaults : ExecuteOptions := {}
  let maxSteps := optional path (nullable readMaxSteps) members "max_steps" defaults.maxSteps
  let legacy := optional path readTruth members "legacy_semantics" defaults.legacy
  let trace := optional path readTruth members "trace" defaults.trace
  (maxSteps.both (legacy.both trace)).map fun (maxSteps, legacy, trace) =>
    { maxSteps, legacy, trace }

/-- Reads a request to execute a script. -/
def readExecute (path : List String) (members : List (String × Json)) : Checked ExecuteRequest :=
  let script := required path readText members "script"
  let contract := required path readText members "contract"
  let balances := optional path readIntegers members "balances" []
  let options := optional path (nullable (fieldsOf readOptions)) members "options" none
  (script.both (contract.both (balances.both options))).map
    fun (script, contract, balances, options) => { script, contract, balances, options }

/-- Reads a request to parse a script. -/
def readParse (path : List String) (members : List (String × Json)) : Checked String :=
  required path readText members "script"

/-! ## 6. Endpoints -/

/-- The endpoints of the service. -/
inductive Endpoint where
  | root
  | health
  | ready
  | execute
  | parse
  /-- A page for readers, which tells about the service. -/
  | page
  deriving DecidableEq

/-- The endpoint of a name. -/
def Endpoint.ofName? : String → Option Endpoint
  | "/" => some root
  | "/health" => some health
  | "/health/ready" => some ready
  | "/api/v1/execute" => some execute
  | "/api/v1/parse" => some parse
  | "/docs" | "/docs/oauth2-redirect" | "/redoc" | "/openapi.json" => some page
  | _ => none

/-- The endpoint at a path, which may end with a line feed. -/
def Endpoint.ofPath? (path : String) : Option Endpoint :=
  match path.toList.reverse with
  | '\n' :: rest => ofName? (String.ofList rest.reverse)
  | _ => ofName? path

/-- A path without the slashes at its end, or with one if it has none. -/
def otherSlash (path : String) : String :=
  match path.toList.reverse with
  | '/' :: rest => String.ofList (rest.dropWhile (· == '/')).reverse
  | _ => path ++ "/"

/-- The methods that an endpoint answers to. -/
def Endpoint.methods : Endpoint → List String
  | root | health | ready => ["GET"]
  | execute | parse => ["POST"]
  | page => ["GET", "HEAD"]

/-! ## 7. The framework -/

/-- An answer that tells in words what is wrong. -/
def refusal (status : Nat) (detail : String) : Response :=
  ⟨status, .object [("detail", .string detail)]⟩

/-- An answer that lists what is wrong with a body.  It tells what stands in the wrong places, which
therefore has to be writable. -/
def invalid (problems : List Problem) : Except HostFault Response :=
  if problems.all fun problem => problem.input.atoms.all Json.isFinite then
    .ok ⟨422, .object [("detail", .array (problems.map Problem.toJson))]⟩
  else .error .notFinite

/-- A call that has been read, or what is wrong with its body. -/
def callOrInvalid : Checked Call → Except (Except HostFault Response) Call :=
  Except.mapError invalid

/-- The call of an endpoint with a body. -/
def Endpoint.call (body : Option Json) : Endpoint → Except (Except HostFault Response) Call
  | root => .ok .root
  | health => .ok .health
  | ready => .ok .ready
  | execute => callOrInvalid ((readBody readExecute body).map .execute)
  | parse => callOrInvalid ((readBody readParse body).map .parse)
  | page => .error (.ok ⟨200, .null⟩)

/-- The call that a request makes. -/
def readRequest (request : Request) : Except (Except HostFault Response) Call :=
  match Endpoint.ofPath? request.path with
  | some endpoint =>
    if request.method ∈ endpoint.methods then endpoint.call request.body
    else .error (.ok (refusal 405 "Method Not Allowed"))
  | none =>
    if (Endpoint.ofPath? (otherSlash request.path)).isSome then .error (.ok ⟨307, .null⟩)
    else .error (.ok (refusal 404 "Not Found"))

/-- Sends a reply. -/
def sendReply : Reply → Except HostFault Response
  | .body json => json.readable.map fun json => ⟨200, json⟩
  | .refused status detail => .ok (refusal status detail)

/-- A framework to run the service with. -/
def referenceFramework : Framework where
  read := readRequest
  send := sendReply

/-- The message that tells the server that an event has been dealt with. -/
def LifeEvent.reply : LifeEvent → String
  | startup => "lifespan.startup.complete"
  | shutdown => "lifespan.shutdown.complete"

/-- The events of one life, in order. -/
def lifeEvents : List LifeEvent := [.startup, .shutdown]

end Service

end LedgerScript
