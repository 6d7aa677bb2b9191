/-
# What can be wrong with a script

One constructor per cause.  A cause keeps what its message tells; integers that a script computed
or a host chose are kept as text, because an integer that is too long to be written cannot be told
at all.
-/
import LedgerScript.ErrorKind
import LedgerScript.HostFault

namespace LedgerScript

/-- The cause of a failed run. -/
inductive ScriptError where
  -- reading
  /-- A closing parenthesis without an open list, at this token. -/
  | unexpectedClose (position : Nat)
  /-- Lists that are still open at the end. -/
  | unclosed (count : Nat)
  -- names
  | unboundVariable (name : String)
  /-- A bare symbol that is no value. -/
  | straySymbol (symbol : String)
  -- the ledger forms
  | balanceOperand
  | transferOperands (got : Nat)
  | transferAmount (got : String)
  | transferDestination (got : String)
  | insufficientBalance (account balance amount : String)
  -- the binding forms
  | provideOperand (got : String)
  | defineOperands (got : Nat)
  | defineTarget (got : String)
  | lambdaShape
  | lambdaParameterList
  | lambdaParameter (got : String)
  | duplicateParameter (name : String)
  -- output and arithmetic
  | printlnOperands (got : Nat)
  | operandCount (form : String) (expected got : Nat)
  | operandsTooFew (form : String) (least got : Nat)
  | notInteger (form got : String)
  | divisionByZero (dividend : String)
  -- calls
  | emptyForm
  | headNotName (head : String)
  | unknownForm (name : String)
  | notFunction (name : String)
  | capabilityDenied (name : String)
  | arityMismatch (name : String) (expected got : Nat)
  | legacyArgument (got : String)
  -- resources
  | stepLimit (limit : String)
  | depthLimit
  | dumpDepth (limit : String)
  deriving DecidableEq

namespace ScriptError

/-- The kind of a cause. -/
def kind : ScriptError → ErrorKind
  | unexpectedClose _ | unclosed _ => .unbalancedParens
  | unboundVariable _ => .unboundVariable
  | straySymbol _ | balanceOperand | transferOperands _ | transferAmount _
  | transferDestination _ | provideOperand _ | defineOperands _ | defineTarget _
  | printlnOperands _ | operandCount .. | operandsTooFew .. | notInteger .. | legacyArgument _ =>
    .invalidOperand
  | insufficientBalance .. => .insufficientBalance
  | lambdaShape | lambdaParameterList | lambdaParameter _ | duplicateParameter _ =>
    .malformedLambda
  | divisionByZero _ => .divisionByZero
  | emptyForm | headNotName _ | unknownForm _ | notFunction _ => .unknownForm
  | capabilityDenied _ => .capabilityDenied
  | arityMismatch .. => .arityMismatch
  | stepLimit _ | depthLimit | dumpDepth _ => .resourceExhausted

/-- The texts that the wording of the kind is made from. -/
def details : ScriptError → List String
  | unexpectedClose position => [s!"Unexpected ')' at token {position}"]
  | unclosed count => [s!"{count} unclosed '(' at end of input"]
  | unboundVariable name => [name]
  | straySymbol symbol => [s!"Unexpected symbol '{symbol}' outside of a form"]
  | balanceOperand => ["$balance only accepts $me as its operand"]
  | transferOperands got =>
    [s!"$transfer expects amount and destination, got {got} operand(s)"]
  | transferAmount got => [s!"$transfer amount must be a non-negative integer, got {got}"]
  | transferDestination got => [s!"$transfer destination must be an account, got {got}"]
  | insufficientBalance account balance amount => [account, balance, amount]
  | provideOperand got => [s!"provide expects identifiers, got '{got}'"]
  | defineOperands got => [s!"define expects a name and an expression, got {got} operand(s)"]
  | defineTarget got => [s!"define target must be an identifier, got '{got}'"]
  | lambdaShape => ["lambda expects a parameter list and a single body"]
  | lambdaParameterList => ["lambda parameters must be a list"]
  | lambdaParameter got => [s!"Lambda should only contain params, got '{got}'"]
  | duplicateParameter name => [s!"Duplicate lambda parameter '{name}'"]
  | printlnOperands got => [s!"println expects one operand, got {got}"]
  | operandCount form expected got => [s!"'{form}' expects {expected} operands, got {got}"]
  | operandsTooFew form least got => [s!"'{form}' expects at least {least} operands, got {got}"]
  | notInteger form got => [s!"'{form}' expects integers, got {got}"]
  | divisionByZero dividend => [s!"Division of {dividend} by zero"]
  | emptyForm => ["Empty form ()"]
  | headNotName head => [s!"Form head must be a name, got '{head}'"]
  | unknownForm name => [s!"Unknown form: {name}"]
  | notFunction name => [s!"{name} is not a function"]
  | capabilityDenied name => [name]
  | arityMismatch name expected got => [name, toString expected, toString got]
  | legacyArgument got => [s!"Legacy calls only accept literal arguments, got '{got}'"]
  | stepLimit limit => [s!"Step limit of {limit} exceeded"]
  | depthLimit => ["Maximum evaluation depth exceeded"]
  | dumpDepth limit => [s!"AST nesting exceeds dump depth of {limit}"]

/-- The message of a cause. -/
def message (error : ScriptError) : String := error.kind.wording error.details

end ScriptError

/-- Why something that a script asks for is not done: the script is wrong, or the host refuses. -/
inductive Failure where
  | script (error : ScriptError)
  | host (fault : HostFault)

/-- The failure with an error that tells a text, if there is a text to tell. -/
def Failure.telling (error : String → ScriptError) : Except HostFault String → Failure
  | .ok text => .script (error text)
  | .error fault => .host fault

end LedgerScript
