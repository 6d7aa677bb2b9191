/-
# Kinds of script errors

Kinds form a small tree under one root.  Each kind has a name, the names of the details it keeps,
and a wording: the message that its details make.  Kinds without named details carry the message
itself.
-/

namespace LedgerScript

/-- The kinds of errors that a script run can end with. -/
inductive ErrorKind where
  /-- The root of all kinds. -/
  | script
  | lexical
  | parse
  | unbalancedParens
  | unboundVariable
  | invalidOperand
  | malformedLambda
  | insufficientBalance
  | divisionByZero
  | capabilityDenied
  | arityMismatch
  | unknownForm
  | resourceExhausted
  deriving DecidableEq

namespace ErrorKind

/-- Every kind. -/
def all : List ErrorKind :=
  [script, lexical, parse, unbalancedParens, unboundVariable, invalidOperand, malformedLambda,
   insufficientBalance, divisionByZero, capabilityDenied, arityMismatch, unknownForm,
   resourceExhausted]

/-- The name under which a kind is reported. -/
def name : ErrorKind → String
  | script => "SmartLangError"
  | lexical => "LexError"
  | parse => "ParseError"
  | unbalancedParens => "UnbalancedParens"
  | unboundVariable => "UnboundVariable"
  | invalidOperand => "InvalidOperand"
  | malformedLambda => "MalformedLambda"
  | insufficientBalance => "InsufficientBalance"
  | divisionByZero => "DivisionByZero"
  | capabilityDenied => "CapabilityDenied"
  | arityMismatch => "ArityMismatch"
  | unknownForm => "UnknownForm"
  | resourceExhausted => "ResourceExhausted"

/-- The kind reported under a name. -/
def ofName? (s : String) : Option ErrorKind := all.find? (·.name == s)

/-- A kind and the kinds above it, nearest first. -/
def lineage : ErrorKind → List ErrorKind
  | script => [script]
  | unbalancedParens => [unbalancedParens, parse, script]
  | kind => [kind, script]

/-- The names of the details that a kind keeps. -/
def detailNames : ErrorKind → List String
  | unboundVariable | capabilityDenied => ["name"]
  | insufficientBalance => ["account", "balance", "amount"]
  | arityMismatch => ["name", "expected", "got"]
  | _ => []

/-- The message made from the texts of the details, or from the message itself. -/
def wording : ErrorKind → List String → String
  | unboundVariable, [name] => s!"Unbound variable: {name}"
  | capabilityDenied, [name] => s!"Method not allowed: {name}. Try adding it in provide."
  | insufficientBalance, [account, balance, amount] =>
    s!"Not enough balance: {account} holds {balance}, transfer needs {amount}"
  | arityMismatch, [name, expected, got] => s!"{name} expects {expected} argument(s), got {got}"
  | _, message :: _ => message
  | _, [] => ""

end ErrorKind

end LedgerScript
