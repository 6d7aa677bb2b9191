/-
# Evaluation

An evaluation counts a step and then follows the rule of its form.  The rules are written over
`recur`, the evaluation of the forms inside, so that each rule can be read by itself; `evaluate`
ties the knot and counts down the evaluations that may still be active at once.

Operands are evaluated from left to right in the scope of their form.  The body of a closure is
evaluated in a scope of its own below the scope that the closure captured; under the legacy rules
it is evaluated in the captured scope itself.
-/
import LedgerScript.Node.Text
import LedgerScript.Run.SpecialForm
import LedgerScript.Run.State

namespace LedgerScript.Run

open Eval

/-- The symbol for the account that the script executes as. -/
def meSymbol : String := "$me"

section Rules

variable (setting : Setting) (recur : Node → ScopeId → Eval Value) (scope : ScopeId)

/-! ## 1. The ledger -/

/-- `($balance $me)`: the balance of the executing contract. -/
def evalBalance : List Node → Eval Value
  | [.operator symbol] =>
    if symbol = meSymbol then do return .integer (← balance setting.me) else fail .balanceOperand
  | _ => fail .balanceOperand

/-- The integer of an amount to transfer. -/
def amountOf : Value → Eval Int
  | .integer n =>
    if 0 ≤ n then pure n else failTelling .transferAmount (Value.integer n).shown
  | other => failTelling .transferAmount other.shown

/-- The account of a destination. -/
def destinationOf : Value → Eval Account
  | .account a => pure a
  | other => failTelling .transferDestination other.shown

/-- Logs a transfer that is done.  A listener is told the amount, which has to be writable. -/
def logTransfer (amount : Int) (destination : Account) : Eval Unit := do
  if setting.listening then discard (ofHost (Text.writeInteger amount))
  log (.transferred amount setting.me destination)

/-- Moves an amount from the contract to a destination.  A credit that the ledger refuses gives
the debit back before the fault goes on. -/
def moveFunds (amount : Int) (destination : Account) : Eval Unit := do
  let held ← balance setting.me
  if held < amount then
    fail (.insufficientBalance setting.me.address (← ofHost (Text.writeInteger held))
      (← ofHost (Text.writeInteger amount)))
  setBalance setting.me (held - amount)
  try
    setBalance destination ((← balance destination) + amount)
  catch fault =>
    setBalance setting.me held
    throw fault
  logTransfer setting amount destination

/-- `($transfer amount destination)`. -/
def evalTransfer : List Node → Eval Value
  | [amountForm, destinationForm] => do
    let amountValue ← recur amountForm scope
    let destinationValue ← recur destinationForm scope
    let amount ← amountOf amountValue
    let destination ← destinationOf destinationValue
    moveFunds setting amount destination
    pure .nil
  | operands => fail (.transferOperands operands.length)

/-! ## 2. Bindings -/

/-- Permits the names that are listed. -/
def permitNames : List Node → Eval Unit
  | [] => pure ()
  | .ident name :: rest => do
    permit scope name
    permitNames rest
  | other :: _ => failTelling .provideOperand other.text

/-- `(provide name ...)`: adds to the names that the current scope permits. -/
def evalProvide (operands : List Node) : Eval Value := do
  permitNames scope operands
  log (.provides scope (Arena.sorted (← permitted scope)))
  pure .nil

/-- `(define name form)`: binds a name in the current scope. -/
def evalDefine : List Node → Eval Value
  | [.ident name, form] => do
    let value ← recur form scope
    define scope name value
    pure .nil
  | [target, _] => failTelling .defineTarget target.text
  | operands => fail (.defineOperands operands.length)

/-- The parameters of a closure, all of them different names. -/
def parametersOf (earlier : List String) : List Node → Except Failure (List String)
  | [] => .ok earlier
  | .ident name :: rest =>
    if name ∈ earlier then .error (.script (.duplicateParameter name))
    else parametersOf (earlier ++ [name]) rest
  | other :: _ => .error (.telling .lambdaParameter other.text)

/-- `(lambda (name ...) body)`: a closure over a new scope below the current one. -/
def evalLambda : List Node → Eval Value
  | [.list params, body] => do
    let names ← ofOutcome (parametersOf [] params)
    return .closure names body (← newScope (some scope))
  | [_, _] => fail .lambdaParameterList
  | _ => fail .lambdaShape

/-- `(println form)`: writes the text of a value. -/
def evalPrintln : List Node → Eval Value
  | [form] => do
    let value ← recur form scope
    writeLine (← ofHost value.shown)
    pure .nil
  | operands => fail (.printlnOperands operands.length)

/-! ## 3. Arithmetic -/

/-- Evaluates an operand of an arithmetic form, which must give an integer. -/
def integerOperand (form : String) (operand : Node) : Eval Int := do
  match ← recur operand scope with
  | .integer n => pure n
  | other => failTelling (.notInteger form) other.shown

/-- The integers of at least two operands. -/
def integerOperands (form : String) (operands : List Node) : Eval (List Int) :=
  if operands.length < 2 then fail (.operandsTooFew form 2 operands.length)
  else operands.mapM (integerOperand recur scope form)

/-- The integers of exactly two operands. -/
def integerPair (form : String) : List Node → Eval (Int × Int)
  | [first, second] => do
    let a ← integerOperand recur scope form first
    let b ← integerOperand recur scope form second
    pure (a, b)
  | operands => fail (.operandCount form 2 operands.length)

/-- The sum of some integers. -/
def sumOf (integers : List Int) : Int := integers.foldr (· + ·) 0

/-- The product of some integers. -/
def productOf (integers : List Int) : Int := integers.foldr (· * ·) 1

/-- `(+ form form ...)`. -/
def evalAdd (operands : List Node) : Eval Value := do
  let integers ← integerOperands recur scope "+" operands
  pure (.integer (sumOf integers))

/-- `(- a b)` is `b` less `a`. -/
def evalSub (operands : List Node) : Eval Value := do
  let (a, b) ← integerPair recur scope "-" operands
  pure (.integer (b - a))

/-- `(* form form ...)`, a sum under the legacy rules. -/
def evalMul (operands : List Node) : Eval Value := do
  let integers ← integerOperands recur scope "*" operands
  pure (.integer (if setting.config.legacy then sumOf integers else productOf integers))

/-- `(/ a b)` is `b` divided by `a`, rounded down. -/
def evalDiv (operands : List Node) : Eval Value := do
  let (a, b) ← integerPair recur scope "/" operands
  if a = 0 then fail (.divisionByZero (← ofHost (Text.writeInteger b)))
  pure (.integer (b.fdiv a))

/-! ## 4. Calls -/

/-- An argument under the legacy rules: what the form says, unevaluated. -/
def literalArgument : Node → Eval Value
  | .number n => pure (.integer n)
  | .ident name => pure (.account ⟨name⟩)
  | .operator symbol =>
    if symbol = meSymbol then pure (.account setting.me) else fail (.legacyArgument symbol)
  | form => failTelling .legacyArgument form.text

/-- The arguments of a call, and the scope that they are bound in. -/
def evalArguments (captured : ScopeId) (operands : List Node) : Eval (List Value × ScopeId) :=
  if setting.config.legacy then do
    let values ← operands.mapM (literalArgument setting)
    pure (values, captured)
  else do
    let values ← operands.mapM (recur · scope)
    let callScope ← newScope (some captured)
    pure (values, callScope)

/-- Binds parameters to arguments. -/
def bindAll (callScope : ScopeId) : List (String × Value) → Eval Unit
  | [] => pure ()
  | (name, value) :: rest => do
    define callScope name value
    bindAll callScope rest

/-- Calls the closure that a name is bound to.  The name must be one that the root permits, if the
root permits any. -/
def callName (name : String) (operands : List Node) : Eval Value := do
  match ← lookup? (some scope) name with
  | none => fail (.unknownForm name)
  | some (.closure params body captured) => do
    let permitted ← permitted Arena.rootId
    if permitted ≠ [] ∧ name ∉ permitted then fail (.capabilityDenied name)
    if operands.length ≠ params.length then
      fail (.arityMismatch name params.length operands.length)
    let (values, callScope) ← evalArguments setting recur scope captured operands
    bindAll callScope (params.zip values)
    log (.calling name (← ofHost (Value.allShown values)) callScope)
    recur body callScope
  | some _ => fail (.notFunction name)

/-- A list whose head names no rule. -/
def evalCall : (head : Node) → (operands : List Node) → Eval Value
  | .ident name, operands => callName setting recur scope name operands
  | .operator symbol, operands => callName setting recur scope symbol operands
  | head, _ => failTelling .headNotName head.text

/-! ## 5. Forms -/

/-- What each rule does with a list. -/
def evalRule (head : Node) (operands : List Node) : SpecialForm → Eval Value
  | .balance => evalBalance setting operands
  | .transfer => evalTransfer setting recur scope operands
  | .provide => evalProvide scope operands
  | .define => evalDefine recur scope operands
  | .lambda => evalLambda scope operands
  | .println => evalPrintln recur scope operands
  | .add => evalAdd recur scope operands
  | .sub => evalSub recur scope operands
  | .mul => evalMul setting recur scope operands
  | .div => evalDiv recur scope operands
  | .call => evalCall setting recur scope head operands

/-- The rule for a list that is not empty. -/
def evalList (head : Node) (operands : List Node) : Eval Value := do
  evalRule setting recur scope head operands (← ofHost (ruleOf head operands))

/-- The rule for a form. -/
def evalForm : Node → Eval Value
  | .number n => pure (.integer n)
  | .ident name => lookup (some scope) name
  | .operator symbol =>
    if symbol = meSymbol then pure (.account setting.me) else fail (.straySymbol symbol)
  | .list [] => fail .emptyForm
  | .list (head :: operands) => evalList setting recur scope head operands

end Rules

/-- Evaluates a form in a scope, with at most `depth` evaluations active at once. -/
def evaluate (setting : Setting) : (depth : Nat) → Node → ScopeId → Eval Value
  | 0, _, _ => throw .tooDeep
  | depth + 1, form, scope => do
    countStep setting.config.maxSteps
    evalForm setting (evaluate setting depth) scope form

end LedgerScript.Run
