/-
# Special forms

A list is evaluated by the rule that its head names.  Every head that names no rule is a call.
-/
import LedgerScript.Node

namespace LedgerScript.Run

/-- The rules by which lists are evaluated. -/
inductive SpecialForm where
  | balance
  | transfer
  | provide
  | define
  | lambda
  | println
  | add
  | sub
  | mul
  | div
  | call
  deriving DecidableEq

namespace SpecialForm

/-- The rule that a head names. -/
def ofHead : String → SpecialForm
  | "$balance" => balance
  | "$transfer" => transfer
  | "provide" => provide
  | "define" => define
  | "lambda" => lambda
  | "println" => println
  | "+" => add
  | "-" => sub
  | "*" => mul
  | "/" => div
  | _ => call

/-- The name of a rule. -/
def label : SpecialForm → String
  | balance => "BALANCE"
  | transfer => "TRANSFER"
  | provide => "PROVIDE"
  | define => "DEFINE"
  | lambda => "LAMBDA"
  | println => "PRINTLN"
  | add => "ADD"
  | sub => "SUB"
  | mul => "MUL"
  | div => "DIV"
  | call => "CALL"

end SpecialForm

/-- The rule for a list with a head and operands.  A head that has no text has no rule. -/
def ruleOf (head : Node) (operands : List Node) : Except HostFault SpecialForm :=
  (Node.list (head :: operands)).headText.map SpecialForm.ofHead

end LedgerScript.Run
