/-
# Log records

A run logs what it does, record by record.  A record belongs to the part of the interpreter that
wrote it and has a text.
-/
import LedgerScript.Json
import LedgerScript.ScriptError
import LedgerScript.Text.Quoted
import LedgerScript.Value

namespace LedgerScript.Run

/-- One thing that a run has logged. -/
inductive Record where
  | parsed (forms tokens : Nat)
  | transferred (amount : Int) (source destination : Account)
  /-- The names that a scope permits, sorted. -/
  | provides (scope : ScopeId) (names : List String)
  | calling (name : String) (arguments : List String) (scope : ScopeId)
  | finalValue (shown : String)
  | failed (contract : Account) (error : ScriptError)
  /-- The dump of the form that is evaluated next. -/
  | form (dump : Json)
  | formNotDumped (error : ScriptError)
  /-- All scopes after a form. -/
  | scopes (snapshot : Json)

namespace Record

/-- The part of the interpreter that a record comes from. -/
def source : Record → String
  | parsed .. => "smartlang.syntax.parser"
  | transferred .. | provides .. | calling .. => "smartlang.runtime.evaluator"
  | _ => "smartlang.runtime.interpreter"

/-- The text of a record. -/
def message : Record → String
  | parsed forms tokens => s!"Parsed {forms} top-level form(s) from {tokens} token(s)"
  | transferred amount source destination =>
    s!"Transferred {amount} from {source.address} to {destination.address}"
  | provides scope names => s!"Scope {scope} provides " ++ Text.quoteList names
  | calling name arguments scope =>
    s!"Calling {name}(" ++ ", ".intercalate arguments ++ s!") in scope {scope}"
  | finalValue shown => s!"Final value -> {shown}"
  | failed contract error =>
    s!"Script for {contract.address} failed: {error.kind.name}: {error.message}"
  | form dump => "AST is " ++ dump.compact
  | formNotDumped error => s!"AST not dumped: {error.message}"
  | scopes snapshot => "Scopes are " ++ snapshot.compact

/-- The line of a record in a log. -/
def line (record : Record) : String := s!"DEBUG {record.source}: {record.message}"

end Record

end LedgerScript.Run
