/-
# Errors that a host raises

A host may raise an error of any kind itself, from the details that the kind keeps, or from a
message where it keeps none.  Details and message may be any values; the text of the error is worded
from their texts, where nil is told as `None`.
-/
import LedgerScript.ErrorKind
import LedgerScript.Table
import LedgerScript.Value

namespace LedgerScript

/-- An error of some kind with what it keeps. -/
structure ErrorReport where
  kind : ErrorKind
  /-- The message as it was given, or its text if it was made from details. -/
  message : Value
  /-- The text of the message. -/
  text : String
  details : Table String Value

namespace ErrorReport

/-- The text of a value in the wording of an error. -/
def detailText : Value → Except HostFault String
  | .nil => .ok "None"
  | value => value.shown

/-- The error of a kind with given details; `none` if their number is not the kind's. -/
def ofDetails (kind : ErrorKind) (details : List Value) : Except HostFault (Option ErrorReport) :=
  if details.length = max 1 kind.detailNames.length then do
    let text := kind.wording (← details.mapM detailText)
    let message := if kind.detailNames.isEmpty then details.headD .nil else .text text
    pure (some ⟨kind, message, text, kind.detailNames.zip details⟩)
  else pure none

end ErrorReport

end LedgerScript
