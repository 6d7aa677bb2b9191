/-
# Faults of the host

A script can fail in two ways.  Either the script itself is wrong, which is a `ScriptError` and is
reported in the language's own terms, or something the script runs on refuses: the ledger, the
arena of scopes, or the conversion between integers and their decimal text.  The second way is a
`HostFault`; it is never caught by a run and reaches whoever started it.
-/
import LedgerScript.Text.Quoted

namespace LedgerScript

/-- The longest decimal text, in digits, that is read or written. -/
def digitLimit : Nat := 4300

/-- What the host can refuse. -/
inductive HostFault where
  /-- The ledger was told to store a negative balance. -/
  | negativeBalance (address : String) (amount : String)
  /-- The ledger was told to change an account that its holder has locked. -/
  | locked (address : String)
  /-- A scope id that the arena does not hold. -/
  | unknownScope (id : Int)
  /-- A look-up that goes round in a circle of scopes and comes to no end. -/
  | endlessLookup
  /-- A decimal text of this many digits is too long to read. -/
  | textTooLong (digits : Nat)
  /-- An integer has too many digits to be written. -/
  | integerTooLong
  /-- A number that is not finite would have to be written. -/
  | notFinite
  /-- A script file does not hold UTF-8 text. -/
  | undecodable
  /-- A path holds the null character. -/
  | nullInPath
  /-- A path names nothing. -/
  | noSuchFile (path : String)
  /-- A path names a directory where a file is needed. -/
  | isDirectory (path : String)
  deriving DecidableEq

namespace HostFault

/-- How the text of a fault about long integers begins. -/
def limitText : String := s!"Exceeds the limit ({digitLimit} digits) for integer string conversion"

/-- How the text of a fault about long integers ends. -/
def limitAdvice : String := "; use sys.set_int_max_str_digits() to increase the limit"

/-- The text of a fault; an unknown scope is told by its bare id. -/
def message : HostFault → String
  | negativeBalance address amount => s!"Balance of {address} cannot be negative: {amount}"
  | locked address => s!"{address} is locked"
  | unknownScope id => toString id
  | endlessLookup => "a look-up does not end"
  | textTooLong digits => limitText ++ s!": value has {digits} digits" ++ limitAdvice
  | integerTooLong => limitText ++ limitAdvice
  | notFinite => "Out of range float values are not JSON compliant"
  | undecodable => "invalid UTF-8 text"
  | nullInPath => "embedded null byte"
  | noSuchFile path => "[Errno 2] No such file or directory: " ++ Text.quote path
  | isDirectory path => "[Errno 21] Is a directory: " ++ Text.quote path

end HostFault

end LedgerScript
