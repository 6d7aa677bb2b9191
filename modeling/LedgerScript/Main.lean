/-
# The command line program

The only part that touches the world: it reads the files that arguments name, lets the library
decide what the command does, and writes what comes out.
-/
import LedgerScript.CommandLine.ReferenceToolkit

namespace LedgerScript.CommandLine

/-- How many evaluations this host lets be active at once. -/
def hostDepth : Nat := 500

/-- What a path names on disk. -/
def readEntry (path : String) : IO (Option FileEntry) := do
  try
    return some (.file (← IO.FS.readBinFile path))
  catch
    | .inappropriateType .. => return some .directory
    | _ => return none

/-- What each of some words names on disk, for those that name anything. -/
def readEntries : List String → IO (List (String × FileEntry))
  | [] => return []
  | word :: rest => do
    let entries ← readEntries rest
    match ← readEntry word with
    | some entry => return (word, entry) :: entries
    | none => return entries

end LedgerScript.CommandLine

/-- Carries out a command line.  Only an argument can name a script, so the files of the arguments
are all that a command needs. -/
def main (words : List String) : IO UInt32 := do
  let entries ← LedgerScript.CommandLine.readEntries words
  let files := fun path => (entries.find? (·.1 == path)).map Prod.snd
  let outcome := LedgerScript.CommandLine.perform LedgerScript.CommandLine.referenceToolkit
    LedgerScript.CommandLine.hostDepth files words
  IO.print outcome.stdout
  IO.eprint outcome.stderr
  if let some fault := outcome.fault then IO.eprintln fault.message
  return outcome.exitCode.toUInt32
