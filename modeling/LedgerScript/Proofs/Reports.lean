/-
# How a run is told

A report is told in two ways, as the JSON text that a command prints and as the JSON body that the
service answers with.  The two agree member by member where they have the same members
(`told_alike`), and differ in how they tell of errors: as a list, or as one text or none.

Both need the integers of the report to be short enough.  The results are so by themselves, because
a run writes each of its values to its log before it returns them (`exact_results`); the balances
and the count of steps are asked to be.  Then a command prints the report and nothing else
(`runFile_printed`), on every toolkit that keeps its laws, since the log goes elsewhere and the text
holds no escape character.
-/
import LedgerScript.Proofs.Invocation
import LedgerScript.Proofs.JsonText
import LedgerScript.Proofs.Outcome
import LedgerScript.Service.Handlers

namespace LedgerScript

/-! ## 1. Results -/

namespace Run

open Eval

variable {setting : Setting}

/-- A form is evaluated to a value that can be written. -/
theorem shown_of_executeForm {form : Node} {s t : State} {v : Value}
    (h : (executeForm setting form).run s = .ok v t) : ∃ text, v.shown = .ok text := by
  unfold executeForm at h
  dsimp only at h
  rw [ite_bind_eq] at h
  obtain ⟨_, s1, -, h⟩ := of_run_bind_ok h
  obtain ⟨w, s2, -, h⟩ := of_run_bind_ok h
  obtain ⟨text, s3, hshown, h⟩ := of_run_bind_ok h
  obtain ⟨_, s4, -, h⟩ := of_run_bind_ok h
  have hw : w = v := by
    split at h
    · obtain ⟨_, _, -, h⟩ := of_run_bind_ok h
      cases h
      rfl
    · cases h
      rfl
  subst hw
  rw [run_ofHost] at hshown
  cases hs : w.shown with
  | ok written => exact ⟨written, rfl⟩
  | error fault => rw [hs] at hshown; cases hshown

theorem shown_of_execute : ∀ {forms : List Node} {s t : State} {values : List Value},
    (execute setting forms).run s = .ok values t → ∀ v ∈ values, ∃ text, v.shown = .ok text
  | [], _, _, _, h, v, hv => by
    cases h
    exact absurd hv List.not_mem_nil
  | form :: rest, s, t, values, h, v, hv => by
    unfold execute at h
    rw [List.mapM_cons] at h
    obtain ⟨first, s1, hfirst, h⟩ := of_run_bind_ok h
    obtain ⟨others, s2, hothers, h⟩ := of_run_bind_ok h
    cases h
    rcases List.mem_cons.mp hv with rfl | hv
    · exact shown_of_executeForm hfirst
    · exact shown_of_execute hothers v hv

/-- A value that can be written by a run can be written in a report. -/
theorem exact_toJson {v : Value} {text : String} (h : v.shown = .ok text) : v.toJson.Exact := by
  cases v with
  | integer n =>
    have hshown : (Value.integer n).shown = Text.writeInteger n := rfl
    rw [hshown, Text.writeInteger] at h
    split at h
    · next hn => exact Json.exact_integer.mpr hn
    · cases h
  | nil => exact Json.exact_null
  | account a => exact Json.exact_string a.address
  | closure params => exact Json.exact_string (Value.closureText params)
  | truth b => exact Json.exact_string _
  | text s => exact Json.exact_string s

/-- **The results of a report** can be written. -/
theorem exact_results {script : String} {ledger : Ledger} {bindings : Table String Value}
    {lists : Bool} {report : Report}
    (h : (interpret setting script ledger bindings lists).1 = .ok report) :
    ∀ result ∈ report.results, result.Exact := by
  intro result hresult
  unfold interpret at h
  cases hrun : run setting script ledger bindings false with
  | ok values s =>
    rw [hrun] at h
    cases h
    obtain ⟨v, hv, rfl⟩ := List.mem_map.mp hresult
    obtain ⟨forms, s1, -, hexecute⟩ := of_run_bind_ok hrun
    obtain ⟨text, htext⟩ := shown_of_execute hexecute v hv
    exact exact_toJson htext
  | error fault s =>
    rw [hrun] at h
    cases fault <;> cases h <;> exact absurd hresult List.not_mem_nil

end Run

/-- A report that can be written without a loss. -/
structure Run.Report.Exact (report : Run.Report) : Prop where
  results : ∀ result ∈ report.results, result.Exact
  balances : ∀ entry ∈ report.balances, Text.isWritable entry.2 = true
  steps : Text.isWritable report.steps = true

/-! ## 2. Both ways of telling -/

open CommandLine Service

/-- The value of a member of an object. -/
def Json.member? : Json → String → Option Json
  | .object members, name => Table.get? members name
  | _, _ => none

/-- The members that tell the same in both ways. -/
def sharedMembers : List String :=
  ["success", "contract", "results", "output", "balances", "steps", "error_kind"]

variable {report : Run.Report}

/-- **Both ways of telling agree** on the members that they share. -/
theorem told_alike (report : Run.Report) : ∀ name ∈ sharedMembers, ∃ value,
    (reportJson report).member? name = some value ∧
      (reportBody report).member? name = some value := by
  intro name hname
  simp only [sharedMembers, List.mem_cons, List.not_mem_nil, or_false] at hname
  rcases hname with rfl | rfl | rfl | rfl | rfl | rfl | rfl <;> exact ⟨_, rfl, rfl⟩

theorem exact_balances {balances : Table String Int}
    (h : ∀ entry ∈ balances, Text.isWritable entry.2 = true) :
    (Json.object (balances.map fun entry => (entry.1, .integer entry.2))).Exact := by
  refine Json.each_object.mpr fun member hmember => ?_
  obtain ⟨entry, hentry, rfl⟩ := List.mem_map.mp hmember
  exact Json.exact_integer.mpr (h entry hentry)

theorem exact_errorKind (kind : Option ErrorKind) : Json.Exact
    (match kind with | none => .null | some k => .string k.name) := by
  cases kind with
  | none => exact Json.exact_null
  | some kind => exact Json.exact_string kind.name

/-- Runs are not timed. -/
theorem exact_zero : (Json.integer 0).Exact :=
  Json.exact_integer.mpr (Text.isWritable_of_length (Int.le_refl 0) (by decide))

theorem exact_reportJson (h : report.Exact) : (reportJson report).Exact := by
  refine Json.each_object.mpr fun member hmember => ?_
  simp only [List.mem_cons, List.not_mem_nil, or_false] at hmember
  rcases hmember with rfl | rfl | rfl | rfl | rfl | rfl | rfl | rfl | rfl
  · exact Json.exact_bool report.success
  · exact Json.exact_string report.contract.address
  · exact Json.each_array.mpr h.results
  · exact Json.exact_strings report.output
  · exact exact_balances h.balances
  · exact Json.exact_integer.mpr h.steps
  · exact Json.exact_strings report.errors
  · exact exact_errorKind report.errorKind?
  · exact exact_zero

theorem exact_reportBody (h : report.Exact) : (reportBody report).Exact := by
  refine Json.each_object.mpr fun member hmember => ?_
  simp only [List.mem_cons, List.not_mem_nil, or_false] at hmember
  rcases hmember with rfl | rfl | rfl | rfl | rfl | rfl | rfl | rfl | rfl
  · exact Json.exact_bool report.success
  · exact Json.exact_string report.contract.address
  · exact Json.each_array.mpr h.results
  · exact Json.exact_strings report.output
  · exact exact_balances h.balances
  · exact Json.exact_integer.mpr h.steps
  · exact exact_zero
  · dsimp only
    split
    · exact Json.exact_null
    · exact Json.exact_string _
  · exact exact_errorKind report.errorKind?

/-! ## 3. Printing -/

namespace CommandLine

/-- Logging leaves everything but the standard error alone. -/
theorem foldl_log (records : List Run.Record) : ∀ outcome : Outcome,
    (records.foldl Outcome.log outcome).stdout = outcome.stdout ∧
      (records.foldl Outcome.log outcome).exitCode = outcome.exitCode ∧
        (records.foldl Outcome.log outcome).fault = outcome.fault := by
  induction records with
  | nil => exact fun _ => ⟨rfl, rfl, rfl⟩
  | cons record rest ih => exact fun outcome => ih (outcome.log record)

/-- A report is printed as JSON. -/
structure Printed (outcome : Outcome) (report : Run.Report) : Prop where
  stdout : outcome.stdout = (reportJson report).pretty ++ "\n"
  exitCode : outcome.exitCode = if report.success then 0 else 1
  fault : outcome.fault = none

/-- A report that can be written is printed, whatever was logged before. -/
theorem printed_sayReportJson {toolkit : Toolkit} (laws : toolkit.Laws) {report : Run.Report}
    (hexact : report.Exact) (records : List Run.Record) :
    Printed (sayReportJson toolkit (records.foldl Outcome.log {}) report) report := by
  obtain ⟨hstdout, -, hfault⟩ := foldl_log records {}
  rw [sayReportJson, (exact_reportJson hexact).writable.checked]
  refine ⟨?_, rfl, hfault⟩
  show (records.foldl Outcome.log {}).stdout ++ toolkit.echo _ = _
  rw [hstdout, laws.echo_plain (Json.plain_pretty _).not_mem_escape]
  exact String.empty_append

/-- **A command that prints JSON** prints the report of its run. -/
theorem runFile_printed {toolkit : Toolkit} (laws : toolkit.Laws) {maxDepth : Nat} {files : Files}
    {path contract script : String} {options : RunOptions} {ledger : Ledger} {report : Run.Report}
    (hjson : options.json = true) (hscript : files.script path = .ok script)
    (hledger : Ledger.ofPairs options.balances = .ok ledger)
    (hrun : (Run.interpret
      { me := ⟨contract⟩
        config :=
          { maxSteps := some options.maxSteps
            legacy := options.legacy
            trace := options.trace
            maxDepth } }
      script ledger (Run.accountBindings ledger) true).1 = .ok report)
    (hexact : report.Exact) :
    Printed (runFile toolkit maxDepth files path contract options) report := by
  rw [runFile, hscript, hledger]
  dsimp only [Outcome.andThen]
  rw [hrun, hjson]
  by_cases hlog : (options.verbose || options.trace) = true
  · rw [if_pos hlog]
    exact printed_sayReportJson laws hexact _
  · rw [if_neg hlog]
    exact printed_sayReportJson laws hexact []

end CommandLine

end LedgerScript
