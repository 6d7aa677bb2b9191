/-
# Two front ends, one run

An errand can be told on a command line, which names a script file, or in the body of a request to
the service, and both come to the same run.  The front ends build the ledger, the bindings and the
configuration from different encodings: the amounts of a command line are text, those of a body are
integers; a file may end its lines in two characters.  How either encoding is read is up to a
toolkit and to a framework, of which `Toolkit.Laws` and `Framework.Laws` say what is relied on; the
reference ones keep these laws.  The scanner does not notice the line ends
(`Run.interpret_unified`), and the report is told alike (`told_alike`).

No integer may get too long to be written.  A run of an errand cannot fail to be reported for any
other reason (`Errand.exists_report`), since no account is locked and no balance is negative.  Nor
may the run be cut short by the depth of one host and not by that of the other.  A limit of steps
that is too long to be written is out of reach of the command line (`executes_not_alike`).
-/
import LedgerScript.Proofs.Depth
import LedgerScript.Proofs.LineEnds
import LedgerScript.Proofs.Reports
import LedgerScript.Proofs.Taxonomy
import LedgerScript.Service.ReferenceFramework

namespace LedgerScript

/-! ## 1. What ends a run -/

namespace Run

/-- The accounts of a ledger are bound to no closure. -/
theorem closureFree_accountBindings (ledger : Ledger) : ClosureFree (accountBindings ledger) := by
  intro binding hmem
  obtain ⟨account, -, rfl⟩ := List.mem_map.mp hmem
  rfl

/-- What the host refuses while no account is locked is a number that is too long. -/
theorem tooLong_of_interpret {setting : Setting} {script : String} {ledger : Ledger}
    {bindings : Table String Value} {lists : Bool} {fault : HostFault} (hs : ledger.Solvent)
    (hl : ledger.locked = []) (hf : ClosureFree bindings)
    (h : (interpret setting script ledger bindings lists).1 = .error fault) :
    fault = .integerTooLong ∨ ∃ digits, fault = .textTooLong digits := by
  have hends := run_fails setting script hs hf false
  unfold interpret at h
  generalize run setting script ledger bindings false = ended at hends h
  cases hends with
  | value => cases h
  | @fault fault' s hfails =>
    cases fault' with
    | host fault' =>
      cases h
      rcases hfails.host with ⟨digits, rfl, -⟩ | rfl | ⟨_, hmem, -⟩
      · exact .inr ⟨digits, rfl⟩
      · exact .inl rfl
      · rw [hl] at hmem
        exact absurd hmem List.not_mem_nil
    | script => cases h
    | tooDeep => cases h

end Run

/-! ## 2. Errands -/

open CommandLine Service

/-- What is to be run, whichever way it is asked for. -/
structure Errand where
  script : String
  contract : String
  balances : Table String Int
  maxSteps : Int
  legacy : Bool
  trace : Bool

namespace Errand

variable (errand : Errand)

/-- The errand as a command line for the script at a path. -/
def invocation (path : String) : Invocation where
  path := path
  contract := errand.contract
  items := errand.balances.map item
  steps := toString errand.maxSteps
  legacy := errand.legacy
  trace := errand.trace

/-- The errand as a request to the service. -/
def request : ExecuteRequest where
  script := errand.script
  contract := errand.contract
  balances := errand.balances
  options := some { maxSteps := errand.maxSteps, legacy := errand.legacy, trace := errand.trace }

/-- The body that tells the options of the errand. -/
def optionsBody : Json :=
  .object [("max_steps", .integer errand.maxSteps), ("legacy_semantics", .bool errand.legacy),
    ("trace", .bool errand.trace)]

/-- The body that tells the errand. -/
def body : Json :=
  .object [("script", .string errand.script), ("contract", .string errand.contract),
    ("balances", .object (errand.balances.map fun pair => (pair.1, .integer pair.2))),
    ("options", errand.optionsBody)]

/-- The post that asks the service for the errand. -/
def post : Service.Request := ⟨"POST", "/api/v1/execute", some errand.body⟩

/-- The setting of the run, on a host with some depth. -/
def setting (depth : Nat) : Run.Setting where
  me := ⟨errand.contract⟩
  config :=
    { maxSteps := some errand.maxSteps
      legacy := errand.legacy
      trace := errand.trace
      maxDepth := depth }

/-- What the run of the errand comes to, on a host with some depth. -/
def report (depth : Nat) : Except HostFault Run.Report := do
  let ledger ← Ledger.ofPairs errand.balances
  (Run.interpret (errand.setting depth) errand.script ledger (Run.accountBindings ledger) true).1

/-- What an errand has to be like: its balances are for different names that items can be made of,
none of them negative or too long, each carriage return of its script is before a line feed, and it
allows at least one step. -/
structure Proper : Prop where
  distinct : errand.balances.keys.Nodup
  names : ∀ pair ∈ errand.balances, IsItemName pair.1
  amounts : ∀ pair ∈ errand.balances, 0 ≤ pair.2 ∧ Text.isWritable pair.2 = true
  paired : ScriptFile.Paired errand.script.toList
  maxSteps : 1 ≤ errand.maxSteps

/-- No number gets too long: none that ends the run, and none that its report tells. -/
structure Within (depth : Nat) : Prop where
  run : ∀ fault, errand.report depth = .error fault →
    fault ≠ .integerTooLong ∧ ∀ digits, fault ≠ .textTooLong digits
  balances : ∀ report, errand.report depth = .ok report →
    ∀ entry ∈ report.balances, Text.isWritable entry.2 = true
  steps : ∀ report, errand.report depth = .ok report → Text.isWritable report.steps = true

/-- The depth is enough for the run. -/
def Shallow (depth : Nat) : Prop :=
  ∀ report, errand.report depth = .ok report → report.error? ≠ some .depthLimit

end Errand

/-- What the service relies on in a framework. -/
structure Service.Framework.Laws (framework : Framework) : Prop where
  /-- The fields of a body that are of the types asked for are passed on as they are, if its
  integers are short enough to be read. -/
  read_post (errand : Errand) (hdistinct : errand.balances.keys.Nodup)
    (hamounts : ∀ pair ∈ errand.balances, Text.isWritable pair.2 = true)
    (hpositive : 1 ≤ errand.maxSteps) (hsteps : Text.isWritable errand.maxSteps = true) :
    framework.read errand.post = .ok (.execute errand.request)
  /-- A body is sent as it is, with the status for success, if no number in it can lose by it. -/
  send_body {body : Json} (h : body.Exact) : framework.send (.body body) = .ok ⟨200, body⟩

/-! ## 3. The reference framework -/

namespace Service

theorem readIntegers_object (path : List String) (pairs : Table String Int) :
    readIntegers path (.object (pairs.map fun pair => (pair.1, .integer pair.2))) = .ok pairs := by
  rw [readIntegers, List.map_map]
  induction pairs with
  | nil => rfl
  | cons pair rest ih =>
    rw [List.map_cons, Checked.all, ih]
    rfl

theorem readMaxSteps_integer {n : Int} (h : 1 ≤ n) (path : List String) :
    readMaxSteps path (.integer n) = .ok n := if_neg (Int.not_lt.mpr h)

variable (errand : Errand)

theorem readOptions_optionsBody (h : 1 ≤ errand.maxSteps) (path : List String) :
    nullable (fieldsOf readOptions) path errand.optionsBody = .ok errand.request.options := by
  have hsteps (path : List String) :
      nullable readMaxSteps path (.integer errand.maxSteps) = .ok (some errand.maxSteps) := by
    rw [nullable, readMaxSteps_integer h]
    · rfl
    · nofun
  show ((Checked.both (nullable readMaxSteps (path ++ ["max_steps"]) (.integer errand.maxSteps))
    (Checked.both (.ok errand.legacy) (.ok errand.trace))).map _).map some = _
  rw [hsteps]
  rfl

/-- **A body is read back** as the request it was made from. -/
theorem readBody_body (h : 1 ≤ errand.maxSteps) :
    readBody readExecute (some errand.body) = .ok errand.request := by
  show (Checked.both (.ok errand.script) (Checked.both (.ok errand.contract) (Checked.both
    (readIntegers ["body", "balances"]
      (.object (errand.balances.map fun pair => (pair.1, .integer pair.2))))
    (nullable (fieldsOf readOptions) ["body", "options"] errand.optionsBody)))).map _ = _
  rw [readIntegers_object, readOptions_optionsBody errand h]
  rfl

theorem readable_of_writable {value : Json} (h : value.Writable) : value.readable = .ok value := by
  have hnone : value.atoms.findSome? Json.tooLong? = none := List.findSome?_eq_none_iff.mpr h
  rw [Json.readable, hnone]

/-- **The reference framework keeps the laws.** -/
theorem laws_referenceFramework : referenceFramework.Laws where
  read_post errand _ _ hpositive _ := by
    have hpath : Endpoint.ofPath? "/api/v1/execute" = some .execute := by decide
    show readRequest errand.post = _
    rw [readRequest, Errand.post, hpath]
    show callOrInvalid ((readBody readExecute (some errand.body)).map .execute) = _
    rw [readBody_body errand hpositive]
    rfl
  send_body {body} h := by
    show body.readable.map _ = _
    rw [readable_of_writable h.writable]
    rfl

end Service

/-! ## 4. Runs within the limits -/

namespace Errand

variable {errand : Errand} {depth depth' : Nat}

/-- The run of an errand, whose ledger can be made. -/
theorem report_eq (h : errand.Proper) :
    ∃ ledger, Ledger.ofPairs errand.balances = .ok ledger ∧
      ∀ depth, errand.report depth =
        (Run.interpret (errand.setting depth) errand.script ledger (Run.accountBindings ledger)
          true).1 := by
  obtain ⟨ledger, hledger⟩ := Ledger.exists_ofPairs fun pair hpair => (h.amounts pair hpair).1
  refine ⟨ledger, hledger, fun depth => ?_⟩
  rw [report, hledger]
  rfl

/-- **A run that stays within the limit is reported**, and its report can be written. -/
theorem exists_report (h : errand.Proper) (hw : errand.Within depth) :
    ∃ report, errand.report depth = .ok report ∧ report.Exact := by
  obtain ⟨ledger, hledger, hreport⟩ := report_eq h
  cases hr : errand.report depth with
  | ok report =>
    have hresults := Run.exact_results ((hreport depth).symm.trans hr)
    exact ⟨report, rfl, hresults, hw.balances report hr, hw.steps report hr⟩
  | error fault =>
    obtain ⟨hinteger, htext⟩ := hw.run fault hr
    have htooLong := Run.tooLong_of_interpret (Ledger.solvent_of_ofPairs hledger)
      (Ledger.locked_of_ofPairs hledger) (Run.closureFree_accountBindings ledger)
      ((hreport depth).symm.trans hr)
    rcases htooLong with rfl | ⟨digits, rfl⟩
    · exact absurd rfl hinteger
    · exact absurd rfl (htext digits)

/-- A run that ends with the depth limit is reported so. -/
theorem error?_of_exceeded {setting : Run.Setting} {script : String} {ledger : Ledger}
    {bindings : Table String Value} {lists : Bool}
    (h : Run.answerOf (Run.run setting script ledger bindings false) =
      .error (.script .depthLimit)) :
    ∃ report, (Run.interpret setting script ledger bindings lists).1 = .ok report ∧
      report.error? = some .depthLimit := by
  unfold Run.interpret
  cases hrun : Run.run setting script ledger bindings false with
  | ok values state => rw [hrun] at h; cases h
  | error fault state =>
    rw [hrun] at h
    cases h
    exact ⟨_, rfl, rfl⟩

/-- **A depth that is enough** may be made larger. -/
theorem report_deepened (h : errand.Proper) (hle : depth ≤ depth')
    (hshallow : errand.Shallow depth) : errand.report depth' = errand.report depth := by
  obtain ⟨ledger, -, hreport⟩ := report_eq h
  have hrun : Run.run (errand.setting depth') errand.script ledger
      (Run.accountBindings ledger) false =
      Run.run (errand.setting depth) errand.script ledger (Run.accountBindings ledger) false := by
    refine ((Run.curtails_bounded (errand.setting depth) hle errand.script).curtailed _
      trivial).eq_of_not_cut fun hcut => ?_
    obtain ⟨report, hr, herror⟩ := error?_of_exceeded hcut
    exact hshallow report ((hreport depth).trans hr) herror
  rw [hreport, hreport, Run.interpret, Run.interpret, hrun]
  rfl

/-! ## 5. What either front end tells -/

/-- The items of an errand are read back as its balances. -/
theorem parseBalances_items (h : errand.Proper) :
    parseBalances (errand.balances.map item) = .ok errand.balances := by
  rw [parseBalances, readBalances_items h.names h.amounts, Table.ofPairs_of_nodup h.distinct]
  rfl

section Told

variable {report : Run.Report}

/-- **What the command line tells of a run:** its report as JSON, and an exit code. -/
theorem perform_told (h : errand.Proper) (hsteps : Text.isWritable errand.maxSteps = true)
    {toolkit : Toolkit} (laws : toolkit.Laws) {files : Files} {path : String}
    (hpath : '\x00' ∉ path.toList) (hfile : files path = some (.file errand.script.toUTF8))
    (hr : errand.report depth = .ok report) (hexact : report.Exact) :
    Printed (perform toolkit depth files (errand.invocation path).words) report := by
  obtain ⟨ledger, hledger, hreport⟩ := report_eq h
  have hscript : files.script path =
      .ok (String.ofList (ScriptFile.unifyLineEnds errand.script.toList)) := by
    rw [Files.script, if_neg (by simpa using hpath), hfile]
    exact ScriptFile.script_toUTF8 errand.script
  rw [hreport, ← Run.interpret_unified h.paired] at hr
  have hread := laws.read_words (errand.invocation path) hpath hfile (parseBalances_items h)
    (Text.readInteger_toString hsteps)
  rw [perform, hread]
  exact runFile_printed laws rfl hscript hledger hr hexact

/-- **What the service tells of a run:** its report as the body of an answer. -/
theorem respond_told (h : errand.Proper) (hsteps : Text.isWritable errand.maxSteps = true)
    {framework : Framework} (laws : framework.Laws) (runner : Runner)
    (hr : errand.report depth = .ok report) (hexact : report.Exact) :
    respond framework runner depth errand.post = .ok ⟨200, reportBody report⟩ := by
  have hread := laws.read_post errand h.distinct (fun pair hpair => (h.amounts pair hpair).2)
    h.maxSteps hsteps
  have hsolvent : (errand.request.balances.any fun pair => decide (pair.2 < 0)) = false := by
    rw [List.any_eq_false]
    intro pair hpair
    simpa using (h.amounts pair hpair).1
  have hreply : executeScript depth errand.request = .ok (.body (reportBody report)) := by
    obtain ⟨ledger, hledger, hreport⟩ := report_eq h
    have hledger : Ledger.ofPairs errand.request.balances = .ok ledger := hledger
    rw [hreport] at hr
    rw [executeScript, hsolvent, hledger]
    show ((Run.interpret (errand.setting depth) errand.script ledger (Run.accountBindings ledger)
      true).1 >>= _) = _
    rw [hr]
    rfl
  rw [respond, hread]
  show (executeScript depth errand.request >>= framework.send) = _
  rw [hreply]
  exact laws.send_body (exact_reportBody hexact)

end Told

/-- A command and an answer that tell of the same run: the command prints the report as JSON, which
the answer repeats member by member, but for the errors, which the answer joins. -/
structure Alike (report : Run.Report) (outcome : Outcome) (response : Response) : Prop where
  stdout : outcome.stdout = (reportJson report).pretty ++ "\n"
  exitCode : outcome.exitCode = if report.success then 0 else 1
  fault : outcome.fault = none
  status : response.status = 200
  shared : ∀ name ∈ sharedMembers, ∃ value, (reportJson report).member? name = some value ∧
    response.body.member? name = some value
  successful : (reportJson report).member? "success" = some (.bool report.success)
  listed : (reportJson report).member? "errors" = some (.array (report.errors.map .string))
  joined : response.body.member? "error" =
    some (if report.errors.isEmpty then .null else .string ("; ".intercalate report.errors))

theorem alike_of_told {report : Run.Report} {outcome : Outcome} (h : Printed outcome report) :
    Alike report outcome ⟨200, reportBody report⟩ where
  stdout := h.stdout
  exitCode := h.exitCode
  fault := h.fault
  status := rfl
  shared := told_alike report
  successful := rfl
  listed := rfl
  joined := rfl

/-- **The front ends execute alike.**  Let an errand be told on a command line and in the body of a
request.  Its script has a line feed behind each carriage return, its balances are for different
names that items can be made of, and none is negative or too long, and it allows at least one step;
the number of steps that it allows is not too long either.  If no number of its run gets too long,
then the command prints the report of the run as JSON and the service answers with it, and these
agree on the success, the contract, the results, the output, the balances, the steps and the kind of
error; the answer has no error exactly if the command lists none, and else has them joined, and the
command exits with zero for success and with one for failure.

The command may run on a host that lets evaluations nest deeper than that of the service, or less
deep; then the smaller depth has to be enough for the run. -/
theorem executes_alike {toolkit : Toolkit} (hcommand : toolkit.Laws) {framework : Framework}
    (hservice : framework.Laws) (h : errand.Proper)
    (hsteps : Text.isWritable errand.maxSteps = true) {files : Files} {path : String}
    (hpath : '\x00' ∉ path.toList) (hfile : files path = some (.file errand.script.toUTF8))
    (depth depth' : Nat) (hw : errand.Within (min depth depth'))
    (hdepth : depth = depth' ∨ errand.Shallow (min depth depth')) (runner : Runner) :
    ∃ report response, errand.report (min depth depth') = .ok report ∧
      respond framework runner depth' errand.post = .ok response ∧
      Alike report (perform toolkit depth files (errand.invocation path).words) response := by
  obtain ⟨report, hr, hexact⟩ := exists_report h hw
  obtain ⟨hdeep, hdeep'⟩ :
      errand.report depth = .ok report ∧ errand.report depth' = .ok report := by
    rcases hdepth with rfl | hshallow
    · rw [Nat.min_self] at hr
      exact ⟨hr, hr⟩
    · exact ⟨(report_deepened h (Nat.min_le_left _ _) hshallow).trans hr,
        (report_deepened h (Nat.min_le_right _ _) hshallow).trans hr⟩
  exact ⟨report, _, hr, respond_told h hsteps hservice runner hdeep' hexact,
    alike_of_told (perform_told h hsteps hcommand hpath hfile hdeep hexact)⟩

/-- A day's work: the bank pays the shop and looks what is left. -/
def errandOfTheDay : Errand where
  script := "; the day
($transfer 2 shop)
($balance $me)"
  contract := "bank"
  balances := [("bank", 5), ("shop", 0)]
  maxSteps := 100
  legacy := false
  trace := true

/-- The same work without a trace, and with a limit of steps that takes one digit too many. -/
def errandOfAges : Errand :=
  { errandOfTheDay with maxSteps := Text.powerOfTen digitLimit, trace := false }

/-- A shelf with the script of the day on it. -/
def shelf : Files := fun path =>
  if path = "day.sl" then some (.file errandOfTheDay.script.toUTF8) else none

/-- The work is proper, traced or not, whatever number of steps it allows, if it allows any. -/
theorem proper_errandOfTheDay {maxSteps : Int} (h : 1 ≤ maxSteps) (trace : Bool) :
    ({ errandOfTheDay with maxSteps, trace } : Errand).Proper where
  distinct := by
    have hnodup : errandOfTheDay.balances.keys.Nodup := by decide
    exact hnodup
  names := by
    have hall : ∀ pair ∈ errandOfTheDay.balances, pair.1 ≠ "" ∧ '=' ∉ pair.1.toList := by decide
    exact hall
  amounts := by
    have hall : ∀ pair ∈ errandOfTheDay.balances,
        0 ≤ pair.2 ∧ (toString pair.2).length ≤ digitLimit := by decide
    exact fun pair hpair => ⟨(hall pair hpair).1,
      Text.isWritable_of_length (hall pair hpair).1 (hall pair hpair).2⟩
  paired := by
    have hpaired : ScriptFile.Paired errandOfTheDay.script.toList := by decide +kernel
    exact hpaired
  maxSteps := h

/-- The day's work is done: the bank keeps three, after four steps. -/
def IsDone (report : Run.Report) : Prop :=
  report.success = true ∧ report.balances = [("bank", 3), ("shop", 2)] ∧ report.steps = 4

theorem exists_report_of_summary (h : (errand.report depth).map
    (fun report => (report.success, report.balances, report.steps)) =
      .ok (true, [("bank", 3), ("shop", 2)], 4)) :
    ∃ report, errand.report depth = .ok report ∧ IsDone report := by
  generalize errand.report depth = result at h ⊢
  cases result with
  | error fault => cases h
  | ok report =>
    obtain ⟨hsuccess, hrest⟩ := Prod.mk.inj (Except.ok.inj h)
    exact ⟨report, rfl, hsuccess, Prod.mk.inj hrest⟩

/-- Work that is done has stayed within the limits. -/
theorem within_of_isDone {report : Run.Report} (hr : errand.report depth = .ok report)
    (hdone : IsDone report) : errand.Within depth ∧ errand.Shallow depth := by
  obtain ⟨hsuccess, hbalances, hsteps⟩ := hdone
  refine ⟨⟨fun fault hfault => ?_, fun other hother => ?_, fun other hother => ?_⟩,
    fun other hother hexceeded => ?_⟩
  · rw [hr] at hfault
    cases hfault
  · cases hr.symm.trans hother
    have hall : ∀ pair ∈ [("bank", (3 : Int)), ("shop", 2)],
        0 ≤ pair.2 ∧ (toString pair.2).length ≤ digitLimit := by decide
    rw [hbalances]
    exact fun pair hpair => Text.isWritable_of_length (hall pair hpair).1 (hall pair hpair).2
  · cases hr.symm.trans hother
    rw [hsteps]
    exact Text.isWritable_of_length (by decide) (by decide)
  · cases hr.symm.trans hother
    unfold Run.Report.success Run.Report.error? at *
    cases houtcome : report.outcome with
    | ok results => rw [houtcome] at hexceeded; cases hexceeded
    | error error => rw [houtcome] at hsuccess; cases hsuccess

/-- The errand of the day, told both ways, to a service on a host that is less deep. -/
theorem executes_alike_errandOfTheDay :
    errandOfTheDay.Proper ∧ errandOfTheDay.Within 400 ∧ errandOfTheDay.Shallow 400 ∧
    ∃ report response, IsDone report ∧
      respond referenceFramework interpreter 400 errandOfTheDay.post = .ok response ∧
      Alike report
        (perform referenceToolkit 500 shelf (errandOfTheDay.invocation "day.sl").words)
        response := by
  have hproper : errandOfTheDay.Proper := proper_errandOfTheDay (by decide) true
  obtain ⟨report, hr, hdone⟩ : ∃ report, errandOfTheDay.report 400 = .ok report ∧ IsDone report :=
    exists_report_of_summary (by decide +kernel)
  obtain ⟨hwithin, hshallow⟩ := within_of_isDone hr hdone
  have hsteps : Text.isWritable errandOfTheDay.maxSteps = true :=
    Text.isWritable_of_length (by decide) (by decide)
  have hpath : '\x00' ∉ "day.sl".toList := by decide
  have hshelf : shelf "day.sl" = some (.file errandOfTheDay.script.toUTF8) := if_pos rfl
  obtain ⟨_, response, hr', hrespond, halike⟩ :=
    executes_alike laws_referenceToolkit laws_referenceFramework hproper hsteps hpath hshelf 500 400
      hwithin (.inr hshallow) interpreter
  cases hr.symm.trans hr'
  exact ⟨hproper, hwithin, hshallow, report, response, hdone, hrespond, halike⟩

/-- A limit of steps that is too long to be written is refused by the command line. -/
theorem exitCode_of_long (h : errand.Proper) (hlong : Text.isWritable errand.maxSteps = false)
    (depth : Nat) {files : Files} {path : String} {bytes : ByteArray}
    (hpath : '\x00' ∉ path.toList) (hfile : files path = some (.file bytes)) :
    (perform referenceToolkit depth files (errand.invocation path).words).exitCode = 2 := by
  have hsteps := Text.readInteger_eq_none_of_long (Int.le_trans (by decide) h.maxSteps) hlong
  have hread : readWords parseBalances files (errand.invocation path).words =
      .error (.usage (.maxStepsNotInteger (toString errand.maxSteps))) :=
    Invocation.readWords_unreadable hpath hfile (parseBalances_items h) hsteps
  rw [perform, referenceToolkit]
  dsimp only
  rw [hread]
  rfl

/-- The errand of ages would be done as well, but its command line is refused: it tells of no run,
and exits with two. -/
theorem executes_not_alike :
    errandOfAges.Proper ∧ errandOfAges.Within 400 ∧ errandOfAges.Shallow 400 ∧
    (∃ report, errandOfAges.report 400 = .ok report ∧ IsDone report) ∧
    referenceToolkit.Laws ∧
    (perform referenceToolkit 400 shelf (errandOfAges.invocation "day.sl").words).exitCode = 2 ∧
    ¬ ∃ report response, Alike report
      (perform referenceToolkit 400 shelf (errandOfAges.invocation "day.sl").words) response := by
  have hpositive : 1 ≤ errandOfAges.maxSteps :=
    Int.natCast_pos.mpr (Text.powerOfTen_pos digitLimit)
  have hproper : errandOfAges.Proper := proper_errandOfTheDay hpositive false
  obtain ⟨report, hr, hdone⟩ : ∃ report, errandOfAges.report 400 = .ok report ∧ IsDone report :=
    exists_report_of_summary (by decide +kernel)
  obtain ⟨hwithin, hshallow⟩ := within_of_isDone hr hdone
  have hshelf : shelf "day.sl" = some (.file errandOfAges.script.toUTF8) := if_pos rfl
  have hpath : '\x00' ∉ "day.sl".toList := by decide
  have hcode := exitCode_of_long hproper Text.not_isWritable_powerOfTen 400 hpath hshelf
  refine ⟨hproper, hwithin, hshallow, ⟨report, hr, hdone⟩, laws_referenceToolkit, hcode, ?_⟩
  rintro ⟨report, response, halike⟩
  have hexit := hcode.symm.trans halike.exitCode
  split at hexit <;> cases hexit

end Errand

end LedgerScript
