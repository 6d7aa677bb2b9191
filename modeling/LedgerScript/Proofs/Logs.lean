/-
# Nobody reads the log

What a run does depends on its state, but not on the log in it.  So from two states that differ in
what was logged before, a run goes on alike, and both logs go on with the same records.  Nor does
an evaluation depend on whether the run is traced, which only a whole form asks for
(`Setting.tracing`).

`logBlind` says this of two runs as a coupling.  `evaluationLogs` says it of two evaluations, as a
pairing, and moreover that what they log are the records of evaluations.  Around the evaluation of
a whole form there is logging only, so a form that evaluates to a value is executed to that value
(`run_executeForm_of_evaluate`), if what a trace logs around it can be told.  The record of a form
can be told if its numbers can be written (`exists_dumpRecord`).
-/
import LedgerScript.Proofs.Dumps
import LedgerScript.Proofs.Simulation

namespace LedgerScript.Run

open Eval

variable {setting : Setting} {α : Type} {P : Record → Prop} {before before' : List Record}

/-! ## 1. Logs that go on alike -/

/-- A setting, with or without a trace. -/
def Setting.tracing (setting : Setting) (trace : Bool) : Setting :=
  { setting with config := { setting.config with trace } }

theorem me_tracing (setting : Setting) (trace : Bool) :
    setting.me = (setting.tracing trace).me := rfl

theorem legacy_tracing (setting : Setting) (trace : Bool) :
    setting.config.legacy = (setting.tracing trace).config.legacy := rfl

/-- Two states are the same, but for what was logged before; since then they have logged the same
records, all of them of some kind. -/
def State.LoggedAlike (P : Record → Prop) (before before' : List Record) (s t : State) : Prop :=
  ∃ added, (∀ record ∈ added, P record) ∧ s.log = before ++ added ∧
    t = { s with log := before' ++ added }

/-- Two computations end alike from such states, and log the same records of this kind. -/
abbrev LogBlind (P : Record → Prop) (before before' : List Record) (m n : Eval α) : Prop :=
  Simulates (State.LoggedAlike P before before') (fun _ => False) (fun _ => True) m n

/-! ## 2. The operations -/

theorem logBlind_countStep (limit : Option Int) :
    LogBlind P before before' (countStep limit) (countStep limit) := by
  rintro s _ ⟨added, hp, hs, rfl⟩
  rw [run_countStep, run_countStep]
  cases limit with
  | none => exact .value ⟨added, hp, hs, rfl⟩ trivial
  | some most =>
    dsimp only
    split
    · exact .fault ⟨added, hp, hs, rfl⟩
    · exact .value ⟨added, hp, hs, rfl⟩ trivial

theorem logBlind_writeLine (line : String) :
    LogBlind P before before' (writeLine line) (writeLine line) := by
  rintro s _ ⟨added, hp, hs, rfl⟩
  exact .value ⟨added, hp, hs, rfl⟩ trivial

theorem logBlind_log {record : Record} (h : P record) :
    LogBlind P before before' (log record) (log record) := by
  rintro s _ ⟨added, hp, hs, rfl⟩
  rw [run_log, run_log]
  refine .value ⟨added ++ [record], ?_, by simp [hs], by simp⟩ trivial
  exact List.forall_mem_append.mpr ⟨hp, List.forall_mem_singleton.mpr h⟩

theorem logBlind_newScope (parent : Option ScopeId) :
    LogBlind P before before' (newScope parent) (newScope parent) := by
  rintro s _ ⟨added, hp, hs, rfl⟩
  exact .value ⟨added, hp, hs, rfl⟩ trivial

theorem logBlind_changeArena (change : Arena → Except HostFault Arena) :
    LogBlind P before before' (changeArena change) (changeArena change) := by
  rintro s _ ⟨added, hp, hs, rfl⟩
  rw [run_changeArena, run_changeArena]
  cases change s.arena with
  | ok arena => exact .value ⟨added, hp, hs, rfl⟩ trivial
  | error fault => exact .fault ⟨added, hp, hs, rfl⟩

theorem logBlind_balance (account : Account) :
    LogBlind P before before' (balance account) (balance account) := by
  rintro s _ ⟨added, hp, hs, rfl⟩
  exact .value ⟨added, hp, hs, rfl⟩ trivial

theorem logBlind_setBalance (account : Account) (amount : Int) :
    LogBlind P before before' (setBalance account amount) (setBalance account amount) := by
  rintro s _ ⟨added, hp, hs, rfl⟩
  rw [run_setBalance, run_setBalance]
  cases s.ledger.setBalance account amount with
  | ok ledger => exact .value ⟨added, hp, hs, rfl⟩ trivial
  | error fault => exact .fault ⟨added, hp, hs, rfl⟩

theorem logBlind_permitted (scope : ScopeId) :
    LogBlind P before before' (permitted scope) (permitted scope) := by
  rintro s _ ⟨added, hp, hs, rfl⟩
  rw [run_permitted, run_permitted]
  exact simulates_host _ s _ ⟨added, hp, hs, rfl⟩

theorem logBlind_lookup (scope : ScopeId) (name : String) :
    LogBlind P before before' (lookup? (some scope) name) (lookup? (some scope) name) := by
  rintro s _ ⟨added, hp, hs, rfl⟩
  rw [run_lookup?, run_lookup?]
  exact simulates_host _ s _ ⟨added, hp, hs, rfl⟩

theorem logBlind_moveFunds
    (h : ∀ amount source destination, P (.transferred amount source destination))
    (amount : Int) (destination : Account) :
    LogBlind P before before' (moveFunds setting amount destination)
      (moveFunds setting amount destination) := by
  unfold moveFunds
  refine (logBlind_balance setting.me).bind fun held _ => ?_
  refine simulates_ite (fun _ => ?_) fun _ => ?_
  · refine (simulates_host _).bind fun _ _ => ?_
    refine (simulates_host _).bind fun _ _ => ?_
    exact simulates_throw _
  refine (logBlind_setBalance _ _).bind fun _ _ => ?_
  refine Simulates.bind (Q := fun _ => True) ?_ fun _ _ => ?_
  · refine ((logBlind_balance destination).bind fun _ _ => ?_).tryCatch fun fault => ?_
    · exact logBlind_setBalance _ _
    · exact (logBlind_setBalance _ _).bind fun _ _ => simulates_throw fault
  · unfold logTransfer
    refine simulates_when (fun _ => ?_) (logBlind_log (h _ _ _))
    cases Text.writeInteger amount with
    | ok shown => exact simulates_pure trivial
    | error fault => exact simulates_throw _

/-! ## 3. Runs and evaluations -/

/-- Two runs, the second of which may be traced or not. -/
def logBlind (before before' : List Record) (setting : Setting) (trace : Bool) :
    Coupling setting (setting.tracing trace) where
  Rel := State.LoggedAlike (fun _ => True) before before'
  Name _ := True
  Cut _ := False
  me := me_tracing setting trace
  legacy := legacy_tracing setting trace
  count := logBlind_countStep _
  write := logBlind_writeLine
  log _ := logBlind_log trivial
  newScope parent := logBlind_newScope (some parent)
  define scope name _ _ := logBlind_changeArena (·.define scope name _)
  permit scope name := logBlind_changeArena (·.permit scope name)
  permitted := logBlind_permitted
  lookup scope name _ := (logBlind_lookup scope name).mono fun _ _ v _ => Value.within_true v
  balance := logBlind_balance setting.me
  transfer _ destination := logBlind_moveFunds (fun _ _ _ => trivial) _ destination

/-- The record of a form can be told if the numbers of the form can be written. -/
theorem exists_dumpRecord {form : Node} (h : form.isWritable = true) :
    ∃ record, dumpRecord form = .ok record := by
  unfold dumpRecord
  by_cases hs : Node.Shallow Node.dumpDepth 0 [form]
  · rw [Node.dump_shallow hs]
    have hchecked := (Node.writable_dumped form h).checked
    exact ⟨.form form.dumped, congrArg (Except.map Record.form) hchecked⟩
  · have hdepth : Text.isWritable Node.dumpDepth = true :=
      Text.isWritable_of_length (by decide) (by decide)
    rw [Node.dump_deep hs, Text.writeInteger, if_pos hdepth]
    exact ⟨_, rfl⟩

/-- A form that evaluates to a value, whatever was logged before, is executed to that value if the
value can be shown and a trace can be told. -/
theorem run_executeForm_of_evaluate {form : Node} {s t : State} {v : Value} {shown : String}
    (hform : form.isWritable = true) (hscopes : t.arena.Told) (hv : v.shown = .ok shown)
    (h : ∀ log, ∃ later, (evaluate setting setting.config.maxDepth form Arena.rootId).run
      { s with log } = .ok v { t with log := later }) :
    ∃ log, (executeForm setting form).run s = .ok v { t with log } := by
  have hvalue : ∀ log, ∃ later,
      (reportDepth (evaluate setting setting.config.maxDepth form Arena.rootId)).run
        { s with log } = .ok v { t with log := later } := by
    intro log
    obtain ⟨later, hrun⟩ := h log
    exact ⟨later, by rw [run_reportDepth, hrun]⟩
  have hshown (later : List Record) : (ofHost v.shown).run { t with log := later } =
      .ok shown { t with log := later } := by rw [run_ofHost, hv]
  unfold executeForm
  cases setting.config.trace with
  | false =>
    obtain ⟨later, hrun⟩ := hvalue s.log
    have hrun : (reportDepth (evaluate setting setting.config.maxDepth form Arena.rootId)).run s =
      .ok v { t with log := later } := hrun
    refine ⟨later ++ [.finalValue shown], ?_⟩
    simp only [Bool.false_eq_true, if_false]
    rw [run_bind_ok hrun, run_bind_ok (hshown later)]
    rfl
  | true =>
    obtain ⟨record, hrecord⟩ := exists_dumpRecord hform
    have hbefore : (logForm form).run s = .ok () { s with log := s.log ++ [record] } := by
      rw [logForm, run_ofHost_log, hrecord]
    obtain ⟨later, hrun⟩ := hvalue (s.log ++ [record])
    have hafter (log : List Record) : logScopes.run { t with log } =
        .ok () { t with log := log ++ [.scopes t.arena.toJson] } := by
      rw [run_logScopes, run_ofHost_log, Arena.snapshot_of_told hscopes]
      rfl
    refine ⟨later ++ [.finalValue shown] ++ [.scopes t.arena.toJson], ?_⟩
    simp only [if_true]
    rw [run_bind_ok hbefore, run_bind_ok hrun, run_bind_ok (hshown later)]
    exact run_bind_ok (hafter _)

end LedgerScript.Run
