/-
# Ledgers that are loaded again

A run reports the balances of its ledger as a table, and a later run can start from that table.  A
ledger is loaded from the table that lists it just when it is loadable: no account comes in twice,
no balance is negative and no account is locked (`loadable_iff`).  Every write that a ledger
accepts keeps this, so every run keeps it, however it ends (`afterAll_keeps`).

So between two runs a ledger may be listed and loaded again.  It is the same ledger, with its
accounts in the same order, and what the next run draws from it, its bindings among them, is the
same as well; by induction on the runs they all come to the same (`afterAll_reloads`).
-/
import LedgerScript.Proofs.Conservation
import LedgerScript.Proofs.Permanence

namespace LedgerScript

/-! ## 1. Loadable ledgers -/

namespace Ledger

variable {ledger ledger' : Ledger} {account : Account} {amount : Int}

/-- A ledger that can be loaded: it is plain, and no account comes in twice. -/
structure Loadable (ledger : Ledger) : Prop extends Plain ledger where
  distinct : ledger.accounts.Nodup

theorem loadable_of_ofPairs {balances : Table String Int} (h : ofPairs balances = .ok ledger) :
    ledger.Loadable := ⟨plain_of_ofPairs h, nodup_of_ofPairs h⟩

theorem Loadable.setBalance (h : ledger.Loadable)
    (hs : ledger.setBalance account amount = .ok ledger') : ledger'.Loadable :=
  ⟨h.toPlain.setBalance hs, nodup_setBalance hs h.distinct⟩

/-- A ledger is listed by the addresses of its accounts. -/
theorem keys_toPairs (ledger : Ledger) :
    ledger.toPairs.keys = ledger.accounts.map Account.address := by
  simp [toPairs, accounts, Table.keys]

/-- Accounts that are different are listed under different addresses. -/
theorem nodup_keys_toPairs (h : ledger.accounts.Nodup) : ledger.toPairs.keys.Nodup := by
  rw [keys_toPairs]
  refine List.Pairwise.map Account.address (fun a b hne haddress => hne ?_) h
  cases a
  cases b
  exact congrArg _ haddress

/-- Ledgers without locked accounts are told apart by the tables that list them. -/
theorem eq_of_toPairs_eq (h : ledger'.toPairs = ledger.toPairs) (hl : ledger'.locked = [])
    (hl' : ledger.locked = []) : ledger' = ledger := by
  have hentry : ∀ entry entry' : Account × Int,
      (entry.1.address, entry.2) = (entry'.1.address, entry'.2) → entry = entry' := by
    rintro ⟨⟨a⟩, m⟩ ⟨⟨b⟩, n⟩ heq
    cases heq
    rfl
  obtain ⟨entries, locked⟩ := ledger
  obtain ⟨entries', locked'⟩ := ledger'
  cases hl
  cases hl'
  exact congrArg (Ledger.mk · []) ((List.map_inj_right hentry).mp h)

/-- **A ledger is loaded from the table that lists it** just when it is loadable. -/
theorem loadable_iff : ledger.Loadable ↔ ofPairs ledger.toPairs = .ok ledger := by
  constructor
  · intro h
    have h0 : ∀ pair ∈ ledger.toPairs, 0 ≤ pair.2 := by
      intro pair hmem
      obtain ⟨entry, hentry, rfl⟩ := List.mem_map.mp hmem
      exact h.solvent entry hentry
    obtain ⟨loaded, hload, hpairs⟩ := exists_loaded (nodup_keys_toPairs h.distinct) h0
    rw [hload, eq_of_toPairs_eq hpairs (locked_of_ofPairs hload) h.unlocked]
  · exact loadable_of_ofPairs

end Ledger

namespace Run

/-! ## 2. What runs keep -/

section Keeping

variable {P : Ledger → Prop}
  (hP : ∀ {ledger ledger' account amount},
    Ledger.setBalance ledger account amount = .ok ledger' → P ledger → P ledger')

include hP

/-- What every write keeps that the ledger accepts.  Neither the scopes nor the values matter. -/
def keeping (setting : Setting) : Discipline setting where
  Inv s := P s.ledger
  Home _ _ := True
  Good _ _ := True
  Step _ _ := True
  refl _ := trivial
  trans _ _ := trivial
  home_mono _ h := h
  good_mono _ h := h
  plain _ := trivial
  found _ _ _ := trivial
  count h := ⟨h, trivial⟩
  write _ h := ⟨h, trivial⟩
  log _ h := ⟨h, trivial⟩
  define h _ _ _ := ⟨h, trivial⟩
  capture _ h _ _ := ⟨h, trivial, trivial⟩
  enter _ h _ := ⟨h, trivial, trivial⟩
  share _ _ _ := trivial
  transfer _ hs h :=
    ((moved h).keeps hP hs).mono (fun _ _ h => ⟨h, trivial⟩) fun _ _ h => ⟨h, trivial⟩

theorem keeping_permits (setting : Setting) : (keeping hP setting).Permits :=
  fun _ _ _ _ h _ _ => ⟨h, trivial⟩

/-- A run keeps what every write keeps that its ledger accepts. -/
theorem run_keeps {ledger : Ledger} (h : P ledger) (setting : Setting) (script : String)
    (bindings : Table String Value) (listener : Bool) :
    P (stateOf (run setting script ledger bindings listener)).ledger := by
  obtain ⟨held, hb⟩ := between_run setting script ledger bindings listener
  have hi : (keeping hP setting).Inv (.initial ledger bindings listener) := h
  exact (Discipline.between (keeping_permits hP setting) hi trivial hb).1

/-- Jobs keep it, one after another. -/
theorem afterAll_keeps : ∀ (jobs : List Job) {ledger : Ledger}, P ledger → P (afterAll ledger jobs)
  | [], _, h => h
  | job :: rest, _, h => afterAll_keeps rest (run_keeps hP h job.setting job.script _ job.listener)

end Keeping

/-! ## 3. Reports of runs one after another -/

/-- What a job comes to on a ledger that lists its accounts, with the state at the end. -/
def Job.report (job : Job) (ledger : Ledger) : Except HostFault Report × State :=
  interpret job.setting job.script ledger (job.bindings ledger) true

/-- What jobs come to on one ledger, each where the one before has left it. -/
def reports : Ledger → List Job → List (Except HostFault Report × State)
  | _, [] => []
  | ledger, job :: rest =>
    let done := job.report ledger
    done :: reports done.2.ledger rest

/-- What jobs come to on ledgers that are loaded, the first from a table and each of the others from
the one that lists the ledger that was left. -/
def reloadedReports :
    Table String Int → List Job → Except HostFault (List (Except HostFault Report × State))
  | _, [] => .ok []
  | balances, job :: rest => do
    let ledger ← Ledger.ofPairs balances
    let done := job.report ledger
    let later ← reloadedReports done.2.ledger.toPairs rest
    .ok (done :: later)

/-- What is reported is the ledger that the run has left. -/
theorem ledger_interpret (setting : Setting) (script : String) (ledger : Ledger)
    (bindings : Table String Value) (lists : Bool) :
    (interpret setting script ledger bindings lists).2.ledger =
      (stateOf (run setting script ledger bindings false)).ledger := by
  unfold interpret
  cases run setting script ledger bindings false with
  | ok values state => rfl
  | error fault state => cases fault <;> rfl

/-- A report lists the ledger that the run has left. -/
theorem Job.balances_report (job : Job) {ledger : Ledger} {report : Report}
    (h : (job.report ledger).1 = .ok report) :
    report.balances = (job.report ledger).2.ledger.toPairs := by
  unfold Job.report interpret at h ⊢
  cases hrun : run job.setting job.script ledger (job.bindings ledger) false with
  | ok values state =>
    rw [hrun] at h
    cases h
    rfl
  | error fault state =>
    rw [hrun] at h
    cases fault <;> cases h <;> rfl

/-- A job leaves a loadable ledger loadable. -/
theorem Job.loadable_report (job : Job) {ledger : Ledger} (h : ledger.Loadable) :
    (job.report ledger).2.ledger.Loadable := by
  rw [Job.report, ledger_interpret]
  exact run_keeps (fun hs h => h.setBalance hs) h _ _ _ _

/-- Where a ledger is loaded from a table, jobs come to the same on the one as from the other. -/
theorem reloadedReports_eq : ∀ (jobs : List Job) {balances : Table String Int} {ledger : Ledger},
    Ledger.ofPairs balances = .ok ledger →
      reloadedReports balances jobs = .ok (reports ledger jobs)
  | [], _, _, _ => rfl
  | job :: rest, _, ledger, h => by
    have hleft := job.loadable_report (Ledger.loadable_of_ofPairs h)
    have hrest := reloadedReports_eq rest (Ledger.loadable_iff.mp hleft)
    simp only [reloadedReports, h, bind, Except.bind, hrest, reports]

theorem balances_of_mem_reports {jobs : List Job} {ledger : Ledger}
    {done : Except HostFault Report × State} (hmem : done ∈ reports ledger jobs) {report : Report}
    (hdone : done.1 = .ok report) : report.balances = done.2.ledger.toPairs := by
  induction jobs generalizing ledger with
  | nil => exact absurd hmem List.not_mem_nil
  | cons job rest ih =>
    rcases List.mem_cons.mp hmem with hfirst | hmem
    · rw [hfirst] at hdone ⊢
      exact job.balances_report hdone
    · exact ih hmem

/-- A job as it is reported, which nobody listens to. -/
def Job.unheard (job : Job) : Job := { job with listener := false }

/-- The ledger that is left by what some jobs came to, the first of them on a given ledger. -/
def ledgerLeft (ledger : Ledger) (done : List (Except HostFault Report × State)) : Ledger :=
  (done.getLast?.map fun last => last.2.ledger).getD ledger

/-- The last of the reports is about the ledger that the jobs leave. -/
theorem ledgerLeft_reports : ∀ (jobs : List Job) (ledger : Ledger),
    ledgerLeft ledger (reports ledger jobs) = afterAll ledger (jobs.map Job.unheard)
  | [], _ => rfl
  | job :: rest, ledger => by
    have hjob : (job.report ledger).2.ledger = job.unheard.after ledger :=
      ledger_interpret _ _ _ _ _
    have hrest := ledgerLeft_reports rest (job.report ledger).2.ledger
    have hleft : ledgerLeft ledger (reports ledger (job :: rest)) =
        ledgerLeft (job.report ledger).2.ledger (reports (job.report ledger).2.ledger rest) := by
      rw [reports, ledgerLeft, ledgerLeft, List.getLast?_cons]
      cases (reports (job.report ledger).2.ledger rest).getLast? <;> rfl
    rw [hleft, hrest, hjob]
    rfl

/-- **Balances can be fed to the next run.**  Jobs in any number, whatever they come to, leave a
ledger that was built from pairs with addresses that are all different, and it is loaded from the
table that lists it as it is.  So they come to the same, each with the same report and the same
state at the end, if they are made on one ledger or each on a ledger that is loaded from the
balances that the one before has left; and these are the balances that its report lists, the last
of them those of the ledger that the jobs leave where nobody listens. -/
theorem afterAll_reloads {balances : Table String Int} {ledger : Ledger}
    (h : Ledger.ofPairs balances = .ok ledger) (jobs : List Job) :
    (afterAll ledger jobs).toPairs.keys.Nodup ∧
    Ledger.ofPairs (afterAll ledger jobs).toPairs = .ok (afterAll ledger jobs) ∧
    reloadedReports balances jobs = .ok (reports ledger jobs) ∧
    ledgerLeft ledger (reports ledger jobs) = afterAll ledger (jobs.map Job.unheard) ∧
    ∀ done ∈ reports ledger jobs, ∀ report, done.1 = .ok report →
      report.balances = done.2.ledger.toPairs := by
  have hl : (afterAll ledger jobs).Loadable :=
    afterAll_keeps (fun hs h => h.setBalance hs) jobs (Ledger.loadable_of_ofPairs h)
  exact ⟨Ledger.nodup_keys_toPairs hl.distinct, Ledger.loadable_iff.mp hl,
    reloadedReports_eq jobs h, ledgerLeft_reports jobs ledger,
    fun _ hmem _ hdone => balances_of_mem_reports hmem hdone⟩

/-- A ledger with a bank only. -/
def onlyBank : Ledger := { entries := [(⟨"bank"⟩, 5)] }

/-- A stall that is not in the ledger pays nothing, and comes in by it. -/
def opening : Job where
  setting := { bank with me := ⟨"stall"⟩ }
  script := "($transfer 0 bank)"
  bindings := accountBindings
  listener := false

/-- The bank pays the stall, and then more than it holds. -/
def shopping : Job where
  setting := bank
  script := "($transfer 2 stall) ($transfer 9 stall)"
  bindings := accountBindings
  listener := false

/-- The stall is known by its name to the second run, which fails with the bank debited once. -/
theorem afterAll_reloads_shopping :
    Ledger.ofPairs [("bank", 5)] = .ok onlyBank ∧
    (afterAll onlyBank [opening, shopping]).toPairs = [("bank", 3), ("stall", 2)] ∧
    Ledger.ofPairs [("bank", 3), ("stall", 2)] = .ok (afterAll onlyBank [opening, shopping]) ∧
    reloadedReports [("bank", 5)] [opening, shopping, opening] =
      .ok (reports onlyBank [opening, shopping, opening]) ∧
    (ledgerLeft onlyBank (reports onlyBank [opening, shopping])).toPairs =
      [("bank", 3), ("stall", 2)] := by
  have h : Ledger.ofPairs [("bank", 5)] = .ok onlyBank := rfl
  have hpairs : (afterAll onlyBank [opening, shopping]).toPairs = [("bank", 3), ("stall", 2)] := by
    decide +kernel
  obtain ⟨-, hload, -, hleft, -⟩ := afterAll_reloads h [opening, shopping]
  obtain ⟨-, -, hreports, -⟩ := afterAll_reloads h [opening, shopping, opening]
  -- Neither job has a listener, so both are the jobs that are reported.
  exact ⟨h, hpairs, hpairs ▸ hload, hreports, (congrArg Ledger.toPairs hleft).trans hpairs⟩

end Run

end LedgerScript
