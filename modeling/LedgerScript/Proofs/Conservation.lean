/-
# Runs move funds and make none

A run changes the ledger through transfers only, and a transfer keeps the total and leaves no
balance negative at each of its ends: refused, restored, done, or done and then faulting
(`Moved`).  So whatever a script does and however its run ends, the total is what it was and the
ledger stays solvent (`conserving`); and a ledger that one run leaves is a ledger for the next, so
the same holds of runs in any number, by any contracts (`afterAll_conserves`).
-/
import LedgerScript.Proofs.Discipline
import LedgerScript.Proofs.Funds

namespace LedgerScript.Run

open Eval

variable {setting : Setting} {s : State}

/-! ## 1. One transfer -/

/-- A debit and the credit of the same amount keep the total. -/
theorem total_of_credit {ledger debited credited : Ledger} {me destination : Account}
    {amount : Int} (hd : ledger.setBalance me (ledger.balance me - amount) = .ok debited)
    (hc : debited.setBalance destination (debited.balance destination + amount) =
      .ok credited) : credited.total = ledger.total := by
  have h₁ := Ledger.total_setBalance hd
  have h₂ := Ledger.total_setBalance hc
  omega

/-- A debit that is restored keeps the total. -/
theorem total_of_restore {ledger debited restored : Ledger} {me : Account} {amount : Int}
    (hd : ledger.setBalance me amount = .ok debited)
    (hr : debited.setBalance me (ledger.balance me) = .ok restored) :
    restored.total = ledger.total := by
  have h₁ := Ledger.total_setBalance hd
  have h₂ := Ledger.total_setBalance hr
  have h₃ := Ledger.balance_of_setBalance hd me
  rw [if_pos rfl] at h₃
  omega

/-- A transfer keeps the total and the ledger solvent, at whichever end. -/
theorem Moved.conserves {amount : Int} {destination : Account}
    {r : EStateM.Result Fault State Unit} (hm : Moved setting amount destination s r)
    (hs : s.ledger.Solvent) :
    Ends (fun _ t => t.ledger.Solvent ∧ t.ledger.total = s.ledger.total)
      (fun _ t => t.ledger.Solvent ∧ t.ledger.total = s.ledger.total) r := by
  cases hm with
  | refused fault => exact .fault ⟨hs, rfl⟩
  | restored fault hd hr =>
    exact .fault ⟨(hs.setBalance hd).setBalance hr, total_of_restore hd hr⟩
  | done log hd hc => exact .value ⟨(hs.setBalance hd).setBalance hc, total_of_credit hd hc⟩
  | untold fault hd hc =>
    exact .fault ⟨(hs.setBalance hd).setBalance hc, total_of_credit hd hc⟩

/-! ## 2. One run -/

/-- Solvent ledgers that keep their total.  Neither the scopes nor the values matter. -/
def conserving (setting : Setting) : Discipline setting where
  Inv s := s.ledger.Solvent
  Home _ _ := True
  Good _ _ := True
  Step s t := t.ledger.total = s.ledger.total
  refl _ := rfl
  trans h₁ h₂ := h₂.trans h₁
  home_mono _ h := h
  good_mono _ h := h
  plain _ := trivial
  found _ _ _ := trivial
  count h := ⟨h, rfl⟩
  write _ h := ⟨h, rfl⟩
  log _ h := ⟨h, rfl⟩
  define h _ _ _ := ⟨h, rfl⟩
  capture _ h _ _ := ⟨h, rfl, trivial⟩
  enter _ h _ := ⟨h, rfl, trivial⟩
  share _ _ _ := trivial
  transfer _ hs h := (moved h).conserves hs

theorem conserving_permits : (conserving setting).Permits := fun _ _ _ _ h _ _ => ⟨h, rfl⟩

/-- A run that starts with a solvent ledger ends with a solvent ledger of the same total. -/
theorem run_conserves (setting : Setting) {ledger : Ledger} (hs : ledger.Solvent)
    (script : String) (bindings : Table String Value) (listener : Bool) :
    (stateOf (run setting script ledger bindings listener)).ledger.Solvent ∧
      (stateOf (run setting script ledger bindings listener)).ledger.total = ledger.total := by
  obtain ⟨held, hb⟩ := between_run setting script ledger bindings listener
  have hi : (conserving setting).Inv (.initial ledger bindings listener) := hs
  obtain ⟨hi', hstep, -⟩ := Discipline.between conserving_permits hi trivial hb
  exact ⟨hi', hstep⟩

/-! ## 3. Runs one after another -/

/-- A run that is to be made on a ledger; its bindings may be drawn from that ledger. -/
structure Job where
  setting : Setting
  script : String
  bindings : Ledger → Table String Value
  listener : Bool

/-- The ledger that a job leaves, however its run ends. -/
def Job.after (job : Job) (ledger : Ledger) : Ledger :=
  (stateOf (run job.setting job.script ledger (job.bindings ledger) job.listener)).ledger

/-- The ledger that jobs leave, one after another. -/
def afterAll (ledger : Ledger) (jobs : List Job) : Ledger :=
  jobs.foldl (fun ledger job => job.after ledger) ledger

theorem afterAll_solvent : ∀ (jobs : List Job) {ledger : Ledger}, ledger.Solvent →
    (afterAll ledger jobs).Solvent ∧ (afterAll ledger jobs).total = ledger.total
  | [], _, hs => ⟨hs, rfl⟩
  | job :: rest, ledger, hs => by
    obtain ⟨hs', ht⟩ :=
      run_conserves job.setting hs job.script (job.bindings ledger) job.listener
    obtain ⟨hs'', ht'⟩ := afterAll_solvent rest hs'
    exact ⟨hs'', ht'.trans ht⟩

/-- **Conservation and solvency.**  Jobs in any number leave a ledger that was built from pairs,
with some accounts locked or none, with the total it had and without a negative balance. -/
theorem afterAll_conserves {balances : Table String Int} {ledger : Ledger}
    (h : Ledger.ofPairs balances = .ok ledger) (locked : List Account) (jobs : List Job) :
    (afterAll (ledger.lock locked) jobs).total = ledger.total ∧
      ∀ entry ∈ (afterAll (ledger.lock locked) jobs).entries, 0 ≤ entry.2 := by
  have hs : ledger.Solvent := Ledger.solvent_of_ofPairs h
  obtain ⟨hs', ht⟩ := afterAll_solvent jobs (hs.lock locked)
  exact ⟨ht, hs'⟩

/-- A ledger with a bank, a shop and a till. -/
def bankLedger : Ledger := { entries := [(⟨"bank"⟩, 5), (⟨"shop"⟩, 1), (⟨"till"⟩, 0)] }

/-- The bank pays itself, then the shop, then the till. -/
def payments : Job where
  setting := bank
  script := "($transfer 1 $me) ($transfer 2 shop) ($transfer 1 till)"
  bindings := accountBindings
  listener := false

/-- With the till locked, the last payment is refused in either of two runs, and its debit is
restored. -/
theorem afterAll_conserves_payments :
    Ledger.ofPairs [("bank", 5), ("shop", 1), ("till", 0)] = .ok bankLedger ∧
      (payments.after (bankLedger.lock [⟨"till"⟩])).toPairs =
        [("bank", 3), ("shop", 3), ("till", 0)] ∧
      (afterAll (bankLedger.lock [⟨"till"⟩]) [payments, payments]).total = bankLedger.total ∧
      ∀ entry ∈ (afterAll (bankLedger.lock [⟨"till"⟩]) [payments, payments]).entries,
        0 ≤ entry.2 := by
  have h : Ledger.ofPairs [("bank", 5), ("shop", 1), ("till", 0)] = .ok bankLedger := rfl
  refine ⟨h, by decide +kernel, ?_⟩
  exact afterAll_conserves h [⟨"till"⟩] [payments, payments]

end LedgerScript.Run
