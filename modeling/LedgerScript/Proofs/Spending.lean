/-
# Only the contract spends

A transfer takes from the executing contract and gives to its destination.  So it lowers no
balance but the contract's own and raises no balance to the contract's gain, whichever of its
ends it comes to: refused, restored, done, or done and then faulting (`Moved.paidFrom`).  An
account that is locked is never written at all.

Being paid from the contract is a preorder of ledgers, so a run keeps it: at its end, at every
state it reaches, and across every evaluation inside it (`run_paidFrom`).  Nothing is asked of the
ledger the run starts from, nor of the bindings.
-/
import LedgerScript.Proofs.Discipline
import LedgerScript.Proofs.Funds

namespace LedgerScript

/-! ## 1. Ledgers that one account has paid from -/

namespace Ledger

variable {me account destination : Account} {amount : Int} {a b c : Ledger}

/-- From one ledger to the next only `me` has lost: every other account holds at least what it
held, `me` at most what it held, and the locked accounts hold the same. -/
structure PaidFrom (me : Account) (before after : Ledger) : Prop where
  locked : after.locked = before.locked
  others (account : Account) : account ≠ me → before.balance account ≤ after.balance account
  own : after.balance me ≤ before.balance me
  held (account : Account) : account ∈ before.locked →
    after.balance account = before.balance account

theorem PaidFrom.refl (me : Account) (a : Ledger) : a.PaidFrom me a :=
  ⟨rfl, fun _ _ => Int.le_refl _, Int.le_refl _, fun _ _ => rfl⟩

theorem PaidFrom.trans (h : a.PaidFrom me b) (h' : b.PaidFrom me c) : a.PaidFrom me c where
  locked := h'.locked.trans h.locked
  others account hne := Int.le_trans (h.others account hne) (h'.others account hne)
  own := Int.le_trans h'.own h.own
  held account hl := (h'.held account (h.locked ▸ hl)).trans (h.held account hl)

/-- A write leaves the locked accounts alone. -/
theorem balance_of_locked (h : a.setBalance account amount = .ok b) {other : Account}
    (hl : other ∈ a.locked) : b.balance other = a.balance other := by
  obtain ⟨hfree, -, -⟩ := setBalance_eq_ok_iff.mp h
  have hne : account ≠ other := fun heq => hfree (heq ▸ hl)
  rw [balance_of_setBalance h, if_neg hne]

/-- A write that takes from `me`, or gives to another account, is paid from `me`. -/
theorem paidFrom_of_setBalance (h : a.setBalance account amount = .ok b)
    (hown : account = me → amount ≤ a.balance me)
    (hother : account ≠ me → a.balance account ≤ amount) : a.PaidFrom me b where
  locked := locked_of_setBalance h
  others other hne := by
    rw [balance_of_setBalance h]
    split
    · next heq => exact heq ▸ hother (heq ▸ hne)
    · exact Int.le_refl _
  own := by
    rw [balance_of_setBalance h]
    split
    · next heq => exact hown heq
    · exact Int.le_refl _
  held _ hl := balance_of_locked h hl

/-- A debit and a credit of the same amount are paid from the account that was debited. -/
theorem paidFrom_of_credit (hn : 0 ≤ amount)
    (hd : a.setBalance me (a.balance me - amount) = .ok b)
    (hc : b.setBalance destination (b.balance destination + amount) = .ok c) :
    a.PaidFrom me c := by
  have hme : b.balance me = a.balance me - amount := by
    rw [balance_of_setBalance hd, if_pos rfl]
  by_cases hself : destination = me
  -- a payment to oneself goes below and back to what there was
  · subst hself
    have hback : c.balance destination = a.balance destination := by
      rw [balance_of_setBalance hc, if_pos rfl]
      omega
    have hrest (other : Account) : c.balance other = a.balance other := by
      by_cases heq : destination = other
      · exact heq ▸ hback
      · rw [balance_of_setBalance hc, if_neg heq, balance_of_setBalance hd, if_neg heq]
    exact ⟨(locked_of_setBalance hc).trans (locked_of_setBalance hd),
      fun other _ => Int.le_of_eq (hrest other).symm, Int.le_of_eq hback,
      fun other _ => hrest other⟩
  · have hdebit : a.PaidFrom me b :=
      paidFrom_of_setBalance hd (fun _ => by omega) fun hne => absurd rfl hne
    have hcredit : b.PaidFrom me c :=
      paidFrom_of_setBalance hc (fun heq => absurd heq hself) fun _ => by omega
    exact hdebit.trans hcredit

/-- A debit that is restored changes no balance. -/
theorem paidFrom_of_restore (hd : a.setBalance me amount = .ok b)
    (hr : b.setBalance me (a.balance me) = .ok c) : a.PaidFrom me c := by
  have hsame (other : Account) : c.balance other = a.balance other := by
    rw [balance_of_setBalance hr, balance_of_setBalance hd]
    split
    · next heq => rw [heq]
    · rfl
  exact ⟨(locked_of_setBalance hr).trans (locked_of_setBalance hd),
    fun other _ => Int.le_of_eq (hsame other).symm, Int.le_of_eq (hsame me),
    fun other _ => hsame other⟩

end Ledger

namespace Run

open Eval

variable {setting : Setting} {s : State}

/-! ## 2. One transfer -/

/-- **A transfer is paid from the contract**, at whichever end. -/
theorem Moved.paidFrom {amount : Int} (hn : 0 ≤ amount) {destination : Account}
    {r : EStateM.Result Fault State Unit} (hm : Moved setting amount destination s r) :
    s.ledger.PaidFrom setting.me (stateOf r).ledger := by
  cases hm with
  | refused fault => exact .refl _ _
  | restored fault hd hr => exact Ledger.paidFrom_of_restore hd hr
  | done log hd hc => exact Ledger.paidFrom_of_credit hn hd hc
  | untold fault hd hc => exact Ledger.paidFrom_of_credit hn hd hc

/-! ## 3. Runs -/

/-- Ledgers that the contract has paid from, since the run started and at every step.  Neither the
scopes nor the values matter. -/
def spending (setting : Setting) (origin : Ledger) : Discipline setting where
  Inv s := origin.PaidFrom setting.me s.ledger
  Home _ _ := True
  Good _ _ := True
  Step s t := s.ledger.PaidFrom setting.me t.ledger
  refl _ := .refl _ _
  trans h₁ h₂ := h₁.trans h₂
  home_mono _ h := h
  good_mono _ h := h
  plain _ := trivial
  found _ _ _ := trivial
  count h := ⟨h, .refl _ _⟩
  write _ h := ⟨h, .refl _ _⟩
  log _ h := ⟨h, .refl _ _⟩
  define h _ _ _ := ⟨h, .refl _ _⟩
  capture _ h _ _ := ⟨h, .refl _ _, trivial⟩
  enter _ h _ := ⟨h, .refl _ _, trivial⟩
  share _ _ _ := trivial
  transfer {s amount} destination hi hn := by
    have hm : Moved setting amount destination s _ := moved hn
    have hm := hm.paidFrom hn
    generalize (moveFunds setting amount destination).run s = r at hm ⊢
    cases r with
    | ok => exact .value ⟨hi.trans hm, hm⟩
    | error => exact .fault ⟨hi.trans hm, hm⟩

theorem spending_permits (setting : Setting) (origin : Ledger) :
    (spending setting origin).Permits := fun _ _ _ _ h _ _ => ⟨h, .refl _ _⟩

/-- **Only the contract spends.**  However a run ends, every account but the contract's holds at
the end at least what it held before the run, the contract at most what it held, and the locked
accounts hold the same.  So it is in every state that the run reaches, and so every evaluation
inside the run leaves the ledger that it found. -/
theorem run_paidFrom (setting : Setting) (script : String) (ledger : Ledger)
    (bindings : Table String Value) (listener : Bool) :
    let start := State.initial ledger bindings listener
    ledger.PaidFrom setting.me
        (stateOf (run setting script ledger bindings listener)).ledger ∧
      (∀ s held, Reaches setting start s held → ledger.PaidFrom setting.me s.ledger) ∧
      ∀ q, Passes setting start q →
        q.state.ledger.PaidFrom setting.me (stateOf (q.outcome setting)).ledger := by
  intro start
  have hp := spending_permits setting ledger
  have hi : (spending setting ledger).Inv start := .refl _ _
  refine ⟨?_, fun s held h => ?_, fun q h => ?_⟩
  · obtain ⟨held, hb⟩ := between_run setting script ledger bindings listener
    exact (Discipline.between hp hi trivial hb).1
  · exact (Discipline.reaches hp hi trivial h).1
  · have hq := Discipline.passes hp hi trivial h
    exact (Discipline.keepsAt hp hq.inv hq.home).state.2

/-- Its script. -/
def tolls : String := "($transfer 2 shop) ($transfer 1 $me) ($transfer 1 till)"

/-- The ledger that it pays from; the till is locked. -/
def tollLedger : Ledger :=
  { entries := [(⟨"bank"⟩, 5), (⟨"shop"⟩, 1), (⟨"till"⟩, 0)], locked := [⟨"till"⟩] }

/-- The state that it starts in. -/
def tollStart : State := .initial tollLedger (accountBindings tollLedger) false

/-- The first payment, about to be evaluated. -/
def firstToll : Point :=
  bank.point (.list [.operator "$transfer", .number 2, .ident "shop"]) tollStart []

/-- The shop is paid and the till is not; the bank has lost, and at the end it has lost what it
had lost after the first payment. -/
theorem run_paidFrom_tolls :
    let last := stateOf (run bank tolls tollLedger (accountBindings tollLedger) false)
    last.ledger.toPairs = [("bank", 3), ("shop", 3), ("till", 0)] ∧
      tollLedger.PaidFrom ⟨"bank"⟩ last.ledger ∧
      (∃ held, Reaches bank tollStart last held ∧
        tollLedger.PaidFrom ⟨"bank"⟩ last.ledger) ∧
      Passes bank tollStart firstToll ∧
      (stateOf (firstToll.outcome bank)).ledger.toPairs =
        [("bank", 3), ("shop", 3), ("till", 0)] ∧
      tollLedger.PaidFrom ⟨"bank"⟩ (stateOf (firstToll.outcome bank)).ledger := by
  intro last
  obtain ⟨hend, hreaches, hpasses⟩ :=
    run_paidFrom bank tolls tollLedger (accountBindings tollLedger) false
  obtain ⟨held, hb⟩ :=
    between_run bank tolls tollLedger (accountBindings tollLedger) false
  have hfirst : Passes bank tollStart firstToll := Between.start.passes _
  exact ⟨by decide +kernel, hend, ⟨held, hb.reaches, hreaches _ _ hb.reaches⟩, hfirst,
    by decide +kernel, hpasses _ hfirst⟩

end Run

end LedgerScript
