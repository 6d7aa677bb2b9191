/-
# Transfers are exact and atomic

What a transfer does is decided by its two values and by the ledger that the operands leave, which
may itself have changed while they were evaluated.  `TransferCourse` lists the ends in the order in
which they are decided: the amount is no amount, the destination is no account, the contract holds
too little, the contract is locked, the destination is, or the amount is paid.  Only the last moves
funds, and only the last but one writes to the ledger at all without moving any: it debits the
contract and gives the debit back, which lists a contract that was not listed.

`transfer_exact` reads off what this means for the balances and for the list of accounts.  That a
credit is never refused for being negative needs the solvency of the ledger, and that is where the
run comes in.
-/
import LedgerScript.Proofs.Calls
import LedgerScript.Proofs.Conservation
import LedgerScript.Proofs.Progress
import LedgerScript.Proofs.Spending

namespace LedgerScript

/-! ## 1. Balances -/

namespace Ledger

variable {me destination : Account} {amount : Int} {before debited after : Ledger}

/-- From one ledger to the next `me` has paid an amount to the destination; to pay oneself is to
change nothing. -/
structure Paid (me : Account) (amount : Int) (destination : Account) (before after : Ledger) :
    Prop where
  debit : destination ≠ me → after.balance me = before.balance me - amount
  credit : destination ≠ me → after.balance destination = before.balance destination + amount
  own : destination = me → after.balance me = before.balance me
  others (account : Account) : account ≠ me → account ≠ destination →
    after.balance account = before.balance account

/-- A debit and a credit are a payment. -/
theorem paid_of_credit
    (hd : before.setBalance me (before.balance me - amount) = .ok debited)
    (hc : debited.setBalance destination (debited.balance destination + amount) = .ok after) :
    before.Paid me amount destination after := by
  have hdebit := balance_of_setBalance hd
  have hcredit := balance_of_setBalance hc
  constructor
  · intro hne
    rw [hcredit, if_neg hne, hdebit, if_pos rfl]
  · intro hne
    rw [hcredit, if_pos rfl, hdebit, if_neg (Ne.symm hne)]
  · rintro rfl
    rw [hcredit, if_pos rfl, hdebit, if_pos rfl]
    omega
  · intro account hme hdestination
    rw [hcredit, if_neg (Ne.symm hdestination), hdebit, if_neg (Ne.symm hme)]

/-- A debit that is given back changes no balance. -/
theorem balance_of_restore (hd : before.setBalance me amount = .ok debited)
    (hr : debited.setBalance me (before.balance me) = .ok after) (account : Account) :
    after.balance account = before.balance account := by
  rw [balance_of_setBalance hr]
  split
  · next heq => rw [heq]
  · next hne => rw [balance_of_setBalance hd, if_neg hne]

/-- It lists the account if it was not listed. -/
theorem accounts_of_restore (hd : before.setBalance me amount = .ok debited)
    (hr : debited.setBalance me (before.balance me) = .ok after) :
    after.accounts =
      if me ∈ before.accounts then before.accounts else before.accounts ++ [me] := by
  have hlisted : me ∈ debited.accounts := by
    rw [accounts_setBalance hd]
    split
    · next hmem => exact hmem
    · exact List.mem_append_right _ (List.mem_singleton.mpr rfl)
  rw [accounts_setBalance hr, if_pos hlisted, accounts_setBalance hd]

/-- An account that is not listed holds nothing. -/
theorem balance_of_not_mem {account : Account} (h : account ∉ before.accounts) :
    before.balance account = 0 := by
  rw [balance, Table.get?_of_not_mem h]
  rfl

end Ledger

namespace Run

open Eval

variable {setting : Setting} {s : State}

/-! ## 2. The course of a transfer -/

/-- The values of a transfer can be paid from a ledger: an amount that is not negative and that
the contract holds, and an account; neither of the two is locked. -/
structure Payable (me : Account) (ledger : Ledger) (amountValue destinationValue : Value)
    (n : Int) (a : Account) : Prop where
  amount : amountValue = .integer n
  nonneg : 0 ≤ n
  destination : destinationValue = .account a
  covered : n ≤ ledger.balance me
  payer : me ∉ ledger.locked
  payee : a ∉ ledger.locked

/-- What a transfer comes to with the values of its operands, case by case in the order in which
it is decided. -/
inductive TransferCourse (setting : Setting) (s : State) (v w : Value) :
    EStateM.Result Fault State Value → Prop
  | amount (fault : Fault) (hv : ∀ n, v = .integer n → n < 0) :
    TransferCourse setting s v w (.error fault s)
  | destination (fault : Fault) (hw : ∀ a, w ≠ .account a) :
    TransferCourse setting s v w (.error fault s)
  /-- The contract holds less than the amount. -/
  | short (fault : Fault) {n : Int} (hv : v = .integer n)
    (hn : s.ledger.balance setting.me < n) : TransferCourse setting s v w (.error fault s)
  /-- The contract is locked, and the ledger refuses the debit. -/
  | payer (hme : setting.me ∈ s.ledger.locked) :
    TransferCourse setting s v w (.error (.host (.locked setting.me.address)) s)
  /-- The destination is locked, and the ledger refuses the credit; the debit is given back. -/
  | payee {n : Int} {a : Account} {debited restored : Ledger} (hv : v = .integer n) (h0 : 0 ≤ n)
    (hw : w = .account a) (hn : n ≤ s.ledger.balance setting.me) (ha : a ∈ s.ledger.locked)
    (hd : s.ledger.setBalance setting.me (s.ledger.balance setting.me - n) = .ok debited)
    (hr : debited.setBalance setting.me (s.ledger.balance setting.me) = .ok restored) :
    TransferCourse setting s v w
      (.error (.host (.locked a.address)) { s with ledger := restored })
  /-- The amount is paid, and the log is told. -/
  | paid {n : Int} {a : Account} {debited credited : Ledger}
    (hp : Payable setting.me s.ledger v w n a)
    (hd : s.ledger.setBalance setting.me (s.ledger.balance setting.me - n) = .ok debited)
    (hc : debited.setBalance a (debited.balance a + n) = .ok credited)
    (ht : setting.listening = true → Text.isWritable n) :
    TransferCourse setting s v w
      (.ok .nil { s with ledger := credited, log := s.log ++ [.transferred n setting.me a] })
  /-- The amount is paid, and a listener to the log cannot be told. -/
  | untold {n : Int} {a : Account} {debited credited : Ledger}
    (hp : Payable setting.me s.ledger v w n a)
    (hd : s.ledger.setBalance setting.me (s.ledger.balance setting.me - n) = .ok debited)
    (hc : debited.setBalance a (debited.balance a + n) = .ok credited)
    (hl : setting.listening = true) (ht : ¬ Text.isWritable n) :
    TransferCourse setting s v w (.error (.host .integerTooLong) { s with ledger := credited })

/-- A failure that tells a value leaves the state alone. -/
theorem run_failTelling {α : Type} (error : String → ScriptError) (v : Value) (s : State) :
    ∃ fault, (failTelling error v.shown : Eval α).run s = .error fault s := ⟨_, rfl⟩

/-- The values of a transfer are asked for an amount first. -/
theorem run_amountOf (v : Value) (s : State) :
    (∃ n, v = .integer n ∧ 0 ≤ n ∧ (amountOf v).run s = .ok n s) ∨
      (∀ n, v = .integer n → n < 0) ∧ ∃ fault, (amountOf v).run s = .error fault s := by
  have hother {v : Value} (hv : ∀ n, v ≠ .integer n)
      (ha : amountOf v = failTelling .transferAmount v.shown) :
      (∀ n, v = .integer n → n < 0) ∧ ∃ fault, (amountOf v).run s = .error fault s :=
    ⟨fun n h => absurd h (hv n), ha ▸ run_failTelling _ _ s⟩
  cases v with
  | integer n =>
    by_cases hn : 0 ≤ n
    · refine .inl ⟨n, rfl, hn, ?_⟩
      rw [amountOf, if_pos hn]
      rfl
    · refine .inr ⟨fun m h => ?_, ?_⟩
      · cases h
        exact Int.not_le.mp hn
      · rw [amountOf, if_neg hn]
        exact run_failTelling _ _ s
  | nil => exact .inr (hother nofun rfl)
  | account => exact .inr (hother nofun rfl)
  | closure => exact .inr (hother nofun rfl)
  | truth => exact .inr (hother nofun rfl)
  | text => exact .inr (hother nofun rfl)

/-- And then for a destination. -/
theorem run_destinationOf (w : Value) (s : State) :
    (∃ a, w = .account a ∧ (destinationOf w).run s = .ok a s) ∨
      (∀ a, w ≠ .account a) ∧ ∃ fault, (destinationOf w).run s = .error fault s := by
  cases w with
  | account a => exact .inl ⟨a, rfl, rfl⟩
  | _ => exact .inr ⟨nofun, run_failTelling _ _ s⟩

/-- What moving funds comes to, in a solvent ledger. -/
theorem transferCourse_moveFunds (hs : s.ledger.Solvent) {v w : Value} {n : Int} {a : Account}
    (hv : v = .integer n) (h0 : 0 ≤ n) (hw : w = .account a) :
    TransferCourse setting s v w
      ((moveFunds setting n a >>= fun _ => pure .nil : Eval Value).run s) := by
  by_cases hn : s.ledger.balance setting.me < n
  · obtain ⟨fault, hrun⟩ := run_moveFunds_short a hn
    rw [run_bind_error hrun]
    exact .short fault hv hn
  have hcovered : n ≤ s.ledger.balance setting.me := Int.not_lt.mp hn
  by_cases hme : setting.me ∈ s.ledger.locked
  · have hd : s.ledger.setBalance setting.me (s.ledger.balance setting.me - n) =
        .error (.locked setting.me.address) := if_pos hme
    rw [run_bind_error (run_moveFunds_refused hn hd)]
    exact .payer hme
  obtain ⟨debited, hd⟩ :=
    Ledger.exists_setBalance hme (by omega : 0 ≤ s.ledger.balance setting.me - n)
  have hlocked : debited.locked = s.ledger.locked := Ledger.locked_of_setBalance hd
  by_cases ha : a ∈ s.ledger.locked
  · have hc : debited.setBalance a (debited.balance a + n) = .error (.locked a.address) :=
      if_pos (hlocked ▸ ha)
    obtain ⟨restored, hr⟩ := setBalance_restore hn h0 hd
    rw [run_bind_error (run_moveFunds_restored hn hd hc hr)]
    exact .payee hv h0 hw hcovered ha hd hr
  obtain ⟨credited, hc⟩ := hs.exists_credit hd ha h0
  have hp : Payable setting.me s.ledger v w n a := ⟨hv, h0, hw, hcovered, hme, ha⟩
  rw [EStateM.run_bind, run_moveFunds_credited hn hd hc, run_logTransfer]
  by_cases htold : setting.listening = true ∧ ¬ Text.isWritable n
  · rw [if_pos htold]
    exact .untold hp hd hc htold.1 htold.2
  · rw [if_neg htold]
    exact .paid hp hd hc fun hl => Classical.not_not.mp fun ht => htold ⟨hl, ht⟩

/-- **The course of a transfer**, once its operands have their values. -/
theorem transferCourse_settle (hs : s.ledger.Solvent) (v w : Value) :
    TransferCourse setting s v w ((settle setting v w).run s) := by
  unfold settle
  rcases run_amountOf v s with ⟨n, hv, h0, hrun⟩ | ⟨hv, fault, hrun⟩
  · rw [run_bind_ok hrun]
    rcases run_destinationOf w s with ⟨a, hw, hrun⟩ | ⟨hw, fault, hrun⟩
    · rw [run_bind_ok hrun]
      exact transferCourse_moveFunds hs hv h0 hw
    · rw [run_bind_error hrun]
      exact .destination fault hw
  · rw [run_bind_error hrun]
    exact .amount fault hv

/-! ## 3. What it means for the ledger -/

/-- A transfer fails with nothing paid: no balance is changed, nor is the list of accounts, unless
the credit of a locked account was refused to a contract that is not listed and pays zero, which
lists the contract. -/
structure Unpaid (me : Account) (before : Ledger) (v w : Value)
    (r : EStateM.Result Fault State Value) : Prop where
  fails : ¬ (answerOf r).isOk
  balances (account : Account) : (stateOf r).ledger.balance account = before.balance account
  accounts : (stateOf r).ledger.accounts = before.accounts ∨
    (stateOf r).ledger.accounts = before.accounts ++ [me] ∧ me ∉ before.accounts ∧
      (stateOf r).ledger.balance me = 0 ∧ v = .integer 0 ∧
      ∃ a ∈ before.locked, w = .account a ∧ answerOf r = .error (.host (.locked a.address))

section

variable {v w : Value} {r : EStateM.Result Fault State Value} {n m : Int} {a b : Account}

/-- A failure that leaves the state alone leaves the ledger alone. -/
theorem unpaid_of_fault (me : Account) (v w : Value) (fault : Fault) :
    Unpaid me s.ledger v w (.error fault s) := ⟨nofun, fun _ => rfl, .inl rfl⟩

theorem Payable.unique {ledger : Ledger} {me : Account} (h : Payable me ledger v w n a)
    (h' : Payable me ledger v w m b) : n = m ∧ a = b := by
  have hn := h.amount.symm.trans h'.amount
  have ha := h.destination.symm.trans h'.destination
  cases hn
  cases ha
  exact ⟨rfl, rfl⟩

/-- A transfer is payable, and then it is paid and succeeds if the log can be told; or it is not,
and then it fails with nothing paid. -/
theorem TransferCourse.paid_or_unpaid (h : TransferCourse setting s v w r) :
    (∃ n a, Payable setting.me s.ledger v w n a ∧
      s.ledger.Paid setting.me n a (stateOf r).ledger ∧
      ((answerOf r).isOk ↔ (setting.listening = true → Text.isWritable n))) ∨
    (¬ ∃ n a, Payable setting.me s.ledger v w n a) ∧ Unpaid setting.me s.ledger v w r := by
  cases h with
  | amount fault hv =>
    refine .inr ⟨?_, unpaid_of_fault _ _ _ _⟩
    rintro ⟨n, a, hp⟩
    exact Int.not_lt.mpr hp.nonneg (hv n hp.amount)
  | destination fault hw =>
    refine .inr ⟨?_, unpaid_of_fault _ _ _ _⟩
    rintro ⟨n, a, hp⟩
    exact hw a hp.destination
  | short fault hv hn =>
    refine .inr ⟨?_, unpaid_of_fault _ _ _ _⟩
    rintro ⟨m, a, hp⟩
    cases hv.symm.trans hp.amount
    exact Int.not_lt.mpr hp.covered hn
  | payer hme =>
    refine .inr ⟨?_, unpaid_of_fault _ _ _ _⟩
    rintro ⟨n, a, hp⟩
    exact hp.payer hme
  | @payee n a debited restored hv h0 hw hn ha hd hr =>
    refine .inr ⟨?_, nofun, Ledger.balance_of_restore hd hr, ?_⟩
    · rintro ⟨m, b, hp⟩
      cases hw.symm.trans hp.destination
      exact hp.payee ha
    · have haccounts := Ledger.accounts_of_restore hd hr
      by_cases hme : setting.me ∈ s.ledger.accounts
      · exact .inl (haccounts.trans (if_pos hme))
      · -- who is not listed holds nothing, so it can only have paid nothing
        have hzero := Ledger.balance_of_not_mem hme
        have hn0 : n = 0 := by omega
        refine .inr ⟨haccounts.trans (if_neg hme), hme, ?_, hn0 ▸ hv, a, ha, hw, rfl⟩
        exact (Ledger.balance_of_restore hd hr _).trans hzero
  | paid hp hd hc ht =>
    exact .inl ⟨_, _, hp, Ledger.paid_of_credit hd hc, fun _ => ht, fun _ => rfl⟩
  | untold hp hd hc hl ht =>
    exact .inl ⟨_, _, hp, Ledger.paid_of_credit hd hc, nofun, fun h => absurd (h hl) ht⟩

end

/-! ## 4. Runs -/

/-- If a form inside is evaluated, the step of the form around it was counted. -/
theorem State.HasStep.of_evaluate {depth : Nat} {form : Node} {scope : ScopeId} {v : Value}
    {t : State} (h : (evaluate setting depth form scope).run s.counted = .ok v t) :
    s.HasStep setting := by
  intro most hmost
  cases depth with
  | zero => cases h
  | succ depth =>
    obtain ⟨_, u, hcount, -⟩ := of_run_bind_ok h
    rw [Run.run_countStep, hmost] at hcount
    dsimp only at hcount
    split at hcount
    · cases hcount
    · next hle =>
      have hsteps : s.counted.steps = s.steps + 1 := rfl
      omega

/-- A transfer whose operands have their values settles them. -/
theorem run_evaluate_transfer {head amountForm destinationForm : Node}
    (hr : ruleOf head [amountForm, destinationForm] = .ok .transfer) {depth : Nat} {scope : ScopeId}
    {v w : Value} {t u : State}
    (hv : (evaluate setting depth amountForm scope).run s.counted = .ok v t)
    (hw : (evaluate setting depth destinationForm scope).run t = .ok w u) :
    (evaluate setting (depth + 1) (.list [head, amountForm, destinationForm]) scope).run s =
      (settle setting v w).run u := by
  have hstep : s.HasStep setting := .of_evaluate hv
  rw [evaluate, run_bind_ok hstep.run_countStep, evalForm, evalList_of_rule hr, evalRule,
    evalTransfer, run_bind_ok hv, run_bind_ok hw]
  rfl

/-- **Transfers are exact and atomic.**  In a run on a ledger that was built from pairs, with some
accounts locked or none, take a transfer in any state that is reached, and let its operands have
their values in turn.  The ledger that they leave decides.  The transfer is payable from it, and
then it is paid, to the unit; or it is not, and then it fails with nothing paid.  It succeeds if
and only if it is payable; where somebody listens to the log, a payment that is too long to be told
is made all the same, and fails then. -/
theorem transfer_exact (setting : Setting) {balances : Table String Int} {ledger : Ledger}
    (hl : Ledger.ofPairs balances = .ok ledger) (locked : List Account)
    (bindings : Table String Value) (listener : Bool) {s : State} {held : List Value}
    (hs : Reaches setting (.initial (ledger.lock locked) bindings listener) s held)
    {head amountForm destinationForm : Node}
    (hr : ruleOf head [amountForm, destinationForm] = .ok .transfer) {depth : Nat} {scope : ScopeId}
    {v w : Value} {t u : State}
    (hv : (evaluate setting depth amountForm scope).run s.counted = .ok v t)
    (hw : (evaluate setting depth destinationForm scope).run t = .ok w u) :
    let r := (evaluate setting (depth + 1) (.list [head, amountForm, destinationForm]) scope).run s
    u.ledger.locked = locked ∧
    ((answerOf r).isOk ↔ ∃ n a, Payable setting.me u.ledger v w n a ∧
      (setting.listening = true → Text.isWritable n)) ∧
    (∀ n a, Payable setting.me u.ledger v w n a →
      u.ledger.Paid setting.me n a (stateOf r).ledger) ∧
    ((¬ ∃ n a, Payable setting.me u.ledger v w n a) → Unpaid setting.me u.ledger v w r) := by
  intro r
  have hrow : InOrder (evaluate setting depth · scope) [amountForm, destinationForm] s.counted
    [v, w] u := .cons hv (.cons hw .nil)
  have hsolvent : u.ledger.Solvent := by
    have hi : (conserving setting).Inv (.initial (ledger.lock locked) bindings listener) :=
      (Ledger.solvent_of_ofPairs hl).lock locked
    obtain ⟨hi, -⟩ := Discipline.reaches conserving_permits hi trivial hs
    have hi : (conserving setting).Inv s.counted := hi
    exact (Discipline.inOrder conserving_permits hrow hi trivial).1
  have hlocked : u.ledger.locked = locked := by
    have hp := spending_permits setting (ledger.lock locked)
    have hi : (spending setting (ledger.lock locked)).Inv
      (.initial (ledger.lock locked) bindings listener) := .refl _ _
    obtain ⟨hi, -⟩ := Discipline.reaches hp hi trivial hs
    have hi : (spending setting (ledger.lock locked)).Inv s.counted := hi
    exact (Discipline.inOrder hp hrow hi trivial).1.locked
  have hcourse : TransferCourse setting u v w r := by
    have h : r = (settle setting v w).run u := run_evaluate_transfer hr hv hw
    rw [h]
    exact transferCourse_settle hsolvent v w
  rcases hcourse.paid_or_unpaid with ⟨n, a, hp, hpaid, hok⟩ | ⟨hp, hunpaid⟩
  · refine ⟨hlocked, ?_, ?_, fun h => absurd ⟨n, a, hp⟩ h⟩
    · constructor
      · exact fun h => ⟨n, a, hp, hok.mp h⟩
      · rintro ⟨m, b, hp', ht⟩
        obtain ⟨rfl, rfl⟩ := hp.unique hp'
        exact hok.mpr ht
    · intro m b hp'
      obtain ⟨rfl, rfl⟩ := hp.unique hp'
      exact hpaid
  · refine ⟨hlocked, ?_, fun n a h => absurd ⟨n, a, h⟩ hp, fun _ => hunpaid⟩
    constructor
    · exact fun h => absurd h hunpaid.fails
    · rintro ⟨n, a, h, -⟩
      exact absurd ⟨n, a, h⟩ hp

/-- A contract without an account of its own. -/
def pauper : Setting := { bank with me := ⟨"pauper"⟩ }

/-- The state that a run of one of them starts in, with the till locked. -/
def tillLocked : State :=
  .initial (bankLedger.lock [⟨"till"⟩]) (accountBindings bankLedger) false

/-- A transfer that is evaluated there. -/
def transferThere (setting : Setting) (amount : Int) (destination : String) :
    EStateM.Result Fault State Value :=
  (evaluate setting 2 (.list [.operator "$transfer", .number amount, .ident destination])
    Arena.rootId).run tillLocked

/-- The bank pays the shop two; the pauper, who has no account, is refused to pay the till nothing,
and is listed. -/
theorem transfer_exact_till :
    Ledger.ofPairs [("bank", 5), ("shop", 1), ("till", 0)] = .ok bankLedger ∧
    tillLocked.ledger.Paid ⟨"bank"⟩ 2 ⟨"shop"⟩ (stateOf (transferThere bank 2 "shop")).ledger ∧
    (answerOf (transferThere bank 2 "shop")).isOk ∧
    Unpaid ⟨"pauper"⟩ tillLocked.ledger (.integer 0) (.account ⟨"till"⟩)
      (transferThere pauper 0 "till") ∧
    (stateOf (transferThere pauper 0 "till")).ledger.toPairs =
      [("bank", 5), ("shop", 1), ("till", 0), ("pauper", 0)] := by
  have h : Ledger.ofPairs [("bank", 5), ("shop", 1), ("till", 0)] = .ok bankLedger := rfl
  have hs (setting : Setting) : Reaches setting tillLocked tillLocked [] := Between.start.reaches
  have hr (operands : List Node) : ruleOf (.operator "$transfer") operands = .ok .transfer := rfl
  have hshop : (evaluate bank 1 (.ident "shop") Arena.rootId).run tillLocked.counted.counted =
      .ok (.account ⟨"shop"⟩) tillLocked.counted.counted.counted := rfl
  have htill : (evaluate pauper 1 (.ident "till") Arena.rootId).run tillLocked.counted.counted =
      .ok (.account ⟨"till"⟩) tillLocked.counted.counted.counted := rfl
  have hpaid := transfer_exact bank h [⟨"till"⟩] _ false (hs _)
    (hr [.number 2, .ident "shop"]) rfl hshop
  have hunpaid := transfer_exact pauper h [⟨"till"⟩] _ false (hs _)
    (hr [.number 0, .ident "till"]) rfl htill
  have hpayable : Payable ⟨"bank"⟩ tillLocked.ledger (.integer 2) (.account ⟨"shop"⟩) 2 ⟨"shop"⟩ :=
    ⟨rfl, by decide, rfl, by decide +kernel, by decide, by decide⟩
  refine ⟨h, ?_, ?_, ?_, by decide +kernel⟩
  · exact hpaid.2.2.1 2 ⟨"shop"⟩ hpayable
  · exact hpaid.2.1.mpr ⟨2, ⟨"shop"⟩, hpayable, nofun⟩
  · refine hunpaid.2.2.2 ?_
    rintro ⟨n, a, hp⟩
    cases hp.destination
    exact hp.payee (by decide)

end Run

end LedgerScript
