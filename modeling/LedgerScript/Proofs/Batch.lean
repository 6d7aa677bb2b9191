/-
# Transfers that can all be paid

A script of transfers, each of a number to an account that is known from the start, is paid in full
in whatever order the transfers stand, if the contract can pay their sum.  After each one it holds
what it held, less the amount and with what it paid itself, which is enough for the rest; so no
order comes to a transfer that cannot be paid (`run_execute_remittances`).

What a transfer adds to an account and takes from it is a summand that does not depend on what was
paid before (`Ledger.Paid.balance_eq`).  At the end an account holds what it held and the sum of
these, and a sum does not depend on the order (`sentTo_perm`).
-/
import LedgerScript.Proofs.Amounts
import LedgerScript.Proofs.Arithmetic
import LedgerScript.Proofs.Payment
import LedgerScript.Proofs.Sequence

namespace LedgerScript

/-! ## 1. Payments from plain ledgers -/

namespace Ledger

variable {before after : Ledger} {me destination : Account} {amount : Int}

/-- A plain ledger accepts both writes of a payment that is covered, and is plain afterwards. -/
theorem Plain.exists_credit (h : before.Plain) (h0 : 0 ≤ amount) (hn : amount ≤ before.balance me)
    (destination : Account) :
    ∃ debited credited, before.setBalance me (before.balance me - amount) = .ok debited ∧
      debited.setBalance destination (debited.balance destination + amount) = .ok credited ∧
      credited.Plain := by
  have hfree (account : Account) : account ∉ before.locked := by simp [h.unlocked]
  obtain ⟨debited, hd⟩ := exists_setBalance (hfree me) (Int.sub_nonneg_of_le hn)
  obtain ⟨credited, hc⟩ := h.solvent.exists_credit hd (hfree destination) h0
  exact ⟨debited, credited, hd, hc, (h.setBalance hd).setBalance hc⟩

/-- What a payment adds to an account and what it takes from it; to pay oneself is both. -/
theorem Paid.balance_eq (h : before.Paid me amount destination after) (account : Account) :
    after.balance account = before.balance account +
      (if destination = account then amount else 0) - if account = me then amount else 0 := by
  by_cases hme : account = me
  · subst hme
    by_cases hd : destination = account
    · simp [hd, h.own hd]
    · simp [hd, h.debit hd]
  · by_cases hd : destination = account
    · subst hd
      simp [hme, h.credit hme]
    · simp [hme, hd, h.others account hme (Ne.symm hd)]

end Ledger

namespace Run

open Eval

variable {setting : Setting} {s : State} {bindings : Table String Value} {depth : Nat}
  {account a : Account}

/-! ## 2. Transfers of numbers -/

/-- Who is paid by a transfer: the contract, or the account that a name is bound to. -/
inductive Payee where
  | own
  | named (name : String)
  deriving DecidableEq

/-- The payee as it is written. -/
def Payee.form : Payee → Node
  | .own => .operator meSymbol
  | .named name => .ident name

/-- The account of a payee, in a run with these bindings. -/
def Payee.account? (me : Account) (bindings : Table String Value) : Payee → Option Account
  | .own => some me
  | .named name =>
    match (Table.ofPairs bindings).get? name with
    | some (.account a) => some a
    | _ => none

/-- A transfer of a number. -/
structure Remittance where
  amount : Nat
  payee : Payee
  deriving DecidableEq

namespace Remittance

/-- The transfer as it is written. -/
def form (r : Remittance) : Node :=
  .list [.operator "$transfer", .number r.amount, r.payee.form]

/-- What a transfer adds to an account. -/
def credit (me : Account) (bindings : Table String Value) (account : Account) (r : Remittance) :
    Int := if r.payee.account? me bindings = some account then r.amount else 0

end Remittance

/-- What some transfers come to in all. -/
def totalOf (batch : List Remittance) : Int := (batch.map fun r => (r.amount : Int)).sum

/-- What some transfers add to an account. -/
def sentTo (me : Account) (bindings : Table String Value) (account : Account)
    (batch : List Remittance) : Int := (batch.map (Remittance.credit me bindings account)).sum

section Sums

variable {me : Account} {batch order : List Remittance} (r : Remittance) (rest : List Remittance)

@[simp] theorem totalOf_nil : totalOf [] = 0 := rfl

@[simp] theorem totalOf_cons : totalOf (r :: rest) = r.amount + totalOf rest := List.sum_cons

@[simp] theorem sentTo_nil : sentTo me bindings account [] = 0 := rfl

@[simp] theorem sentTo_cons : sentTo me bindings account (r :: rest) =
    r.credit me bindings account + sentTo me bindings account rest := List.sum_cons

theorem totalOf_nonneg : ∀ batch : List Remittance, 0 ≤ totalOf batch
  | [] => Int.le_refl 0
  | r :: rest => by
    rw [totalOf_cons]
    exact Int.add_nonneg (Int.natCast_nonneg _) (totalOf_nonneg rest)

theorem totalOf_perm (h : order.Perm batch) : totalOf order = totalOf batch := (h.map _).sum_eq

theorem sentTo_perm (h : order.Perm batch) :
    sentTo me bindings account order = sentTo me bindings account batch := (h.map _).sum_eq

end Sums

/-! ## 3. One transfer -/

/-- The root of an arena binds what the host bound. -/
def RootBinds (bindings : Table String Value) (arena : Arena) : Prop :=
  ∀ name, arena.lookup (some Arena.rootId) name = .ok ((Table.ofPairs bindings).get? name)

/-- A payee evaluates to its account. -/
theorem run_evaluate_payee (hstep : s.HasStep setting) (hb : RootBinds bindings s.arena)
    {payee : Payee} (ha : payee.account? setting.me bindings = some a) :
    (evaluate setting (depth + 1) payee.form Arena.rootId).run s =
      .ok (.account a) s.counted := by
  cases payee with
  | own =>
    cases ha
    exact hstep.run_evaluate_me
  | named name =>
    have hv : (Table.ofPairs bindings).get? name = some (.account a) := by
      simp only [Payee.account?] at ha
      split at ha
      · next hget =>
        cases ha
        exact hget
      · cases ha
    exact hstep.run_evaluate_ident ((hb name).trans (congrArg _ hv))

/-- A payment that the ledger accepts, and that the log can be told, is made. -/
theorem run_settle_credited {n : Int} {debited credited : Ledger} (h0 : 0 ≤ n)
    (hn : n ≤ s.ledger.balance setting.me) (hw : Text.isWritable n = true)
    (hd : s.ledger.setBalance setting.me (s.ledger.balance setting.me - n) = .ok debited)
    (hc : debited.setBalance a (debited.balance a + n) = .ok credited) :
    (settle setting (.integer n) (.account a)).run s =
      .ok .nil { s with ledger := credited, log := s.log ++ [.transferred n setting.me a] } := by
  have hamount : (amountOf (.integer n)).run s = .ok n s := by
    rw [amountOf, if_pos h0]
    rfl
  have hmoved : (moveFunds setting n a).run s =
      .ok () { s with ledger := credited, log := s.log ++ [.transferred n setting.me a] } := by
    rw [run_moveFunds_credited (Int.not_lt.mpr hn) hd hc, run_logTransfer, if_neg fun h => h.2 hw]
  unfold settle
  rw [run_bind_ok hamount, run_bind_ok (show (destinationOf (.account a)).run s = .ok a s from rfl),
    run_bind_ok hmoved]
  rfl

/-- **A transfer that is covered is paid**, in three steps. -/
theorem run_executeForm_remittance {r : Remittance} (hs : s.ledger.Plain)
    (hb : RootBinds bindings s.arena) (htold : s.arena.Told)
    (ha : r.payee.account? setting.me bindings = some a)
    (hn : r.amount ≤ s.ledger.balance setting.me) (hw : Text.isWritable r.amount = true)
    (hallowed : setting.Allows (s.steps + 3)) (hdepth : 2 ≤ setting.config.maxDepth) :
    ∃ ledger log, (executeForm setting r.form).run s =
        .ok .nil { s with ledger, steps := s.steps + 3, log } ∧
      ledger.Plain ∧ s.ledger.Paid setting.me r.amount a ledger := by
  have h0 : (0 : Int) ≤ r.amount := Int.natCast_nonneg _
  obtain ⟨debited, credited, hd, hc, hcredited⟩ := hs.exists_credit h0 hn a
  obtain ⟨depth, hdepth⟩ : ∃ depth, setting.config.maxDepth = depth + 1 + 1 :=
    ⟨setting.config.maxDepth - 2, by omega⟩
  have hevaluate : ∀ log, ∃ later,
      (evaluate setting setting.config.maxDepth r.form Arena.rootId).run { s with log } =
        .ok .nil { s with ledger := credited, steps := s.steps + 3, log := later } := by
    intro log
    let s₁ := State.counted { s with log }
    have hstep : s₁.HasStep setting := hallowed.mono (Nat.le_succ _)
    have hstep' : s₁.counted.HasStep setting := hallowed
    have hamount : (evaluate setting (depth + 1) (.number r.amount) Arena.rootId).run s₁ =
        .ok (.integer r.amount) s₁.counted := hstep.run_evaluate_number _
    have hpayee : (evaluate setting (depth + 1) r.payee.form Arena.rootId).run s₁.counted =
        .ok (.account a) s₁.counted.counted := run_evaluate_payee hstep' hb ha
    refine ⟨log ++ [.transferred r.amount setting.me a], ?_⟩
    rw [hdepth, Remittance.form, run_evaluate_transfer rfl hamount hpayee]
    exact run_settle_credited h0 hn hw hd hc
  have hform : r.form.isWritable = true := by
    cases hpayee : r.payee <;>
      simp [Remittance.form, Payee.form, hpayee, Node.isWritable, Node.allWritable, hw]
  obtain ⟨log, hrun⟩ := run_executeForm_of_evaluate (s := s) (v := .nil)
    (t := { s with ledger := credited, steps := s.steps + 3 }) hform htold rfl hevaluate
  exact ⟨credited, log, hrun, hcredited, Ledger.paid_of_credit hd hc⟩

/-! ## 4. All of them -/

/-- Transfers that are covered in all are paid one after another. -/
theorem run_execute_remittances (bindings : Table String Value)
    (hdepth : 2 ≤ setting.config.maxDepth) :
    ∀ {order : List Remittance} {s : State}, s.ledger.Plain → RootBinds bindings s.arena →
      s.arena.Told → (∀ r ∈ order, (r.payee.account? setting.me bindings).isSome) →
      (∀ r ∈ order, Text.isWritable r.amount = true) →
      totalOf order ≤ s.ledger.balance setting.me →
      setting.Allows (s.steps + 3 * order.length) →
      ∃ t, (execute setting (order.map Remittance.form)).run s =
          .ok (List.replicate order.length .nil) t ∧
        t.steps = s.steps + 3 * order.length ∧
        ∀ account, t.ledger.balance account = s.ledger.balance account +
          sentTo setting.me bindings account order -
          if account = setting.me then totalOf order else 0
  | [], s, _, _, _, _, _, _, _ => ⟨s, rfl, rfl, by simp⟩
  | r :: rest, s, hs, hb, htold, hpayees, hwritable, hcovered, hallowed => by
    obtain ⟨hpayee, hpayees⟩ := List.forall_mem_cons.mp hpayees
    obtain ⟨hw, hwritable⟩ := List.forall_mem_cons.mp hwritable
    obtain ⟨a, ha⟩ := Option.isSome_iff_exists.mp hpayee
    have hrest := totalOf_nonneg rest
    rw [totalOf_cons] at hcovered
    rw [List.length_cons] at hallowed
    obtain ⟨ledger, log, hrun, hplain, hpaid⟩ := run_executeForm_remittance hs hb htold ha
      (by omega) hw (hallowed.mono (by omega)) hdepth
    -- what is left covers the rest, also if the contract has paid itself
    have hleft : totalOf rest ≤ ledger.balance setting.me := by
      rw [hpaid.balance_eq, if_pos rfl]
      split <;> omega
    obtain ⟨t, hruns, hsteps, hbalances⟩ := run_execute_remittances bindings hdepth
      (s := { s with ledger, steps := s.steps + 3, log }) hplain hb htold hpayees hwritable hleft
      (hallowed.mono (by dsimp only; omega))
    refine ⟨t, ?_, ?_, fun account => ?_⟩
    · rw [List.map_cons, execute_cons, run_bind_ok hrun, run_bind_ok hruns]
      rfl
    · rw [hsteps, List.length_cons]
      dsimp only
      omega
    · have hcredit : r.credit setting.me bindings account =
          if a = account then (r.amount : Int) else 0 := by
        simp [Remittance.credit, ha]
      rw [hbalances, hpaid.balance_eq, sentTo_cons, totalOf_cons, hcredit]
      split <;> split <;> omega

/-- The amounts of a script that was read can be written. -/
theorem isWritable_of_reads {script : String} {order : List Remittance}
    (h : Node.Reads script (order.map Remittance.form)) :
    ∀ r ∈ order, Text.isWritable r.amount = true := by
  intro r hr
  have hform := h.wellFormed r.form (List.mem_map_of_mem hr)
  cases hform with
  | list hchildren =>
    have hamount := hchildren (.number r.amount) (by simp)
    cases hamount with
    | number h0 hl => exact Text.isWritable_of_length h0 hl

/-- **Transfers that can all be paid commute.**  On a plain ledger, take some transfers of numbers,
each to the contract or to a name that is bound to an account, and let the contract hold their sum.
A script that consists of them in any order succeeds in full, at three steps for each.  At the end
every account holds what it held and what was sent to it, and the contract less the sum of all;
that is the same for every order. -/
theorem run_affordable (setting : Setting) {ledger : Ledger} (hl : ledger.Plain)
    (bindings : Table String Value) (listener : Bool) (batch : List Remittance)
    (hpayees : ∀ r ∈ batch, (r.payee.account? setting.me bindings).isSome)
    (hcovered : totalOf batch ≤ ledger.balance setting.me)
    (hallowed : setting.Allows (3 * batch.length)) (hdepth : 2 ≤ setting.config.maxDepth)
    {order : List Remittance} (horder : order.Perm batch) {script : String}
    (hreads : Node.Reads script (order.map Remittance.form)) :
    let r := run setting script ledger bindings listener
    answerOf r = .ok (List.replicate batch.length .nil) ∧
    (stateOf r).steps = 3 * batch.length ∧
    ∀ account, (stateOf r).ledger.balance account =
      ledger.balance account + sentTo setting.me bindings account batch -
        if account = setting.me then totalOf batch else 0 := by
  intro r
  obtain ⟨record, hrun⟩ := run_of_reads hreads setting ledger bindings listener
  let start : State := { State.initial ledger bindings listener with log := [record] }
  have hstart : start.steps = 0 := rfl
  obtain ⟨t, hruns, hsteps, hbalances⟩ := run_execute_remittances bindings hdepth
    (s := start) hl (lookup_initial ledger bindings listener)
    (tree_initial ledger bindings listener).ordered.told
    (fun r hr => hpayees r (horder.mem_iff.mp hr)) (isWritable_of_reads hreads)
    (by rw [totalOf_perm horder]; exact hcovered)
    (by rw [hstart, Nat.zero_add, horder.length_eq]; exact hallowed)
  have hr : r = .ok (List.replicate order.length .nil) t := hrun.trans hruns
  rw [hr]
  refine ⟨congrArg (fun n => Except.ok (List.replicate n Value.nil)) horder.length_eq, ?_, ?_⟩
  · show t.steps = _
    rw [hsteps, hstart, Nat.zero_add, horder.length_eq]
  · intro account
    show t.ledger.balance account = _
    rw [hbalances, sentTo_perm horder, totalOf_perm horder]
    rfl

/-- A bank that may take twelve steps. -/
def counter : Setting := { bank with config := { bank.config with maxSteps := some 12 } }

/-- The names that it pays to, one of them for an account that the ledger does not list. -/
def counterBindings : Table String Value :=
  [("shop", .account ⟨"shop"⟩), ("tips", .account ⟨"jar"⟩)]

/-- It pays the shop twice, itself once, and nothing to the jar. -/
def counterBatch : List Remittance :=
  [⟨2, .named "shop"⟩, ⟨1, .own⟩, ⟨2, .named "shop"⟩, ⟨0, .named "tips"⟩]

/-- The same in another order. -/
def counterScript : String :=
  "($transfer 0 tips) ($transfer 2 shop) ($transfer 2 shop) ($transfer 1 $me)"

/-- The run of it. -/
def counterRun : EStateM.Result Fault State (List Value) :=
  trial counter counterScript cashierLedger counterBindings

/-- All that the bank has is asked for, and is paid. -/
theorem run_affordable_counter :
    answerOf counterRun = .ok [.nil, .nil, .nil, .nil] ∧ (stateOf counterRun).steps = 12 ∧
    (stateOf counterRun).ledger.balance ⟨"bank"⟩ = 1 ∧
    (stateOf counterRun).ledger.balance ⟨"shop"⟩ = 5 ∧
    (stateOf counterRun).ledger.balance ⟨"jar"⟩ = 0 := by
  have htokens : (Token.ofText counterScript).toOption = some [
      .openParen, .symbol "$transfer", .number "0" 0, .identifier "tips", .closeParen,
      .openParen, .symbol "$transfer", .number "2" 2, .identifier "shop", .closeParen,
      .openParen, .symbol "$transfer", .number "2" 2, .identifier "shop", .closeParen,
      .openParen, .symbol "$transfer", .number "1" 1, .symbol "$me", .closeParen] := by
    decide +kernel
  let order : List Remittance :=
    [⟨0, .named "tips"⟩, ⟨2, .named "shop"⟩, ⟨2, .named "shop"⟩, ⟨1, .own⟩]
  have hreads : Node.Reads counterScript (order.map Remittance.form) :=
    Node.reads_of_toOption htokens rfl
  have horder : order.Perm counterBatch := by decide
  have hl : Ledger.ofPairs [("bank", 5), ("shop", 1)] = .ok cashierLedger := rfl
  have hallowed : counter.Allows 12 := by
    intro most hmost
    cases hmost
    decide
  obtain ⟨hanswer, hsteps, hbalance⟩ := run_affordable counter (Ledger.plain_of_ofPairs hl)
    counterBindings false counterBatch (by decide) (by decide +kernel) hallowed (by decide) horder
    hreads
  rw [run_eq_trial] at hanswer hsteps hbalance
  refine ⟨hanswer, hsteps, ?_, ?_, ?_⟩
  · exact (hbalance _).trans (by decide +kernel)
  · exact (hbalance _).trans (by decide +kernel)
  · exact (hbalance _).trans (by decide +kernel)

end Run

end LedgerScript
