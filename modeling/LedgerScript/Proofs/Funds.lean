/-
# What a transfer does to the ledger

A transfer debits the contract and credits the destination in two writes.  Each write changes the
total by the difference to what the account held, so the two together keep it, also when an
account pays itself and the second write reads back the first.  If the ledger refuses the credit,
a third write restores the debit; it cannot be refused, since the account took a write before and
held at least the amount (`moved`).
-/
import LedgerScript.Proofs.Outcome

namespace LedgerScript

namespace Ledger

variable {ledger ledger' : Ledger} {account : Account} {amount : Int}

/-! ## 1. One write -/

/-- No account of the ledger has a negative balance. -/
def Solvent (ledger : Ledger) : Prop := ∀ entry ∈ ledger.entries, 0 ≤ entry.2

/-- A write that the ledger accepts. -/
theorem setBalance_eq_ok_iff :
    ledger.setBalance account amount = .ok ledger' ↔
      account ∉ ledger.locked ∧ 0 ≤ amount ∧
        ledger' = { ledger with entries := ledger.entries.put account amount } := by
  unfold setBalance
  by_cases hl : account ∈ ledger.locked
  · simp [hl]
  rw [if_neg hl]
  by_cases hn : amount < 0
  · have hneg : ¬ 0 ≤ amount := Int.not_le.mpr hn
    cases Text.writeInteger amount <;> simp [hn, hneg, bind, Except.bind]
  · have hpos : 0 ≤ amount := Int.not_lt.mp hn
    simp [hl, hn, hpos, eq_comm]

/-- A write of a balance that is not negative to an account that is not locked is accepted. -/
theorem exists_setBalance (hl : account ∉ ledger.locked) (hn : 0 ≤ amount) :
    ∃ ledger', ledger.setBalance account amount = .ok ledger' :=
  ⟨_, setBalance_eq_ok_iff.mpr ⟨hl, hn, rfl⟩⟩

/-- The sum of the balances in a list of entries changes by what a write adds to the account. -/
theorem sum_put (entries : Table Account Int) (account : Account) (amount : Int) :
    (entries.put account amount).foldr (fun entry sum => entry.2 + sum) 0 =
      entries.foldr (fun entry sum => entry.2 + sum) 0 + amount -
        (entries.get? account).getD 0 := by
  induction entries with
  | nil => simp [Table.put, Table.get?]
  | cons entry rest ih =>
    obtain ⟨key, held⟩ := entry
    by_cases hk : key = account
    · simp only [Table.put, Table.get?, hk, if_true, List.foldr_cons, Option.getD_some]
      omega
    · simp only [Table.put, Table.get?, hk, if_false, List.foldr_cons, ih]
      omega

/-- **A write changes the total** by the difference to what the account held. -/
theorem total_setBalance (h : ledger.setBalance account amount = .ok ledger') :
    ledger'.total = ledger.total + amount - ledger.balance account := by
  obtain ⟨-, -, rfl⟩ := setBalance_eq_ok_iff.mp h
  exact sum_put ledger.entries account amount

theorem Solvent.setBalance (hs : ledger.Solvent)
    (h : ledger.setBalance account amount = .ok ledger') : ledger'.Solvent := by
  obtain ⟨-, hpos, rfl⟩ := setBalance_eq_ok_iff.mp h
  intro entry hmem
  rcases Table.mem_put hmem with hmem | rfl
  · exact hs entry hmem
  · exact hpos

/-- What holds of the empty ledger and is kept by every write holds of a ledger that is built from
pairs. -/
theorem ofPairs_induction {P : Ledger → Prop} (hempty : P {})
    (hstep : ∀ {ledger ledger' account amount},
      ledger.setBalance account amount = .ok ledger' → P ledger → P ledger')
    {balances : Table String Int} (h : ofPairs balances = .ok ledger) : P ledger := by
  have hfrom : ∀ {pairs : Table String Int} {start : Ledger}, P start →
      pairs.foldlM (fun ledger entry => ledger.setBalance ⟨entry.1⟩ entry.2) start = .ok ledger →
        P ledger := by
    intro pairs
    induction pairs with
    | nil =>
      rintro _ hs ⟨⟩
      exact hs
    | cons pair rest ih =>
      intro start hs h
      rw [List.foldlM_cons] at h
      cases hp : start.setBalance ⟨pair.1⟩ pair.2 with
      | error fault => rw [hp] at h; cases h
      | ok next => rw [hp] at h; exact ih (hstep hp hs) h
  exact hfrom hempty h

/-- **A ledger that is built from pairs is solvent.** -/
theorem solvent_of_ofPairs {balances : Table String Int} (h : ofPairs balances = .ok ledger) :
    ledger.Solvent :=
  ofPairs_induction (fun _ hmem => absurd hmem List.not_mem_nil) (fun h hs => hs.setBalance h) h

/-- No account of a ledger that is built from pairs is locked. -/
theorem locked_of_ofPairs {balances : Table String Int} (h : ofPairs balances = .ok ledger) :
    ledger.locked = [] :=
  ofPairs_induction (P := fun ledger => ledger.locked = []) rfl
    (fun h hl => (locked_of_setBalance h).trans hl) h

/-- A plain ledger: no balance is negative, and no account is locked. -/
structure Plain (ledger : Ledger) : Prop where
  solvent : ledger.Solvent
  unlocked : ledger.locked = []

theorem plain_of_ofPairs {balances : Table String Int} (h : ofPairs balances = .ok ledger) :
    ledger.Plain := ⟨solvent_of_ofPairs h, locked_of_ofPairs h⟩

theorem Plain.setBalance (h : ledger.Plain)
    (hs : ledger.setBalance account amount = .ok ledger') : ledger'.Plain where
  solvent := h.solvent.setBalance hs
  unlocked := (locked_of_setBalance hs).trans h.unlocked

/-- A write is a write to the table of balances by address. -/
theorem toPairs_setBalance (h : ledger.setBalance account amount = .ok ledger') :
    ledger'.toPairs = ledger.toPairs.put account.address amount := by
  have hput : ∀ entries : Table Account Int,
      (entries.put account amount).map (fun entry => (entry.1.address, entry.2)) =
        Table.put (entries.map fun entry => (entry.1.address, entry.2)) account.address amount := by
    intro entries
    induction entries with
    | nil => rfl
    | cons entry rest ih =>
      obtain ⟨⟨address⟩, held⟩ := entry
      obtain ⟨key⟩ := account
      by_cases hk : address = key
      · simp [Table.put, hk]
      · simpa [Table.put, hk] using ih
  obtain ⟨-, -, rfl⟩ := setBalance_eq_ok_iff.mp h
  exact hput ledger.entries

/-- A ledger that is built from pairs lists them, as a table does. -/
theorem toPairs_ofPairs {balances : Table String Int} (h : ofPairs balances = .ok ledger) :
    ledger.toPairs = Table.ofPairs balances := by
  have hfrom : ∀ {pairs : Table String Int} {start : Ledger},
      pairs.foldlM (fun ledger entry => ledger.setBalance ⟨entry.1⟩ entry.2) start = .ok ledger →
        ledger.toPairs = pairs.foldl (fun t pair => t.put pair.1 pair.2) start.toPairs := by
    intro pairs
    induction pairs with
    | nil =>
      rintro _ ⟨⟩
      rfl
    | cons pair rest ih =>
      intro start h
      rw [List.foldlM_cons] at h
      cases hp : start.setBalance ⟨pair.1⟩ pair.2 with
      | error fault => rw [hp] at h; cases h
      | ok next =>
        rw [hp] at h
        rw [ih h, toPairs_setBalance hp]
        rfl
  exact hfrom h

/-- Balances that are not negative make a ledger. -/
theorem exists_ofPairs {balances : Table String Int} (h : ∀ pair ∈ balances, 0 ≤ pair.2) :
    ∃ ledger, ofPairs balances = .ok ledger := by
  have hfrom : ∀ {pairs : Table String Int} {start : Ledger}, (∀ pair ∈ pairs, 0 ≤ pair.2) →
      start.locked = [] →
        ∃ ledger, pairs.foldlM (fun ledger entry => ledger.setBalance ⟨entry.1⟩ entry.2) start =
          .ok ledger := by
    intro pairs
    induction pairs with
    | nil => exact fun _ _ => ⟨_, rfl⟩
    | cons pair rest ih =>
      intro start h hl
      obtain ⟨hpair, hrest⟩ := List.forall_mem_cons.mp h
      have hfree : (⟨pair.1⟩ : Account) ∉ start.locked := hl ▸ List.not_mem_nil
      obtain ⟨next, hnext⟩ := exists_setBalance hfree hpair
      rw [List.foldlM_cons, hnext]
      exact ih hrest ((locked_of_setBalance hnext).trans hl)
  exact hfrom h rfl

/-- A table of balances that are not negative is loaded into a ledger as it is. -/
theorem exists_loaded {balances : Table String Int} (hn : balances.keys.Nodup)
    (h0 : ∀ pair ∈ balances, 0 ≤ pair.2) :
    ∃ ledger, ofPairs balances = .ok ledger ∧ ledger.toPairs = balances := by
  obtain ⟨ledger, hl⟩ := exists_ofPairs h0
  exact ⟨ledger, hl, (toPairs_ofPairs hl).trans (Table.ofPairs_of_nodup hn)⟩

/-- Locking accounts changes no balance. -/
theorem Solvent.lock (hs : ledger.Solvent) (locked : List Account) :
    (ledger.lock locked).Solvent := hs

theorem getD_get?_nonneg (account : Account) : ∀ (entries : Table Account Int),
    (∀ entry ∈ entries, 0 ≤ entry.2) → 0 ≤ (entries.get? account).getD 0
  | [], _ => Int.le_refl 0
  | (key, held) :: rest, h => by
    unfold Table.get?
    split
    · exact h _ List.mem_cons_self
    · exact getD_get?_nonneg account rest fun entry hmem => h entry (List.mem_cons_of_mem _ hmem)

theorem Solvent.balance_nonneg (hs : ledger.Solvent) (account : Account) :
    0 ≤ ledger.balance account := getD_get?_nonneg account ledger.entries hs

/-- After a write, a solvent ledger accepts a credit to an account that is not locked: no balance
to which it is added is negative. -/
theorem Solvent.exists_credit (hs : ledger.Solvent)
    (h : ledger.setBalance account amount = .ok ledger') {destination : Account}
    (hl : destination ∉ ledger.locked) {n : Int} (h0 : 0 ≤ n) :
    ∃ credited, ledger'.setBalance destination (ledger'.balance destination + n) = .ok credited :=
  exists_setBalance (locked_of_setBalance h ▸ hl)
    (Int.add_nonneg ((hs.setBalance h).balance_nonneg destination) h0)

end Ledger

namespace Run

open Eval

/-! ## 2. A transfer -/

variable {setting : Setting} {amount : Int} {destination : Account} {s : State}

/-- What a transfer does with the values of its operands. -/
def settle (setting : Setting) (amount destination : Value) : Eval Value := do
  let amount ← amountOf amount
  let destination ← destinationOf destination
  moveFunds setting amount destination
  pure .nil

/-- A contract that holds less than the amount moves nothing. -/
theorem run_moveFunds_short (destination : Account)
    (h : s.ledger.balance setting.me < amount) :
    ∃ fault, (moveFunds setting amount destination).run s = .error fault s := by
  unfold moveFunds
  rw [run_bind_ok (run_balance setting.me s)]
  dsimp only
  rw [if_pos h, EStateM.run_bind, run_ofHost]
  cases Text.writeInteger (s.ledger.balance setting.me) with
  | error fault => exact ⟨_, rfl⟩
  | ok held =>
    dsimp only
    rw [EStateM.run_bind, run_ofHost]
    cases Text.writeInteger amount <;> exact ⟨_, rfl⟩

section

variable (h : ¬ s.ledger.balance setting.me < amount) {fault : HostFault}
  {debited credited restored : Ledger}

include h

/-- A debit that the ledger refuses changes nothing. -/
theorem run_moveFunds_refused
    (hd : s.ledger.setBalance setting.me (s.ledger.balance setting.me - amount) =
      .error fault) :
    (moveFunds setting amount destination).run s = .error (.host fault) s := by
  unfold moveFunds
  rw [run_bind_ok (run_balance setting.me s)]
  dsimp only
  rw [if_neg h, EStateM.run_bind, run_setBalance, hd]

/-- A credit that the ledger refuses gives the debit back. -/
theorem run_moveFunds_restored
    (hd : s.ledger.setBalance setting.me (s.ledger.balance setting.me - amount) = .ok debited)
    (hc : debited.setBalance destination (debited.balance destination + amount) = .error fault)
    (hr : debited.setBalance setting.me (s.ledger.balance setting.me) = .ok restored) :
    (moveFunds setting amount destination).run s =
      .error (.host fault) { s with ledger := restored } := by
  unfold moveFunds
  rw [run_bind_ok (run_balance setting.me s)]
  dsimp only
  rw [if_neg h, EStateM.run_bind, run_setBalance, hd]
  dsimp only
  rw [EStateM.run_bind, run_tryCatch, EStateM.run_bind, run_balance]
  dsimp only
  rw [run_setBalance]
  dsimp only
  rw [hc]
  dsimp only
  rw [EStateM.run_bind, run_setBalance, hr]
  rfl

/-- A debit and a credit that the ledger accepts are told to the log. -/
theorem run_moveFunds_credited
    (hd : s.ledger.setBalance setting.me (s.ledger.balance setting.me - amount) = .ok debited)
    (hc : debited.setBalance destination (debited.balance destination + amount) =
      .ok credited) :
    (moveFunds setting amount destination).run s =
      (logTransfer setting amount destination).run { s with ledger := credited } := by
  unfold moveFunds
  rw [run_bind_ok (run_balance setting.me s)]
  dsimp only
  rw [if_neg h, EStateM.run_bind, run_setBalance, hd]
  dsimp only
  rw [EStateM.run_bind, run_tryCatch, EStateM.run_bind, run_balance]
  dsimp only
  rw [run_setBalance]
  dsimp only
  rw [hc]

/-- What was debited can be given back: the account took a write before, and what it held was not
negative. -/
theorem setBalance_restore (h0 : 0 ≤ amount)
    (hd : s.ledger.setBalance setting.me (s.ledger.balance setting.me - amount) = .ok debited) :
    ∃ restored, debited.setBalance setting.me (s.ledger.balance setting.me) = .ok restored := by
  obtain ⟨hme, -, -⟩ := Ledger.setBalance_eq_ok_iff.mp hd
  exact Ledger.exists_setBalance (Ledger.locked_of_setBalance hd ▸ hme) (by omega)

end

/-- Telling the log about a transfer that is done. -/
theorem run_logTransfer (amount : Int) (destination : Account) (s : State) :
    (logTransfer setting amount destination).run s =
      if setting.listening = true ∧ ¬ Text.isWritable amount then
        .error (.host .integerTooLong) s
      else .ok () { s with log := s.log ++ [.transferred amount setting.me destination] } := by
  unfold logTransfer
  dsimp only
  rw [ite_bind_eq, EStateM.run_bind]
  by_cases hl : setting.listening = true
  · rw [if_pos hl, Text.writeInteger]
    by_cases hw : Text.isWritable amount = true
    · rw [if_pos hw, if_neg (fun h => h.2 hw)]
      rfl
    · rw [if_neg hw, if_pos ⟨hl, hw⟩]
      rfl
  · rw [if_neg hl, if_neg (fun h => hl h.1)]
    rfl

/-- What moving funds can come to: refused before anything is written, refused at the credit with
the debit restored, done, or done and then faulting because nobody can be told the amount. -/
inductive Moved (setting : Setting) (amount : Int) (destination : Account) (s : State) :
    EStateM.Result Fault State Unit → Prop
  | refused (fault : Fault) : Moved setting amount destination s (.error fault s)
  | restored (fault : Fault) {debited restored : Ledger}
    (hd : s.ledger.setBalance setting.me (s.ledger.balance setting.me - amount) = .ok debited)
    (hr : debited.setBalance setting.me (s.ledger.balance setting.me) = .ok restored) :
    Moved setting amount destination s (.error fault { s with ledger := restored })
  | done {debited credited : Ledger} (log : List Record)
    (hd : s.ledger.setBalance setting.me (s.ledger.balance setting.me - amount) = .ok debited)
    (hc : debited.setBalance destination (debited.balance destination + amount) =
      .ok credited) :
    Moved setting amount destination s (.ok () { s with ledger := credited, log })
  | untold (fault : Fault) {debited credited : Ledger}
    (hd : s.ledger.setBalance setting.me (s.ledger.balance setting.me - amount) = .ok debited)
    (hc : debited.setBalance destination (debited.balance destination + amount) =
      .ok credited) :
    Moved setting amount destination s (.error fault { s with ledger := credited })

/-- **Moving funds** comes to one of these, if the amount is not negative. -/
theorem moved (h : 0 ≤ amount) :
    Moved setting amount destination s ((moveFunds setting amount destination).run s) := by
  by_cases hheld : s.ledger.balance setting.me < amount
  · obtain ⟨fault, hrun⟩ := run_moveFunds_short destination hheld
    rw [hrun]
    exact .refused fault
  cases hd : s.ledger.setBalance setting.me (s.ledger.balance setting.me - amount) with
  | error fault =>
    rw [run_moveFunds_refused hheld hd]
    exact .refused _
  | ok debited =>
    cases hc : debited.setBalance destination (debited.balance destination + amount) with
    | error fault =>
      obtain ⟨restored, hr⟩ := setBalance_restore hheld h hd
      rw [run_moveFunds_restored hheld hd hc hr]
      exact .restored _ hd hr
    | ok credited =>
      rw [run_moveFunds_credited hheld hd hc, run_logTransfer]
      split
      · exact .untold _ hd hc
      · exact .done _ hd hc

/-- What every write keeps that the ledger accepts, a transfer keeps, at whichever end. -/
theorem Moved.keeps {P : Ledger → Prop}
    (hP : ∀ {ledger ledger' account amount},
      ledger.setBalance account amount = .ok ledger' → P ledger → P ledger')
    {r : EStateM.Result Fault State Unit} (hm : Moved setting amount destination s r)
    (hs : P s.ledger) : Ends (fun _ t => P t.ledger) (fun _ t => P t.ledger) r := by
  cases hm with
  | refused fault => exact .fault hs
  | restored fault hd hr => exact .fault (hP hr (hP hd hs))
  | done log hd hc => exact .value (hP hc (hP hd hs))
  | untold fault hd hc => exact .fault (hP hc (hP hd hs))

end Run

end LedgerScript
