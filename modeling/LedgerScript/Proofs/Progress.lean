/-
# Runs only add

Nothing that a run has counted, written or made is taken back: steps, lines, scopes and accounts
become more and never fewer, and no account but the contract's loses funds.  `Onward` collects
this as a relation between an earlier and a later state.  A transfer goes onward at each of its
ends, also when its debit is restored (`Moved.onward`), hence so does every evaluation and every
run, whatever it comes to.
-/
import LedgerScript.Proofs.Discipline
import LedgerScript.Proofs.Funds

namespace LedgerScript

namespace Ledger

variable {ledger ledger' : Ledger} {account : Account} {amount : Int}

/-- A write adds its account at the end, or none. -/
theorem accounts_setBalance (h : ledger.setBalance account amount = .ok ledger') :
    ledger'.accounts =
      if account ∈ ledger.accounts then ledger.accounts else ledger.accounts ++ [account] := by
  obtain ⟨-, -, rfl⟩ := setBalance_eq_ok_iff.mp h
  exact Table.keys_put ledger.entries account amount

end Ledger

namespace Run

open Eval

/-! ## 1. What comes after what -/

/-- The second list is the first and others at the end that are not in it. -/
def ExtendedBy {α : Type} (old new added : List α) : Prop :=
  new = old ++ added ∧ ∀ a ∈ added, a ∉ old

/-- A later state of a run of the contract `me`. -/
structure Onward (me : Account) (s t : State) : Prop where
  steps : s.steps ≤ t.steps
  /-- Lines are written at the end, and the listener gets the same lines. -/
  written : ∃ lines, t.output = s.output ++ lines ∧ t.sink = s.sink.map (· ++ lines)
  scopes : s.arena.scopes.size ≤ t.arena.scopes.size
  /-- Accounts come in at the end. -/
  accounts : ∃ added, ExtendedBy s.ledger.accounts t.ledger.accounts added
  funds (account : Account) : account ≠ me → s.ledger.balance account ≤ t.ledger.balance account

namespace Onward

variable {me : Account} {s t u : State}

theorem refl (me : Account) (s : State) : Onward me s s where
  steps := Nat.le_refl _
  written := by
    refine ⟨[], (List.append_nil _).symm, ?_⟩
    cases s.sink <;> simp
  scopes := Nat.le_refl _
  accounts := ⟨[], (List.append_nil _).symm, fun _ h => absurd h List.not_mem_nil⟩
  funds _ _ := Int.le_refl _

theorem trans (h : Onward me s t) (h' : Onward me t u) : Onward me s u where
  steps := Nat.le_trans h.steps h'.steps
  written := by
    obtain ⟨lines, hout, hsink⟩ := h.written
    obtain ⟨lines', hout', hsink'⟩ := h'.written
    refine ⟨lines ++ lines', by rw [hout', hout, List.append_assoc], ?_⟩
    rw [hsink', hsink]
    cases s.sink <;> simp
  scopes := Nat.le_trans h.scopes h'.scopes
  accounts := by
    obtain ⟨added, heq, hnew⟩ := h.accounts
    obtain ⟨added', heq', hnew'⟩ := h'.accounts
    refine ⟨added ++ added', by rw [heq', heq, List.append_assoc], ?_⟩
    intro a hmem hold
    rcases List.mem_append.mp hmem with hmem | hmem
    · exact hnew a hmem hold
    · exact hnew' a hmem (heq ▸ List.mem_append_left _ hold)
  funds account hne := Int.le_trans (h.funds account hne) (h'.funds account hne)

/-- The lines of the earlier state come first in the later. -/
theorem output_prefix (h : Onward me s t) : s.output <+: t.output := by
  obtain ⟨lines, hout, -⟩ := h.written
  exact ⟨lines, hout.symm⟩

/-! ## 2. The operations -/

theorem count (me : Account) (s : State) : Onward me s { s with steps := s.steps + 1 } :=
  { refl me s with steps := Nat.le_succ _ }

theorem write (me : Account) (s : State) (line : String) :
    Onward me s { s with output := s.output ++ [line], sink := s.sink.map (· ++ [line]) } :=
  { refl me s with written := ⟨[line], rfl, rfl⟩ }

theorem log (me : Account) (s : State) (record : Record) :
    Onward me s { s with log := s.log ++ [record] } :=
  { refl me s with }

theorem arena (me : Account) {arena : Arena} (h : s.arena.scopes.size ≤ arena.scopes.size) :
    Onward me s { s with arena } :=
  { refl me s with scopes := h }

/-- A write to the ledger, if no other account than the contract's loses by it. -/
theorem setBalance (s : State) {ledger ledger' : Ledger} {account : Account} {amount : Int}
    (h : ledger.setBalance account amount = .ok ledger')
    (hn : account ≠ me → ledger.balance account ≤ amount) :
    Onward me { s with ledger } { s with ledger := ledger' } := by
  refine { refl me { s with ledger } with accounts := ?_, funds := ?_ }
  · have haccounts := Ledger.accounts_setBalance h
    by_cases hmem : account ∈ ledger.accounts
    · exact ⟨[], by simp [haccounts, hmem], fun _ h => absurd h List.not_mem_nil⟩
    · exact ⟨[account], by simp [haccounts, hmem], by simpa using hmem⟩
  · intro other hne
    dsimp only
    rw [Ledger.balance_of_setBalance h]
    split
    · next heq =>
      subst heq
      exact hn hne
    · exact Int.le_refl _

end Onward

variable {setting : Setting} {s : State}

/-- A transfer goes onward, at whichever end. -/
theorem Moved.onward {amount : Int} {destination : Account}
    {r : EStateM.Result Fault State Unit} (hm : Moved setting amount destination s r)
    (hn : 0 ≤ amount) :
    Ends (fun _ t => Onward setting.me s t) (fun _ t => Onward setting.me s t) r := by
  -- what the contract holds may become less; what the destination holds becomes more
  have hdestination {held : Int} : destination ≠ setting.me → held ≤ held + amount :=
    fun _ => Int.le_add_of_nonneg_right hn
  cases hm with
  | refused => exact .fault (.refl _ _)
  | restored fault hd hr =>
    have hdebit := Onward.setBalance s hd fun h => absurd rfl h
    have hrestore := Onward.setBalance s hr fun h => absurd rfl h
    exact .fault (hdebit.trans hrestore)
  | done log hd hc =>
    have hdebit := Onward.setBalance s hd fun h => absurd rfl h
    have hcredit := (hdebit.trans (Onward.setBalance s hc hdestination))
    exact .value { hcredit with }
  | untold fault hd hc =>
    have hdebit := Onward.setBalance s hd fun h => absurd rfl h
    exact .fault (hdebit.trans (Onward.setBalance s hc hdestination))

/-! ## 3. Evaluations and runs -/

/-- Every evaluation goes onward. -/
def progressing (setting : Setting) : Discipline setting where
  Inv _ := True
  Home _ _ := True
  Good _ _ := True
  Step := Onward setting.me
  refl := .refl _
  trans := .trans
  home_mono _ h := h
  good_mono _ h := h
  plain _ := trivial
  found _ _ _ := trivial
  count _ := ⟨trivial, .count _ _⟩
  write line _ := ⟨trivial, .write _ _ line⟩
  log record _ := ⟨trivial, .log _ _ record⟩
  define _ _ _ hd := ⟨trivial, .arena _ (Nat.le_of_eq (Arena.size_modify hd).symm)⟩
  capture _ _ _ _ := ⟨trivial, .arena _ (by rw [Arena.size_newScope]; omega), trivial⟩
  enter _ _ _ := ⟨trivial, .arena _ (by rw [Arena.size_newScope]; omega), trivial⟩
  share _ _ _ := trivial
  transfer _ _ hn :=
    Ends.mono ((moved hn).onward hn) (fun _ _ h => ⟨trivial, h⟩) fun _ _ h => ⟨trivial, h⟩

theorem progressing_permits (setting : Setting) : (progressing setting).Permits :=
  fun _ _ _ _ _ _ hp => ⟨trivial, .arena _ (Nat.le_of_eq (Arena.size_modify hp).symm)⟩

/-- **Evaluations only add**, whatever they come to. -/
theorem onward_evaluate (setting : Setting) (depth : Nat) (form : Node) (scope : ScopeId)
    (s : State) :
    Onward setting.me s (stateOf ((evaluate setting depth form scope).run s)) :=
  (Discipline.evaluate (D := progressing setting) (progressing_permits setting) trivial trivial
    depth form).state.2

/-- **Runs only add.** -/
theorem onward_run (setting : Setting) (script : String) (ledger : Ledger)
    (bindings : Table String Value) (listener : Bool) :
    Onward setting.me (.initial ledger bindings listener)
      (stateOf (run setting script ledger bindings listener)) := by
  obtain ⟨held, hb⟩ := between_run setting script ledger bindings listener
  exact (Discipline.between (D := progressing setting) (progressing_permits setting) trivial
    trivial hb).2.1

end Run

end LedgerScript
