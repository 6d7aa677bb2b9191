/-
# The ways in which a run can fail

Whatever the script, the contract and the configuration, a run that starts with a ledger built from
pairs and with bindings without closures ends in values or in one of few faults.  The host refuses
only what is too long to be read or written, and what would change a locked account; all else that
goes wrong is a script error of one of ten kinds, and unbalanced parentheses are found before
anything is done (`interpret_fails`).

Behind this is what holds in every state of such a run (`Sound`): the scopes form a tree and every
closure has captured one of them, so each scope that is asked for is there; no balance is negative,
so a transfer writes none.  A run in a sound state corresponds to itself, with no name renamed, and
it can end in no fault but those of `Listed` (`sound`).
-/
import LedgerScript.Proofs.Balance
import LedgerScript.Proofs.Correspondence
import LedgerScript.Proofs.Funds
import LedgerScript.Proofs.RoundTrip
import LedgerScript.Proofs.Scanning
import LedgerScript.Proofs.ScopeTree
import Mathlib.Data.Nat.Basic

namespace LedgerScript

/-! ## 1. Scopes that are there -/

namespace Arena

variable {arena : Arena} {id : ScopeId}

/-- A scope that is there can be changed. -/
theorem Has.modify (h : arena.Has id) (change : Scope → Scope) :
    ∃ arena', arena.modify id change = .ok arena' := by
  obtain ⟨scope, hs⟩ := h
  unfold Arena.modify
  rw [hs]
  exact ⟨_, rfl⟩

/-- A scope that is there permits some names. -/
theorem Has.permitted (h : arena.Has id) : ∃ names, arena.permitted id = .ok names := by
  obtain ⟨scope, hs⟩ := h
  unfold Arena.permitted
  rw [hs]
  exact ⟨_, rfl⟩

end Arena

namespace Run

open Eval Kinship

variable {setting : Setting} {locked : List Account} {n : Nat} {s : State}

/-! ## 2. Sound states -/

/-- The faults of an evaluation. -/
inductive Listed (locked : List Account) : Fault → Prop
  | script {error : ScriptError} (h : error.kind ≠ .unbalancedParens) :
    Listed locked (.script error)
  | tooLong : Listed locked (.host .integerTooLong)
  | locked {account : Account} (h : account ∈ locked) :
    Listed locked (.host (.locked account.address))
  | tooDeep : Listed locked .tooDeep

/-- An error that tells an integer is listed, and so is what keeps it from telling it. -/
theorem listed_telling {e : String → ScriptError}
    (h : ∀ text, (e text).kind ≠ .unbalancedParens) (n : Int) :
    Listed locked (.ofFailure (.telling e (Text.writeInteger n))) := by
  unfold Text.writeInteger
  split
  · exact .script (h _)
  · exact .tooLong

/-- A state with `n` scopes below the root, in which a run can go on: the scopes form a tree, the
closures that are bound have captured scopes of it, and no balance is negative. -/
structure Sound (setting : Setting) (locked : List Account) (n : Nat) (s : State) : Prop where
  size : s.arena.scopes.size = n + 1
  holds : (growing setting).Holds s.arena
  solvent : s.ledger.Solvent
  locked : s.ledger.locked = locked

/-- A run beside itself; the records logged need not be the same. -/
def beside (setting : Setting) (locked : List Account) : Kinship Nat where
  Rel n s t := Sound setting locked n s ∧ ∃ log, t = { s with log }
  Like f g := Listed locked f ∧ Listed locked g ∧ (f = .tooDeep ↔ g = .tooDeep)

section Operations

variable {scope : Int}

theorem Sound.has_iff (h : Sound setting locked n s) :
    s.arena.Has scope ↔ 0 ≤ scope ∧ scope ≤ n := by
  rw [Arena.has_iff, h.size, Int.natCast_succ, Int.lt_add_one_iff]

/-- The values that may be handled in a sound state. -/
theorem Sound.good_iff (h : Sound setting locked n s) {v : Value} :
    (growing setting).Good s.arena v ↔
      v.Fits (fun _ => True) fun id => 0 < id ∧ id ≤ (n : Int) := by
  cases v with
  | closure params body captured =>
    show (∀ id, some captured = some id → s.arena.Has id ∧ id ≠ Arena.rootId) ↔
      True ∧ 0 < captured ∧ captured ≤ (n : Int)
    simp only [Option.some.injEq, forall_eq', h.has_iff, true_and]
    constructor
    · rintro ⟨⟨h0, hn⟩, hne⟩
      exact ⟨Int.lt_iff_le_and_ne.mpr ⟨h0, Ne.symm hne⟩, hn⟩
    · rintro ⟨h0, hn⟩
      exact ⟨⟨Int.le_of_lt h0, hn⟩, Int.ne_of_gt h0⟩
  | _ => exact ⟨fun _ => trivial, fun _ _ hid => nomatch hid⟩

/-- What changes neither the arena nor the ledger leaves a state sound. -/
theorem Sound.congr (h : Sound setting locked n s) {t : State} (ha : t.arena = s.arena)
    (hl : t.ledger = s.ledger) : Sound setting locked n t :=
  ⟨ha ▸ h.size, ha ▸ h.holds, hl ▸ h.solvent, hl ▸ h.locked⟩

/-! ## 3. The operations -/

theorem beside_countStep (limit : Option Int) :
    (beside setting locked).Corresponds n (fun _ _ _ => True)
      (countStep limit) (countStep limit) := by
  rintro s _ ⟨h, log, rfl⟩
  rw [run_countStep, run_countStep]
  cases limit with
  | none => exact .value le_rfl ⟨h.congr rfl rfl, log, rfl⟩ trivial
  | some most =>
    dsimp only
    split
    · have hlisted : Listed locked _ := listed_telling (e := .stepLimit) (fun _ => nofun) most
      exact .fault le_rfl ⟨h.congr rfl rfl, log, rfl⟩ ⟨hlisted, hlisted, Iff.rfl⟩
    · exact .value le_rfl ⟨h.congr rfl rfl, log, rfl⟩ trivial

/-- A new scope below one that is there. -/
theorem beside_newScope (hh : 0 ≤ scope ∧ scope ≤ n) {P : Nat → ScopeId → Prop}
    (hp : P (n + 1) ((n + 1 : Nat) : Int)) :
    (beside setting locked).Corresponds n (Same P)
      (newScope (some scope)) (newScope (some scope)) := by
  rintro s _ ⟨h, log, rfl⟩
  have hsize := Arena.size_newScope s.arena (some scope)
  have htree : (s.arena.newScope (some scope)).2.Tree := h.holds.inv.newScope (h.has_iff.mpr hh)
  have hstep : (growing setting).Step s.arena (s.arena.newScope (some scope)).2 :=
    Arena.grown_newScope _ _
  have hid : (s.arena.newScope (some scope)).1 = ((n + 1 : Nat) : Int) := congrArg Int.ofNat h.size
  rw [run_newScope, run_newScope]
  refine .value (Nat.le_succ n) ⟨⟨?_, h.holds.newScope htree hstep, h.solvent, h.locked⟩, log, rfl⟩
    ⟨rfl, hid ▸ hp⟩
  rw [hsize, h.size]

/-- A change of a scope that is there, if the tree and the bindings stand it. -/
theorem beside_changeArena {change : Arena → Except HostFault Arena}
    (hc : ∀ s, Sound setting locked n s → ∃ arena, change s.arena = .ok arena ∧
      (growing setting).Holds arena ∧ arena.scopes.size = s.arena.scopes.size) :
    (beside setting locked).Corresponds n (fun _ _ _ => True)
      (changeArena change) (changeArena change) := by
  rintro s _ ⟨h, log, rfl⟩
  obtain ⟨arena, harena, hholds, hsize⟩ := hc s h
  rw [run_changeArena, run_changeArena, harena]
  exact .value le_rfl ⟨⟨hsize.trans h.size, hholds, h.solvent, h.locked⟩, log, rfl⟩ trivial

theorem beside_setBalance (account : Account) {amount : Int} (hn : 0 ≤ amount) :
    (beside setting locked).Corresponds n (fun _ _ _ => True)
      (setBalance account amount) (setBalance account amount) := by
  rintro s _ ⟨h, log, rfl⟩
  rw [run_setBalance, run_setBalance]
  by_cases hl : account ∈ s.ledger.locked
  · have hfault : s.ledger.setBalance account amount = .error (.locked account.address) := if_pos hl
    have hlisted := Listed.locked (h.locked ▸ hl)
    rw [hfault]
    exact .fault le_rfl ⟨h, log, rfl⟩ ⟨hlisted, hlisted, Iff.rfl⟩
  · have hok := Ledger.setBalance_eq_ok_iff.mpr ⟨hl, hn, rfl⟩
    have hlocked := (Ledger.locked_of_setBalance hok).trans h.locked
    rw [hok]
    exact .value le_rfl ⟨⟨h.size, h.holds, h.solvent.setBalance hok, hlocked⟩, log, rfl⟩ trivial

end Operations

/-! ## 4. Runs beside themselves -/

/-- **A sound run corresponds to itself.** -/
def sound (setting : Setting) (locked : List Account) : Correspondence setting Nat where
  toKinship := beside setting locked
  rename := id
  Form _ := True
  Home n scope := 0 ≤ scope ∧ scope ≤ (n : Int)
  Captured n scope := 0 < scope ∧ scope ≤ (n : Int)
  Balance amount := 0 ≤ amount
  form_list _ _ _ := trivial
  form_ident _ := rfl
  form_operator _ := rfl
  legacy_rename _ _ := rfl
  injective := Function.injective_id
  home_root n := ⟨Int.le_refl 0, Int.natCast_nonneg n⟩
  home_mono hn h := ⟨h.1, Int.le_trans h.2 (Int.ofNat_le.mpr hn)⟩
  captured_mono hn h := ⟨h.1, Int.le_trans h.2 (Int.ofNat_le.mpr hn)⟩
  legacy_home _ h := ⟨Int.le_of_lt h.1, h.2⟩
  balance_debit _ h := Int.sub_nonneg_of_le h
  balance_credit := Int.add_nonneg
  like_error hk hp := ⟨.script hp, .script (hk ▸ hp), nofun, nofun⟩
  like_tooLong := ⟨.tooLong, .tooLong, Iff.rfl⟩
  like_tooDeep := ⟨.tooDeep, .tooDeep, Iff.rfl⟩
  tooDeep_iff h := h.2.2
  told_iff := by
    rintro n s _ ⟨-, log, rfl⟩
    exact Iff.rfl
  count _ := beside_countStep _
  write n v line line' hline hline' := by
    rw [Value.rename_id, hline] at hline'
    cases hline'
    rintro s _ ⟨h, log, rfl⟩
    exact .value le_rfl ⟨h.congr rfl rfl, log, rfl⟩ trivial
  log n record record' := by
    rintro s _ ⟨h, log, rfl⟩
    exact .value le_rfl ⟨h.congr rfl rfl, _, rfl⟩ trivial
  capture hh := beside_newScope hh ⟨Int.natCast_pos.mpr (Nat.succ_pos _), Int.le_refl _⟩
  enter _ hc := beside_newScope ⟨Int.le_of_lt hc.1, hc.2⟩ ⟨Int.natCast_nonneg _, Int.le_refl _⟩
  define name v hh hv := by
    rw [Value.rename_id]
    refine beside_changeArena fun s h => ?_
    obtain ⟨arena, harena⟩ := (h.has_iff.mpr hh).modify
      fun scope => { scope with bindings := scope.bindings.put name v }
    have hholds := h.holds.define (h.has_iff.mpr hh) (h.good_iff.mpr hv) harena
    exact ⟨arena, harena, hholds.1, Arena.size_modify harena⟩
  permit name hh := by
    refine beside_changeArena fun s h => ?_
    obtain ⟨arena, harena⟩ := (h.has_iff.mpr hh).modify fun scope =>
      if name ∈ scope.permitted then scope
      else { scope with permitted := scope.permitted ++ [name] }
    have hsize := Arena.size_modify harena
    have htree := h.holds.inv.modify (Arena.parent_permit name) harena
    exact ⟨arena, harena, h.holds.permit harena htree (Nat.le_of_eq hsize.symm), hsize⟩
  permitted hh := by
    rintro s _ ⟨h, log, rfl⟩
    obtain ⟨names, hnames⟩ := (h.has_iff.mpr hh).permitted
    rw [run_permitted, run_permitted, hnames]
    exact .value le_rfl ⟨h, log, rfl⟩ ⟨(List.map_id names).symm, trivial⟩
  lookup name hh := by
    rintro s _ ⟨h, log, rfl⟩
    -- In a tree every look-up walks to an answer, so no scope is asked for that is not there.
    obtain ⟨visited, found, -, hfound, -⟩ := h.holds.inv.lookup_eq name (h.has_iff.mpr hh)
    rw [run_lookup?, run_lookup?]
    show Kinship.Meets _ _ _ ((ofHost (s.arena.lookup _ name)).run s)
      ((ofHost (s.arena.lookup _ name)).run { s with log })
    rw [hfound]
    refine .value le_rfl ⟨h, log, rfl⟩ ⟨?_, ?_⟩
    · rw [funext Value.rename_id]
      exact Option.map_id'.symm
    · rintro v rfl
      obtain ⟨id, hb⟩ := Arena.binds_of_lookup hfound
      exact h.good_iff.mp (h.holds.bound hb)
  balance n account := by
    rintro s _ ⟨h, log, rfl⟩
    exact .value le_rfl ⟨h, log, rfl⟩ ⟨rfl, h.solvent.balance_nonneg account⟩
  setBalance _ account _ hn := beside_setBalance account hn

/-- **The faults of executed forms,** from a sound state. -/
theorem execute_listed (h : Sound setting locked n s) {forms : List Node}
    (hw : ∀ form ∈ forms, form.isWritable = true) :
    Ends (fun _ _ => True) (fun f _ => Listed locked f) ((execute setting forms).run s) := by
  have hall : ∀ form ∈ forms, (sound setting locked).Form form := fun _ _ => trivial
  have hself : forms.map (Node.rename (sound setting locked).rename) = forms :=
    Node.map_rename_id forms
  have hmeets := (sound setting locked).execute hall hw n s s ⟨h, s.log, rfl⟩
  rw [hself] at hmeets
  generalize (execute setting forms).run s = r at hmeets ⊢
  cases hmeets with
  | value => exact .value trivial
  | fault _ _ hl => exact .fault hl.1

/-! ## 5. Reading -/

/-- A text has no tokens only if a numeral in it is too long. -/
theorem textTooLong_of_ofText {text : String} {fault : HostFault}
    (h : Token.ofText text = .error fault) :
    ∃ digits, fault = .textTooLong digits ∧ digitLimit < digits := by
  obtain ⟨_, fragment, _, -, ⟨-, hlong⟩, -, rfl⟩ := Token.ofText_eq_error_iff.mp h
  exact ⟨fragment.length, rfl, hlong⟩

/-! ## 6. Runs -/

/-- How a run can fail: at a numeral that is too long to be read, at parentheses that do not
balance, in the state it started from either time, or as an evaluation can. -/
inductive Fails (locked : List Account) (start : State) : Fault → State → Prop
  | textTooLong {digits : Nat} (h : digitLimit < digits) :
    Fails locked start (.host (.textTooLong digits)) start
  | unbalanced {error : ScriptError} (h : error.kind = .unbalancedParens) :
    Fails locked start (.script error) start
  | evaluating {fault : Fault} {s : State} (h : Listed locked fault) : Fails locked start fault s

/-- A run starts in a sound state. -/
theorem sound_initial {ledger : Ledger} (hs : ledger.Solvent) {bindings : Table String Value}
    (hf : ClosureFree bindings) (listener : Bool) :
    Sound setting ledger.locked 0 (.initial ledger bindings listener) := by
  have htree := tree_initial ledger bindings listener
  exact ⟨rfl, ArenaDiscipline.holds_initial (A := growing setting) hf htree, hs, rfl⟩

/-- **The faults of a run** from a sound state. -/
theorem runScript_fails (h : Sound setting locked n s) (script : String) :
    Ends (fun _ _ => True) (Fails locked s) ((runScript setting script).run s) := by
  unfold runScript readScript
  refine Ends.bind (B := Fails locked s) (P := fun forms t =>
    Sound setting locked n t ∧ ∀ form ∈ forms, form.WellFormed) ?_ ?_ fun _ _ hb => hb
  · refine Ends.bind (P := fun _ t => t = s) (B := Fails locked s)
      (ends_ofHost (fun _ _ => rfl) fun fault hfault => ?_) ?_ fun _ _ hb => hb
    · obtain ⟨digits, rfl, hlong⟩ := textTooLong_of_ofText hfault
      exact .textTooLong hlong
    · rintro tokens _ htokens rfl
      obtain ⟨htokens, -⟩ := of_run_ofHost htokens
      split
      · next error herror => exact .fault (.unbalanced (Node.ofTokens_eq_error_iff.mp herror).kind)
      · next forms hforms =>
        exact .value ⟨h.congr rfl rfl, Node.wellFormed_of_ofTokens htokens hforms⟩
  · rintro forms t - ⟨ht, hwell⟩
    have hw : ∀ form ∈ forms, form.isWritable = true :=
      fun form hmem => (hwell form hmem).isWritable
    exact (execute_listed ht hw).mono (fun _ _ _ => trivial) fun _ _ hl => .evaluating hl

/-- The kinds of the errors that end runs. -/
def runKinds : List ErrorKind :=
  [.unbalancedParens, .unboundVariable, .invalidOperand, .malformedLambda, .insufficientBalance,
    .divisionByZero, .capabilityDenied, .arityMismatch, .unknownForm, .resourceExhausted]

theorem kind_mem_runKinds (error : ScriptError) : error.kind ∈ runKinds := by
  cases error <;> simp [ScriptError.kind, runKinds]

/-- **How a run ends** that starts on a solvent ledger, with bindings without closures. -/
theorem run_fails (setting : Setting) (script : String) {ledger : Ledger} (hs : ledger.Solvent)
    {bindings : Table String Value} (hf : ClosureFree bindings) (listener : Bool) :
    Ends (fun _ _ => True) (Fails ledger.locked (.initial ledger bindings listener))
      (run setting script ledger bindings listener) :=
  runScript_fails (sound_initial hs hf listener) script

/-! ## 7. Reports -/

/-- What the host refuses. -/
theorem Fails.host {locked : List Account} {start s : State} {fault : HostFault}
    (h : Fails locked start (.host fault) s) :
    (∃ digits, fault = .textTooLong digits ∧ digitLimit < digits) ∨ fault = .integerTooLong ∨
      ∃ account ∈ locked, fault = .locked account.address := by
  cases h with
  | textTooLong hlong => exact .inl ⟨_, rfl, hlong⟩
  | evaluating hl =>
    cases hl with
    | tooLong => exact .inr (.inl rfl)
    | locked hmem => exact .inr (.inr ⟨_, hmem, rfl⟩)

/-- What the report of a failure says. -/
theorem Fails.report {locked : List Account} {start s : State} {error : ScriptError}
    (h : Fails locked start (.script error) s) (lists : Bool) :
    let report := reportOf setting lists (.error error) s
    (∃ kind ∈ runKinds, report.errorKind? = some kind) ∧ report.results = [] ∧
      report.errors.length = 1 ∧
      (report.errorKind? = some .unbalancedParens →
        report.steps = start.steps ∧ report.output = start.output ∧ s.ledger = start.ledger) := by
  refine ⟨⟨error.kind, kind_mem_runKinds error, rfl⟩, rfl, rfl, fun hkind => ?_⟩
  have hkind : error.kind = .unbalancedParens := Option.some.inj hkind
  cases h with
  | unbalanced => exact ⟨rfl, rfl, rfl⟩
  | evaluating hl =>
    cases hl with
    | script hne => exact absurd hkind hne

/-- **The taxonomy of failures.**  Let a script be interpreted on a ledger that was built from
pairs, with some accounts locked or none, and with bindings without closures.  If the host refuses,
then a numeral of the script is too long to be read, or an integer too long to be written, or an
account was to be changed that is locked.  If a failure is reported, its kind is one of ten, it has
one message and no results; and if the kind is that of unbalanced parentheses, no step was counted,
no line was written, and the ledger is as it was. -/
theorem interpret_fails (setting : Setting) (script : String) {balances : Table String Int}
    {ledger : Ledger} (h : Ledger.ofPairs balances = .ok ledger) (locked : List Account)
    {bindings : Table String Value} (hf : ClosureFree bindings) (lists : Bool) :
    let r := interpret setting script (ledger.lock locked) bindings lists
    (∀ fault, r.1 = .error fault → (∃ digits, fault = .textTooLong digits ∧ digitLimit < digits) ∨
      fault = .integerTooLong ∨ ∃ account ∈ locked, fault = .locked account.address) ∧
    ∀ report, r.1 = .ok report → report.success = false →
      (∃ kind ∈ runKinds, report.errorKind? = some kind) ∧ report.results = [] ∧
      report.errors.length = 1 ∧
      (report.errorKind? = some .unbalancedParens →
        report.steps = 0 ∧ report.output = [] ∧ r.2.ledger = ledger.lock locked) := by
  intro r
  have hends := run_fails setting script ((Ledger.solvent_of_ofPairs h).lock locked) hf false
  have hr : r = interpret setting script (ledger.lock locked) bindings lists := rfl
  clear_value r
  unfold interpret at hr
  generalize run setting script (ledger.lock locked) bindings false = ended at hends hr
  cases hends with
  | value =>
    subst hr
    exact ⟨nofun, fun report hreport hfail => by cases hreport; cases hfail⟩
  | @fault fault s hfails =>
    cases fault with
    | host fault =>
      subst hr
      refine ⟨fun _ hfault => ?_, nofun⟩
      cases hfault
      exact hfails.host
    | script error =>
      subst hr
      refine ⟨nofun, fun report hreport _ => ?_⟩
      cases hreport
      exact hfails.report lists
    | tooDeep =>
      -- The depth fault is reported as a script error like any other of an evaluation.
      have hdeep : Fails locked (.initial (ledger.lock locked) bindings false)
          (.script .depthLimit) s := .evaluating (.script nofun)
      subst hr
      refine ⟨nofun, fun report hreport _ => ?_⟩
      cases hreport
      exact hdeep.report lists

/-- What the bank and the vault hold. -/
def vaultBalances : Table String Int := [("bank", 5), ("vault", 1)]

/-- The ledger with these balances. -/
def vaultLedger : Ledger := { entries := [(⟨"bank"⟩, 5), (⟨"vault"⟩, 1)] }

-- Irreducible, so that statements about these runs do not run the script again.
/-- A script interpreted while the vault is locked. -/
@[irreducible]
def deposit (script : String) : Except HostFault Report × State :=
  interpret bank script (vaultLedger.lock [⟨"vault"⟩]) [("vault", .account ⟨"vault"⟩)] true

/-- The locked vault refuses a payment.  A script with a parenthesis too many pays nothing. -/
theorem interpret_fails_vault :
    Ledger.ofPairs vaultBalances = .ok vaultLedger ∧
    (∃ fault, (deposit "($transfer 1 vault)").1 = .error fault ∧
      ∃ account : Account, account ∈ [⟨"vault"⟩] ∧ fault = .locked account.address) ∧
    ∃ report, (deposit "($transfer 1 $me))").1 = .ok report ∧
      report.errorKind? = some .unbalancedParens ∧ report.results = [] ∧
      report.errors.length = 1 ∧ report.steps = 0 ∧ report.output = [] ∧
      (deposit "($transfer 1 $me))").2.ledger = vaultLedger.lock [⟨"vault"⟩] := by
  have hledger : Ledger.ofPairs vaultBalances = .ok vaultLedger := rfl
  have hf : ClosureFree [("vault", .account ⟨"vault"⟩)] := closureFree_account _ _
  have hfails (script : String) := interpret_fails bank script hledger [⟨"vault"⟩] hf true
  have hunfold (script : String) : interpret bank script (vaultLedger.lock [⟨"vault"⟩])
      [("vault", .account ⟨"vault"⟩)] true = deposit script := by
    unfold deposit
    rfl
  simp only [hunfold] at hfails
  have hlocked : (deposit "($transfer 1 vault)").1.map Report.errorKind? =
      .error (.locked "vault") := by decide +kernel
  have hunbalanced : (deposit "($transfer 1 $me))").1.map Report.errorKind? =
      .ok (some .unbalancedParens) := by decide +kernel
  refine ⟨hledger, ?_, ?_⟩
  · cases hr : (deposit "($transfer 1 vault)").1 with
    | ok report => rw [hr] at hlocked; cases hlocked
    | error fault =>
      rw [hr] at hlocked
      cases hlocked
      rcases (hfails "($transfer 1 vault)").1 _ hr with ⟨_, h, -⟩ | h | h
      · cases h
      · cases h
      · exact ⟨_, rfl, h⟩
  · cases hr : (deposit "($transfer 1 $me))").1 with
    | error fault => rw [hr] at hunbalanced; cases hunbalanced
    | ok report =>
      rw [hr] at hunbalanced
      have hkind : report.errorKind? = some .unbalancedParens := Except.ok.inj hunbalanced
      have hfail : report.success = false := by
        unfold Report.errorKind? Report.error? at hkind
        unfold Report.success
        cases hoc : report.outcome with
        | error => rfl
        | ok => rw [hoc] at hkind; cases hkind
      obtain ⟨-, hresults, herrors, hstill⟩ :=
        (hfails "($transfer 1 $me))").2 report hr hfail
      exact ⟨report, rfl, hkind, hresults, herrors, hstill hkind⟩

end Run

end LedgerScript
