/-
# How computations end

A computation on the state of a run ends in a value or in a fault, and leaves a state either way.
`Ends P B` says what holds of the end: `P` of a value and its state, `B` of a fault and its state.
A fault keeps what was done before it, so nothing is known after a computation unless both are.

`Ends.bind` puts computations together, and section 2 has one equation for each of the operations
that the evaluation of forms is made of.  A `trial` is a run on given inputs.
-/
import LedgerScript.Run.Execution

namespace LedgerScript.Run

open Eval

variable {α β : Type}

/-! ## 1. Ends -/

/-- The state that a computation leaves, whatever it came to. -/
def stateOf : EStateM.Result Fault State α → State
  | .ok _ s => s
  | .error _ s => s

/-- What a computation came to, its state aside. -/
def answerOf : EStateM.Result Fault State α → Except Fault α
  | .ok a _ => .ok a
  | .error fault _ => .error fault

/-- What holds of the end of a computation. -/
inductive Ends (P : α → State → Prop) (B : Fault → State → Prop) :
    EStateM.Result Fault State α → Prop
  | value {a : α} {s : State} (h : P a s) : Ends P B (.ok a s)
  | fault {f : Fault} {s : State} (h : B f s) : Ends P B (.error f s)

theorem Ends.mono {P P' : α → State → Prop} {B B' : Fault → State → Prop}
    {r : EStateM.Result Fault State α} (h : Ends P B r) (hok : ∀ a s, P a s → P' a s)
    (hbad : ∀ f s, B f s → B' f s) : Ends P' B' r := by
  cases h with
  | value h => exact .value (hok _ _ h)
  | fault h => exact .fault (hbad _ _ h)

/-- A computation that returns ends as `P` says. -/
theorem Ends.of_ok {P : α → State → Prop} {B : Fault → State → Prop}
    {r : EStateM.Result Fault State α} {a : α} {s : State} (h : Ends P B r)
    (hr : r = .ok a s) : P a s := by
  subst hr
  cases h with
  | value h => exact h

/-- A computation that faults ends as `B` says. -/
theorem Ends.of_error {P : α → State → Prop} {B : Fault → State → Prop}
    {r : EStateM.Result Fault State α} {f : Fault} {s : State} (h : Ends P B r)
    (hr : r = .error f s) : B f s := by
  subst hr
  cases h with
  | fault h => exact h

/-- What holds at either end holds of the state that is left. -/
theorem Ends.state {P : State → Prop} {r : EStateM.Result Fault State α}
    (h : Ends (fun _ s => P s) (fun _ s => P s) r) : P (stateOf r) := by
  cases h with
  | value h => exact h
  | fault h => exact h

/-- One computation after another: a fault of the first ends both. -/
theorem Ends.bind {P : α → State → Prop} {P' : β → State → Prop}
    {B B' : Fault → State → Prop} {m : Eval α} {f : α → Eval β} {s : State}
    (hm : Ends P B (m.run s))
    (hf : ∀ a t, m.run s = .ok a t → P a t → Ends P' B' ((f a).run t))
    (hbad : ∀ e t, B e t → B' e t) : Ends P' B' ((m >>= f).run s) := by
  rw [EStateM.run_bind]
  cases hr : m.run s with
  | ok a t => exact hf a t hr (hm.of_ok hr)
  | error e t => exact .fault (hbad e t (hm.of_error hr))

/-- What is done on a condition, before what is done in any case. -/
theorem ite_bind_eq {c : Prop} [Decidable c] (m : Eval Unit) (k : Unit → Eval α) :
    (if c then m >>= k else k ()) = (if c then m else pure ()) >>= k := by
  split
  · rfl
  · rfl

/-- One computation after another, both of which return. -/
theorem run_bind_ok {m : Eval α} {f : α → Eval β} {s t : State} {a : α}
    (h : m.run s = .ok a t) : (m >>= f).run s = (f a).run t := by
  rw [EStateM.run_bind, h]

/-- Two computations that return, one after another, have both returned. -/
theorem of_run_bind_ok {m : Eval α} {f : α → Eval β} {s u : State} {b : β}
    (h : (m >>= f).run s = .ok b u) :
    ∃ a t, m.run s = .ok a t ∧ (f a).run t = .ok b u := by
  rw [EStateM.run_bind] at h
  cases hm : m.run s with
  | ok a t => rw [hm] at h; exact ⟨a, t, rfl, h⟩
  | error fault t => rw [hm] at h; cases h

/-- A fault of the first computation ends both. -/
theorem run_bind_error {m : Eval α} {f : α → Eval β} {s t : State} {fault : Fault}
    (h : m.run s = .error fault t) : (m >>= f).run s = .error fault t := by
  rw [EStateM.run_bind, h]

/-! ## 2. The operations -/

section Operations

variable {P : α → State → Prop} {B : Fault → State → Prop} {s : State}

/-- An operation of the host leaves the state alone. -/
theorem run_ofHost (x : Except HostFault α) (s : State) :
    (ofHost x).run s = match x with
      | .ok a => .ok a s
      | .error fault => .error (.host fault) s := by
  cases x <;> rfl

theorem ends_ofHost {x : Except HostFault α} (hok : ∀ a, x = .ok a → P a s)
    (hbad : ∀ fault, x = .error fault → B (.host fault) s) :
    Ends P B ((ofHost x).run s) := by
  rw [run_ofHost]
  cases x with
  | ok a => exact .value (hok a rfl)
  | error fault => exact .fault (hbad fault rfl)

/-- An operation of the host that returns. -/
theorem of_run_ofHost {x : Except HostFault α} {s t : State} {a : α}
    (h : (ofHost x).run s = .ok a t) : x = .ok a ∧ t = s := by
  rw [run_ofHost] at h
  cases x with
  | ok b => cases h; exact ⟨rfl, rfl⟩
  | error fault => cases h

/-- The step is counted before the limit is looked at. -/
theorem run_countStep (limit : Option Int) (s : State) :
    (countStep limit).run s =
      match limit with
      | none => .ok () { s with steps := s.steps + 1 }
      | some most =>
        if most < (s.steps + 1 : Nat) then
          .error (.ofFailure (.telling .stepLimit (Text.writeInteger most)))
            { s with steps := s.steps + 1 }
        else .ok () { s with steps := s.steps + 1 } := by
  cases limit with
  | none => rfl
  | some most =>
    simp only [countStep, EStateM.run_bind, EStateM.run_modify, EStateM.run_get]
    split <;> rfl

/-- A step that may be made is counted, and nothing else is changed. -/
theorem of_run_countStep {limit : Option Int} {s t : State}
    (h : (countStep limit).run s = .ok () t) : t = { s with steps := s.steps + 1 } := by
  rw [run_countStep] at h
  cases limit with
  | none => cases h; rfl
  | some most =>
    dsimp only at h
    split at h
    · cases h
    · cases h; rfl

theorem run_writeLine (line : String) (s : State) :
    (writeLine line).run s =
      .ok () { s with output := s.output ++ [line], sink := s.sink.map (· ++ [line]) } := rfl

theorem run_log (record : Record) (s : State) :
    (log record).run s = .ok () { s with log := s.log ++ [record] } := rfl

theorem run_newScope (parent : Option ScopeId) (s : State) :
    (newScope parent).run s =
      .ok (s.arena.newScope parent).1 { s with arena := (s.arena.newScope parent).2 } := rfl

/-- A change that the arena refuses changes nothing. -/
theorem run_changeArena (change : Arena → Except HostFault Arena) (s : State) :
    (changeArena change).run s = match change s.arena with
      | .ok arena => .ok () { s with arena }
      | .error fault => .error (.host fault) s := by
  simp only [changeArena, EStateM.run_bind, EStateM.run_get, run_ofHost]
  cases change s.arena <;> rfl

theorem run_lookup? (scope : Option ScopeId) (name : String) (s : State) :
    (lookup? scope name).run s = (ofHost (s.arena.lookup scope name)).run s := rfl

theorem run_permitted (scope : ScopeId) (s : State) :
    (permitted scope).run s = (ofHost (s.arena.permitted scope)).run s := rfl

theorem run_balance (account : Account) (s : State) :
    (balance account).run s = .ok (s.ledger.balance account) s := rfl

/-- A balance that the ledger refuses changes nothing. -/
theorem run_setBalance (account : Account) (amount : Int) (s : State) :
    (setBalance account amount).run s = match s.ledger.setBalance account amount with
      | .ok ledger => .ok () { s with ledger }
      | .error fault => .error (.host fault) s := by
  simp only [setBalance, EStateM.run_bind, EStateM.run_get, run_ofHost]
  cases s.ledger.setBalance account amount <;> rfl

/-- A fault is handled in the state that it left. -/
theorem run_tryCatch (m : Eval α) (handle : Fault → Eval α) (s : State) :
    (tryCatch m handle).run s = match m.run s with
      | .ok a t => .ok a t
      | .error fault t => (handle fault).run t := by
  show (EStateM.tryCatch m handle).run s = _
  unfold EStateM.tryCatch EStateM.run
  dsimp only
  cases m s <;> rfl

/-- Reporting the depth fault changes what a computation came to and not what it left. -/
theorem run_reportDepth (m : Eval α) (s : State) :
    (reportDepth m).run s = match m.run s with
      | .error .tooDeep t => .error (.script .depthLimit) t
      | r => r := by
  rw [reportDepth, run_tryCatch]
  cases m.run s with
  | ok a t => rfl
  | error fault t => cases fault <;> rfl

/-- What is told by the host is logged, and nothing else is done. -/
theorem run_ofHost_log (x : Except HostFault Record) (s : State) :
    (ofHost x >>= log).run s = match x with
      | .ok record => .ok () { s with log := s.log ++ [record] }
      | .error fault => .error (.host fault) s := by
  cases x <;> rfl

theorem run_logScopes (s : State) :
    logScopes.run s = (ofHost (s.arena.snapshot.map .scopes) >>= log).run s := by
  simp only [logScopes, EStateM.run_bind, EStateM.run_get, run_ofHost]
  cases s.arena.snapshot <;> rfl

theorem stateOf_reportDepth (m : Eval α) (s : State) :
    stateOf ((reportDepth m).run s) = stateOf (m.run s) := by
  rw [run_reportDepth]
  cases m.run s with
  | ok a t => rfl
  | error fault t => cases fault <;> rfl

/-- What holds of the state at every fault holds of it when the depth fault is reported. -/
theorem Ends.reportDepth {B : State → Prop} {m : Eval α}
    (h : Ends P (fun _ t => B t) (m.run s)) :
    Ends P (fun _ t => B t) ((Run.reportDepth m).run s) := by
  rw [run_reportDepth]
  generalize m.run s = r at h ⊢
  cases h with
  | value h => exact .value h
  | @fault fault t h => cases fault <;> exact .fault h

end Operations

/-! ## 3. Runs on given inputs -/

/-- A bank, with the usual knobs. -/
def bank : Setting := { me := ⟨"bank"⟩, config := { maxDepth := 500 } }

-- Irreducible, so that a statement about a trial does not run its script again.
/-- The run of a script that is given, for facts about that run. -/
@[irreducible]
def trial (setting : Setting) (script : String) (ledger : Ledger)
    (bindings : Table String Value) : EStateM.Result Fault State (List Value) :=
  run setting script ledger bindings false

theorem run_eq_trial (setting : Setting) (script : String) (ledger : Ledger)
    (bindings : Table String Value) :
    run setting script ledger bindings false = trial setting script ledger bindings := by
  rw [trial]

end LedgerScript.Run
