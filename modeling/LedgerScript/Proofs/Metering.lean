/-
# What a run makes is paid by its steps

Every scope, every line and every new account of a run takes a step.  This is not so form by form:
a transfer counts one step and may bring in two accounts, and a call needs its one step for the
scope of the body.  What makes up for it is that a transfer has evaluated two operands, one to an
integer and one to an account, and whatever comes to such a value has a step to spare.

So computations are read as transactions: `Costs c k m` says that `m`, given `c` steps in advance,
pays for all it makes and leaves `k a` of them with its value `a`.  Counting a step costs nothing
and leaves one; a scope, a line and a write to the ledger cost one each; and an evaluation costs
nothing and leaves what its value has to spare (`costs_evaluate`).

The step that goes over a limit pays for nothing, because nothing comes after it.  `State.paid`
therefore counts steps up to the limit only, and one statement gives both bounds: by the steps
that are counted, and by the limit.
-/
import LedgerScript.Proofs.Progress

namespace LedgerScript.Run

open Eval

variable {α β : Type} {limit : Option Int} {c c' : Nat} {k : α → Nat} {k' : β → Nat}

/-! ## 1. Paying -/

/-- How much there is in a state of what a run makes. -/
def State.made (s : State) : Nat :=
  s.arena.scopes.size + s.output.length + s.ledger.accounts.length

/-- The steps that are counted, up to the limit. -/
def State.paid (limit : Option Int) (s : State) : Nat :=
  match limit with
  | none => s.steps
  | some most => min s.steps most.toNat

/-- From `s` with `c` steps in advance to `t` with `d` steps left: what is made is paid for. -/
def Pays (limit : Option Int) (c d : Nat) (s t : State) : Prop :=
  t.made + d + s.paid limit ≤ s.made + c + t.paid limit

/-- With `c` steps in advance a computation pays for all it makes, and leaves `k a` of them with
its value `a`. -/
def Costs (limit : Option Int) (c : Nat) (k : α → Nat) (m : Eval α) : Prop :=
  ∀ s, Ends (fun a t => Pays limit c (k a) s t) (fun _ t => Pays limit c 0 s t) (m.run s)

theorem Pays.trans {d e : Nat} {s t u : State} (h : Pays limit c d s t)
    (h' : Pays limit d e t u) : Pays limit c e s u := by
  unfold Pays at *
  omega

/-- What leaves the state alone pays with what it has. -/
theorem pays_refl {d : Nat} (h : d ≤ c) (s : State) : Pays limit c d s s := by
  unfold Pays
  omega

/-- What makes nothing costs nothing. -/
theorem pays_of_made_eq {s t : State} (hm : t.made = s.made) (hs : t.steps = s.steps) :
    Pays limit c c s t := by
  have hpaid : t.paid limit = s.paid limit := by
    unfold State.paid
    rw [hs]
  unfold Pays
  omega

theorem costs_pure {a : α} (h : k a ≤ c) : Costs limit c k (pure a : Eval α) :=
  fun s => .value (pays_refl h s)

theorem costs_throw (fault : Fault) : Costs limit c k (throw fault : Eval α) :=
  fun s => .fault (pays_refl (Nat.zero_le c) s)

theorem costs_fail (error : ScriptError) : Costs limit c k (fail error : Eval α) :=
  costs_throw _

theorem costs_ofHost {x : Except HostFault α} (h : ∀ a, k a ≤ c) :
    Costs limit c k (ofHost x) := by
  cases x with
  | ok a => exact costs_pure (h a)
  | error fault => exact costs_throw _

/-- One computation after another, with what the first one leaves. -/
theorem Costs.bind {m : Eval α} {f : α → Eval β} (hm : Costs limit c k m)
    (hf : ∀ a, Costs limit (k a) k' (f a)) : Costs limit c k' (m >>= f) := by
  intro s
  refine Ends.bind (hm s) ?_ fun _ _ h => h
  intro a t _ h
  exact Ends.mono (hf a t) (fun _ _ h' => h.trans h') fun _ _ h' => h.trans h'

/-- What is not needed is left. -/
theorem Costs.more {m : Eval α} (hm : Costs limit c k m) (d : Nat) :
    Costs limit (c + d) (fun a => k a + d) m := by
  intro s
  refine Ends.mono (hm s) ?_ ?_
  · intro a t h
    unfold Pays at *
    dsimp only
    omega
  · intro _ t h
    unfold Pays at *
    omega

/-- What is given beyond the cost is no trouble. -/
theorem Costs.given {m : Eval α} (hm : Costs limit c k m) (h : c ≤ c') : Costs limit c' k m := by
  intro s
  refine Ends.mono (hm s) ?_ ?_
  · intro a t hp
    unfold Pays at *
    omega
  · intro _ t hp
    unfold Pays at *
    omega

theorem Costs.leaving {m : Eval α} {l : α → Nat} (hm : Costs limit c k m) (h : ∀ a, l a ≤ k a) :
    Costs limit c l m := by
  intro s
  refine Ends.mono (hm s) ?_ fun _ _ h => h
  intro a t hp
  have hle := h a
  unfold Pays at *
  omega

theorem costs_ite {p : Prop} [Decidable p] {m n : Eval α} (hm : p → Costs limit c k m)
    (hn : ¬ p → Costs limit c k n) : Costs limit c k (if p then m else n) := by
  split
  · next h => exact hm h
  · next h => exact hn h

/-- A check before what is done in any case. -/
theorem costs_check {p : Prop} [Decidable p] {m : Eval Unit} {f : Unit → Eval α}
    (hm : p → Costs limit c (fun _ => c) m) (hf : Costs limit c k (f ())) :
    Costs limit c k (if p then m >>= f else f ()) :=
  costs_ite (fun h => (hm h).bind fun _ => hf) fun _ => hf

/-- Computations over a list that leave what they are given. -/
theorem costs_mapM {ι : Type} {f : ι → Eval α} (hf : ∀ x, Costs limit c (fun _ => c) (f x)) :
    ∀ xs : List ι, Costs limit c (fun _ => c) (xs.mapM f)
  | [] => costs_pure (Nat.le_refl c)
  | x :: rest => by
    rw [List.mapM_cons]
    refine (hf x).bind fun a => ?_
    refine (costs_mapM hf rest).bind fun as => ?_
    exact costs_pure (Nat.le_refl c)

theorem costs_failTelling (error : String → ScriptError) (text : Except HostFault String) :
    Costs limit c k (failTelling error text : Eval α) := costs_throw _

theorem costs_ofOutcome {x : Except Failure α} (h : ∀ a, k a ≤ c) :
    Costs limit c k (ofOutcome x) := by
  cases x with
  | ok a => exact costs_pure (h a)
  | error failure => exact costs_throw _

/-- A fault that brought in nothing leaves what was given for handling it. -/
theorem costs_tryCatch {m : Eval α} {handle : Fault → Eval α}
    (hm : ∀ s, Ends (fun a t => Pays limit c (k a) s t) (fun _ t => t = s) (m.run s))
    (hh : ∀ fault, Costs limit c k (handle fault)) : Costs limit c k (tryCatch m handle) := by
  intro s
  have h := hm s
  rw [run_tryCatch]
  generalize m.run s = r at h ⊢
  cases h with
  | value h => exact .value h
  | fault h => exact h ▸ hh _ _

/-- Reporting the depth fault costs nothing. -/
theorem costs_reportDepth {m : Eval α} (hm : Costs limit c k m) :
    Costs limit c k (reportDepth m) :=
  fun s => (hm s).reportDepth

/-! ## 2. The operations -/

/-- A step that is counted within the limit can be spent. -/
theorem costs_countStep (limit : Option Int) : Costs limit 0 (fun _ => 1) (countStep limit) := by
  intro s
  rw [run_countStep]
  cases limit with
  | none =>
    refine .value ?_
    simp only [Pays, State.paid, State.made]
    omega
  | some most =>
    dsimp only
    split
    · refine .fault ?_
      simp only [Pays, State.paid, State.made]
      omega
    · refine .value ?_
      simp only [Pays, State.paid, State.made]
      omega

theorem costs_writeLine (line : String) :
    Costs limit (c + 1) (fun _ => c) (writeLine line) := by
  intro s
  rw [run_writeLine]
  refine .value ?_
  have hpaid : State.paid limit
      { s with output := s.output ++ [line], sink := s.sink.map (· ++ [line]) } =
        s.paid limit := rfl
  simp only [Pays, State.made, hpaid, List.length_append, List.length_singleton]
  omega

theorem costs_log (record : Record) : Costs limit c (fun _ => c) (Eval.log record) :=
  fun _ => .value (pays_of_made_eq rfl rfl)

theorem costs_newScope (parent : Option ScopeId) :
    Costs limit (c + 1) (fun _ => c) (newScope parent) := by
  intro s
  rw [run_newScope]
  refine .value ?_
  have hpaid : State.paid limit { s with arena := (s.arena.newScope parent).2 } =
      s.paid limit := rfl
  simp only [Pays, State.made, hpaid, Arena.size_newScope]
  omega

/-- What changes a scope makes none. -/
theorem costs_changeArena {change : Arena → Except HostFault Arena}
    (h : ∀ a b, change a = .ok b → b.scopes.size = a.scopes.size) :
    Costs limit c (fun _ => c) (changeArena change) := by
  intro s
  rw [run_changeArena]
  cases hc : change s.arena with
  | error fault => exact .fault (pays_refl (Nat.zero_le c) s)
  | ok arena =>
    refine .value (pays_of_made_eq ?_ rfl)
    simp only [State.made, h _ _ hc]

theorem costs_define (scope : ScopeId) (name : String) (v : Value) :
    Costs limit c (fun _ => c) (define scope name v) :=
  costs_changeArena fun _ _ h => Arena.size_modify h

theorem costs_permit (scope : ScopeId) (name : String) :
    Costs limit c (fun _ => c) (permit scope name) :=
  costs_changeArena fun _ _ h => Arena.size_modify h

theorem costs_lookup? (scope : Option ScopeId) (name : String) :
    Costs limit c (fun _ => c) (lookup? scope name) :=
  fun s => costs_ofHost (fun _ => Nat.le_refl c) s

theorem costs_permitted (scope : ScopeId) : Costs limit c (fun _ => c) (permitted scope) :=
  fun s => costs_ofHost (fun _ => Nat.le_refl c) s

theorem costs_balance (account : Account) : Costs limit c (fun _ => c) (balance account) :=
  fun s => .value (pays_refl (Nat.le_refl c) s)

/-- A write to the ledger brings in one account at most, and none if it is refused. -/
theorem pays_setBalance (account : Account) (amount : Int) (s : State) :
    Ends (fun _ t => Pays limit (c + 1) c s t) (fun _ t => t = s)
      ((setBalance account amount).run s) := by
  rw [run_setBalance]
  cases h : s.ledger.setBalance account amount with
  | error fault => exact .fault rfl
  | ok ledger =>
    refine .value ?_
    have hpaid : State.paid limit { s with ledger } = s.paid limit := rfl
    have hlength : ledger.accounts.length ≤ s.ledger.accounts.length + 1 := by
      rw [Ledger.accounts_setBalance h]
      split <;> simp
    simp only [Pays, State.made, hpaid]
    omega

theorem costs_setBalance (account : Account) (amount : Int) :
    Costs limit (c + 1) (fun _ => c) (setBalance account amount) := by
  intro s
  refine Ends.mono (pays_setBalance account amount s) (fun _ _ h => h) ?_
  rintro _ t rfl
  exact pays_refl (Nat.zero_le _) t

/-! ## 3. The rules -/

/-- What a value has to spare. -/
def spare : Value → Nat
  | .integer _ => 1
  | .account _ => 1
  | _ => 0

theorem spare_le (v : Value) : spare v ≤ 1 := by cases v <;> simp [spare]

section Rules

variable {setting : Setting} {recur : Node → ScopeId → Eval Value} {scope : ScopeId}

/-- Evaluating the forms inside costs nothing and leaves what their values have to spare. -/
def Metered (limit : Option Int) (recur : Node → ScopeId → Eval Value) : Prop :=
  ∀ form scope, Costs limit 0 spare (recur form scope)

/-- An evaluation with steps in advance leaves them. -/
theorem Metered.leaves (hrec : Metered limit recur) (form : Node) (scope : ScopeId) (c : Nat) :
    Costs limit c (fun v => spare v + c) (recur form scope) := by
  have h := (hrec form scope).more c
  rwa [Nat.zero_add] at h

theorem costs_evalBalance (operands : List Node) :
    Costs limit 1 spare (evalBalance setting operands) := by
  unfold evalBalance
  split
  · refine costs_ite (fun _ => ?_) fun _ => costs_fail _
    exact (costs_balance _).bind fun _ => costs_pure (spare_le _)
  · exact costs_fail _

/-- Only an integer passes for an amount, and it has a step to spare. -/
theorem costs_amountOf (v : Value) : Costs limit (spare v + c) (fun _ => 1 + c) (amountOf v) := by
  unfold amountOf
  split
  · exact costs_ite (fun _ => costs_pure (Nat.le_refl _)) fun _ => costs_failTelling _ _
  · exact costs_failTelling _ _

/-- Only an account passes for a destination, and it has a step to spare. -/
theorem costs_destinationOf (v : Value) :
    Costs limit (spare v + c) (fun _ => 1 + c) (destinationOf v) := by
  unfold destinationOf
  split
  · exact costs_pure (Nat.le_refl _)
  · exact costs_failTelling _ _

theorem costs_logTransfer (amount : Int) (destination : Account) :
    Costs limit c (fun _ => c) (logTransfer setting amount destination) := by
  unfold logTransfer
  refine costs_check (fun _ => ?_) (costs_log _)
  cases Text.writeInteger amount with
  | ok shown => exact costs_pure (Nat.le_refl c)
  | error fault => exact costs_throw _

/-- A transfer writes to two accounts.  A credit that is refused brings in none, so its step is
there for restoring the debit. -/
theorem costs_moveFunds (amount : Int) (destination : Account) :
    Costs limit (c + 2) (fun _ => c) (moveFunds setting amount destination) := by
  unfold moveFunds
  refine (costs_balance _).bind fun held => ?_
  refine costs_ite (fun _ => ?_) fun _ => ?_
  · refine Costs.bind (k := fun _ => c + 2) (costs_ofHost fun _ => Nat.le_refl _) fun _ => ?_
    refine Costs.bind (k := fun _ => c + 2) (costs_ofHost fun _ => Nat.le_refl _) fun _ => ?_
    exact costs_throw _
  refine (costs_setBalance setting.me (held - amount)).bind fun _ => ?_
  refine Costs.bind (k := fun _ => c) ?_ fun _ => costs_logTransfer amount destination
  refine costs_tryCatch (fun s => ?_) fun fault => ?_
  · exact pays_setBalance destination (s.ledger.balance destination + amount) s
  · exact (costs_setBalance setting.me held).bind fun _ => costs_throw fault

theorem costs_evalTransfer (hrec : Metered limit recur) (operands : List Node) :
    Costs limit 1 spare (evalTransfer setting recur scope operands) := by
  unfold evalTransfer
  split
  · next amountForm destinationForm =>
    refine (hrec.leaves amountForm scope 1).bind fun v => ?_
    refine (hrec.leaves destinationForm scope (spare v + 1)).bind fun v' => ?_
    have hamount : Costs limit (spare v' + (spare v + 1)) (fun _ => 1 + (spare v' + 1))
        (amountOf v) := (costs_amountOf v).given (by omega)
    refine hamount.bind fun amount => ?_
    have hdestination : Costs limit (1 + (spare v' + 1)) (fun _ => 1 + 2) (destinationOf v') :=
      (costs_destinationOf v').given (by omega)
    refine hdestination.bind fun destination => ?_
    refine (costs_moveFunds amount destination).bind fun _ => ?_
    exact costs_pure (Nat.zero_le _)
  · exact costs_fail _

theorem costs_permitNames : ∀ names : List Node,
    Costs limit c (fun _ => c) (permitNames scope names)
  | [] => costs_pure (Nat.le_refl c)
  | .ident name :: rest => (costs_permit scope name).bind fun _ => costs_permitNames rest
  | .number _ :: _ => costs_failTelling _ _
  | .operator _ :: _ => costs_failTelling _ _
  | .list _ :: _ => costs_failTelling _ _

theorem costs_evalProvide (operands : List Node) :
    Costs limit 1 spare (evalProvide scope operands) := by
  unfold evalProvide
  refine (costs_permitNames operands).bind fun _ => ?_
  refine (costs_permitted scope).bind fun names => ?_
  refine (costs_log _).bind fun _ => ?_
  exact costs_pure (Nat.zero_le _)

theorem costs_evalDefine (hrec : Metered limit recur) (operands : List Node) :
    Costs limit 1 spare (evalDefine recur scope operands) := by
  unfold evalDefine
  split
  · next name form =>
    refine (hrec.leaves form scope 1).bind fun v => ?_
    refine (costs_define scope name v).bind fun _ => ?_
    exact costs_pure (Nat.zero_le _)
  · exact costs_failTelling _ _
  · exact costs_fail _

/-- A closure costs the step of its form. -/
theorem costs_evalLambda (operands : List Node) :
    Costs limit 1 spare (evalLambda scope operands) := by
  unfold evalLambda
  split
  · refine Costs.bind (k := fun _ => 1) (costs_ofOutcome fun _ => Nat.le_refl 1) fun names => ?_
    exact (costs_newScope _).bind fun _ => costs_pure (Nat.le_refl 0)
  · exact costs_fail _
  · exact costs_fail _

/-- A line costs the step of its form. -/
theorem costs_evalPrintln (hrec : Metered limit recur) (operands : List Node) :
    Costs limit 1 spare (evalPrintln recur scope operands) := by
  unfold evalPrintln
  split
  · next form =>
    refine (hrec.leaves form scope 1).bind fun v => ?_
    refine Costs.bind (k := fun _ => spare v + 1) (costs_ofHost fun _ => Nat.le_refl _)
      fun line => ?_
    refine (costs_writeLine line).bind fun _ => ?_
    exact costs_pure (Nat.zero_le _)
  · exact costs_fail _

theorem costs_integerOperand (hrec : Metered limit recur) (name : String) (form : Node) :
    Costs limit c (fun _ => c) (integerOperand recur scope name form) := by
  unfold integerOperand
  refine (hrec.leaves form scope c).bind fun v => ?_
  split
  · exact costs_pure (Nat.le_add_left _ _)
  · exact costs_failTelling _ _

theorem costs_integerOperands (hrec : Metered limit recur) (name : String)
    (operands : List Node) :
    Costs limit c (fun _ => c) (integerOperands recur scope name operands) := by
  unfold integerOperands
  refine costs_ite (fun _ => costs_fail _) fun _ => ?_
  exact costs_mapM (costs_integerOperand hrec name) operands

theorem costs_integerPair (hrec : Metered limit recur) (name : String) (operands : List Node) :
    Costs limit c (fun _ => c) (integerPair recur scope name operands) := by
  unfold integerPair
  split
  · next first second =>
    refine (costs_integerOperand hrec name first).bind fun a => ?_
    refine (costs_integerOperand hrec name second).bind fun b => ?_
    exact costs_pure (Nat.le_refl c)
  · exact costs_fail _

theorem costs_evalDiv (hrec : Metered limit recur) (operands : List Node) :
    Costs limit 1 spare (evalDiv recur scope operands) := by
  unfold evalDiv
  refine (costs_integerPair hrec "/" operands).bind ?_
  rintro ⟨a, b⟩
  refine costs_ite (fun _ => ?_) fun _ => costs_pure (Nat.le_refl 1)
  refine Costs.bind (k := fun _ => 1) (costs_ofHost fun _ => Nat.le_refl 1) fun shown => ?_
  exact Costs.bind (k := fun _ => 1) (costs_fail _) fun _ => costs_pure (Nat.le_refl 1)

theorem costs_literalArgument (form : Node) :
    Costs limit c (fun _ => c) (literalArgument setting form) := by
  unfold literalArgument
  split
  · exact costs_pure (Nat.le_refl c)
  · exact costs_pure (Nat.le_refl c)
  · exact costs_ite (fun _ => costs_pure (Nat.le_refl c)) fun _ => costs_fail _
  · exact costs_failTelling _ _

/-- The scope of a call costs the step of its form. -/
theorem costs_evalArguments (hrec : Metered limit recur) (captured : ScopeId)
    (operands : List Node) :
    Costs limit 1 (fun _ => 0) (evalArguments setting recur scope captured operands) := by
  unfold evalArguments
  refine costs_ite (fun _ => ?_) fun _ => ?_
  · refine (costs_mapM costs_literalArgument operands).bind fun values => ?_
    exact costs_pure (Nat.zero_le 1)
  · have hoperand (form : Node) : Costs limit 1 (fun _ => 1) (recur form scope) :=
      (hrec.leaves form scope 1).leaving fun _ => Nat.le_add_left _ _
    refine (costs_mapM hoperand operands).bind fun values => ?_
    refine (costs_newScope (some captured)).bind fun callScope => ?_
    exact costs_pure (Nat.le_refl 0)

theorem costs_bindAll (callScope : ScopeId) : ∀ pairs : List (String × Value),
    Costs limit c (fun _ => c) (bindAll callScope pairs)
  | [] => costs_pure (Nat.le_refl c)
  | (name, v) :: rest => (costs_define callScope name v).bind fun _ => costs_bindAll callScope rest

theorem costs_callName (hrec : Metered limit recur) (name : String) (operands : List Node) :
    Costs limit 1 spare (callName setting recur scope name operands) := by
  unfold callName
  refine (costs_lookup? (some scope) name).bind fun found => ?_
  split
  · exact costs_fail _
  · next params body captured =>
    refine (costs_permitted Arena.rootId).bind fun names => ?_
    refine costs_check (fun _ => costs_fail _) ?_
    refine costs_check (fun _ => costs_fail _) ?_
    refine (costs_evalArguments hrec captured operands).bind ?_
    rintro ⟨values, callScope⟩
    refine (costs_bindAll callScope _).bind fun _ => ?_
    refine Costs.bind (k := fun _ => 0) (costs_ofHost fun _ => Nat.le_refl 0) fun shown => ?_
    refine (costs_log _).bind fun _ => ?_
    exact hrec body callScope
  · exact costs_fail _

theorem costs_evalCall (hrec : Metered limit recur) (head : Node) (operands : List Node) :
    Costs limit 1 spare (evalCall setting recur scope head operands) := by
  unfold evalCall
  split
  · exact costs_callName hrec _ operands
  · exact costs_callName hrec _ operands
  · exact costs_failTelling _ _

/-- Every rule can do with the step of its form. -/
theorem costs_evalList (hrec : Metered limit recur) (head : Node) (operands : List Node) :
    Costs limit 1 spare (evalList setting recur scope head operands) := by
  have harithmetic {x : Int} : spare (.integer x) ≤ 1 := Nat.le_refl 1
  unfold evalList
  refine Costs.bind (k := fun _ => 1) (costs_ofHost fun _ => Nat.le_refl 1) fun rule => ?_
  unfold evalRule
  split
  · exact costs_evalBalance operands
  · exact costs_evalTransfer hrec operands
  · exact costs_evalProvide operands
  · exact costs_evalDefine hrec operands
  · exact costs_evalLambda operands
  · exact costs_evalPrintln hrec operands
  · exact (costs_integerOperands hrec "+" operands).bind fun _ => costs_pure harithmetic
  · exact (costs_integerPair hrec "-" operands).bind fun _ => costs_pure harithmetic
  · exact (costs_integerOperands hrec "*" operands).bind fun _ => costs_pure harithmetic
  · exact costs_evalDiv hrec operands
  · exact costs_evalCall hrec head operands

theorem costs_evalForm (hrec : Metered limit recur) (form : Node) :
    Costs limit 1 spare (evalForm setting recur scope form) := by
  unfold evalForm
  split
  · exact costs_pure (Nat.le_refl 1)
  · next name =>
    refine (costs_lookup? (some scope) name).bind fun found => ?_
    cases found with
    | none => exact costs_fail _
    | some v => exact costs_pure (spare_le v)
  · exact costs_ite (fun _ => costs_pure (Nat.le_refl 1)) fun _ => costs_fail _
  · exact costs_fail _
  · exact costs_evalList hrec _ _

end Rules

/-! ## 4. Evaluations and runs -/

/-- **An evaluation costs nothing** and leaves what its value has to spare. -/
theorem costs_evaluate (setting : Setting) (depth : Nat) :
    Metered setting.config.maxSteps (evaluate setting depth) := by
  induction depth with
  | zero => exact fun _ _ => costs_throw _
  | succ depth ih =>
    intro form scope
    exact (costs_countStep setting.config.maxSteps).bind fun _ => costs_evalForm ih form

theorem costs_logScopes : Costs limit c (fun _ => c) logScopes := by
  intro s
  rw [run_logScopes]
  exact (Costs.bind (k := fun _ => c) (costs_ofHost fun _ => Nat.le_refl c) fun _ => costs_log _) s

theorem costs_executeForm (setting : Setting) (form : Node) :
    Costs setting.config.maxSteps 0 (fun _ => 0) (executeForm setting form) := by
  unfold executeForm
  refine costs_check (fun _ => ?_) ?_
  · exact Costs.bind (k := fun _ => 0) (costs_ofHost fun _ => Nat.le_refl 0) fun _ => costs_log _
  have hvalue : Costs setting.config.maxSteps 0 (fun _ => 0)
      (evaluate setting setting.config.maxDepth form Arena.rootId) :=
    (costs_evaluate setting _ form _).leaving fun _ => Nat.zero_le _
  refine (costs_reportDepth hvalue).bind fun v => ?_
  refine Costs.bind (k := fun _ => 0) (costs_ofHost fun _ => Nat.le_refl 0) fun shown => ?_
  refine (costs_log _).bind fun _ => ?_
  exact costs_check (fun _ => costs_logScopes) (costs_pure (Nat.le_refl 0))

theorem costs_runScript (setting : Setting) (script : String) :
    Costs setting.config.maxSteps 0 (fun _ => 0) (runScript setting script) := by
  unfold runScript readScript
  refine Costs.bind (k := fun _ => 0) ?_ fun forms => ?_
  · refine Costs.bind (k := fun _ => 0) (costs_ofHost fun _ => Nat.le_refl 0) fun tokens => ?_
    split
    · exact costs_fail _
    · exact (costs_log _).bind fun _ => costs_pure (Nat.le_refl 0)
  · exact costs_mapM (costs_executeForm setting) forms

/-- What is paid is counted, and is no more than the limit. -/
theorem paid_sub_le {s t : State} (h : s.steps ≤ t.steps) :
    t.paid limit + s.steps ≤ s.paid limit + t.steps := by
  cases limit with
  | none => exact Nat.le_of_eq (Nat.add_comm _ _)
  | some most =>
    simp only [State.paid]
    omega

/-- What a computation has made at its end, whatever it comes to. -/
theorem Costs.pays {m : Eval α} (hm : Costs limit 0 k m) (s : State) :
    Pays limit 0 0 s (stateOf (m.run s)) := by
  refine Ends.state (P := Pays limit 0 0 s) (Ends.mono (hm s) ?_ fun _ _ h => h)
  intro a t h
  unfold Pays at *
  omega

/-- **What is made is paid by steps.**  Whatever an evaluation comes to, the scopes, lines and
accounts that it adds are together no more than the steps it counts; and in a run with a step
limit they are together no more than the limit. -/
theorem growth_metered (setting : Setting) :
    (∀ depth form scope s,
      let t := stateOf ((evaluate setting depth form scope).run s)
      ∃ scopes lines accounts steps,
        t.arena.scopes.size = s.arena.scopes.size + scopes ∧ t.output = s.output ++ lines ∧
        ExtendedBy s.ledger.accounts t.ledger.accounts accounts ∧ t.steps = s.steps + steps ∧
        scopes + lines.length + accounts.length ≤ steps) ∧
    ∀ most : Int, 0 ≤ most → setting.config.maxSteps = some most →
      ∀ script ledger bindings listener,
      let t := stateOf (run setting script ledger bindings listener)
      ∃ scopes accounts, t.arena.scopes.size = 1 + scopes ∧
        ExtendedBy ledger.accounts t.ledger.accounts accounts ∧
        (scopes + t.output.length + accounts.length : Nat) ≤ most := by
  constructor
  · intro depth form scope s t
    have honward : Onward setting.me s t := onward_evaluate setting depth form scope s
    have hpays : Pays setting.config.maxSteps 0 0 s t :=
      ((costs_evaluate setting depth form scope).leaving fun _ => Nat.zero_le _).pays s
    have hpaid : t.paid setting.config.maxSteps + s.steps ≤
        s.paid setting.config.maxSteps + t.steps := paid_sub_le honward.steps
    obtain ⟨lines, hlines, -⟩ := honward.written
    obtain ⟨accounts, haccounts⟩ := honward.accounts
    obtain ⟨scopes, hscopes⟩ := Nat.exists_eq_add_of_le honward.scopes
    obtain ⟨steps, hsteps⟩ := Nat.exists_eq_add_of_le honward.steps
    refine ⟨scopes, lines, accounts, steps, hscopes, hlines, haccounts, hsteps, ?_⟩
    have hmade : t.made = s.made + scopes + lines.length + accounts.length := by
      simp only [State.made, hscopes, hlines, haccounts.1, List.length_append]
      omega
    unfold Pays at hpays
    omega
  · intro most hmost hlimit script ledger bindings listener t
    have honward : Onward setting.me (.initial ledger bindings listener) t :=
      onward_run setting script ledger bindings listener
    have hpays : Pays setting.config.maxSteps 0 0 (.initial ledger bindings listener) t :=
      (costs_runScript setting script).pays _
    obtain ⟨accounts, haccounts⟩ := honward.accounts
    obtain ⟨scopes, hscopes⟩ := Nat.exists_eq_add_of_le honward.scopes
    refine ⟨scopes, accounts, hscopes, haccounts, ?_⟩
    have hmade : t.made = (State.initial ledger bindings listener).made + scopes +
        t.output.length + accounts.length := by
      simp only [State.made, hscopes, haccounts.1, List.length_append]
      simp only [State.initial, List.length_nil]
      omega
    have hpaid : t.paid setting.config.maxSteps ≤ most.toNat := by
      rw [hlimit]
      exact Nat.min_le_right _ _
    unfold Pays at hpays
    omega

/-- A contract with a limit of nine steps. -/
def thrifty : Setting := { bank with config := { bank.config with maxSteps := some 9 } }

/-- A transfer between two new accounts, a line, a closure, and a call that the limit cuts off. -/
def thriftyScript : String :=
  "($transfer 0 shop) (println 1) (define f (lambda () (println 2))) (f) (f)"

/-- The state after the script. -/
def thriftyState : State :=
  stateOf (trial thrifty thriftyScript {} [("shop", .account ⟨"shop"⟩)])

/-- Of the nine steps two are spent on scopes, one on a line and two on accounts. -/
theorem growth_metered_thrifty :
    thriftyState.steps = 10 ∧ thriftyState.output = ["1"] ∧
    ∃ scopes accounts, thriftyState.arena.scopes.size = 1 + scopes ∧ scopes = 2 ∧
      ExtendedBy [] thriftyState.ledger.accounts accounts ∧ accounts.length = 2 ∧
      (scopes + thriftyState.output.length + accounts.length : Nat) ≤ (9 : Int) := by
  obtain ⟨hsteps, houtput, hsize, hlength⟩ : thriftyState.steps = 10 ∧
      thriftyState.output = ["1"] ∧ thriftyState.arena.scopes.size = 3 ∧
      thriftyState.ledger.accounts.length = 2 := by decide +kernel
  have hmetered := (growth_metered thrifty).2 9 (by decide) rfl thriftyScript {}
    [("shop", .account ⟨"shop"⟩)] false
  rw [run_eq_trial] at hmetered
  obtain ⟨scopes, accounts, hscopes, haccounts, hle⟩ : ∃ scopes accounts,
      thriftyState.arena.scopes.size = 1 + scopes ∧
      ExtendedBy [] thriftyState.ledger.accounts accounts ∧
      (scopes + thriftyState.output.length + accounts.length : Nat) ≤ (9 : Int) := hmetered
  have hadded : thriftyState.ledger.accounts = accounts := haccounts.1
  exact ⟨hsteps, houtput, scopes, accounts, hscopes, by omega, haccounts, hadded ▸ hlength, hle⟩

end LedgerScript.Run
