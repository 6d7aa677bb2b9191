/-
# The course of a run

`evaluate` says what an evaluation comes to.  What a run passes through on the way is told here,
in terms of points: a form that is about to be evaluated, in a scope and from a state, together
with the values that the forms around it hold meanwhile.  A form goes on to two kinds of points,
to its operands one after another (`Operand`) and, if it is a call, to the body of its closure
(`Body`).

`Reaches` collects the states of a run: the states of its points and the states that the
evaluations at these points leave, each with the values that are held there.  `between_run` checks
that the state a run ends in is one of them.
-/
import LedgerScript.Proofs.Outcome
import Mathlib.Logic.Relation

namespace LedgerScript.Run

open Eval

/-! ## 1. Points -/

/-- A form that is about to be evaluated. -/
structure Point where
  /-- How many evaluations may be active from here on. -/
  depth : Nat
  form : Node
  scope : ScopeId
  state : State
  /-- The values that the forms around this one have evaluated and not yet used. -/
  held : List Value

/-- What the evaluation at a point comes to. -/
def Point.outcome (setting : Setting) (p : Point) : EStateM.Result Fault State Value :=
  (evaluate setting p.depth p.form p.scope).run p.state

/-! ## 2. From a form to its operands -/

/-- The name that a head calls. -/
def nameOf? : Node → Option String
  | .ident name => some name
  | .operator name => some name
  | _ => none

/-- A head has no rule to go by only if it is a number that is too long. -/
theorem of_ruleOf_error {head : Node} {operands : List Node} {fault : HostFault}
    (h : ruleOf head operands = .error fault) :
    fault = .integerTooLong ∧ ∃ n, head = .number n ∧ Text.isWritable n = false := by
  cases head with
  | number n =>
    simp only [ruleOf, Node.headText, Text.writeInteger] at h
    split at h
    · cases h
    · next hw =>
      cases h
      exact ⟨rfl, n, rfl, Bool.eq_false_iff.mpr hw⟩
  | ident | operator | list => cases h

/-- A list is evaluated by the rule that its head names. -/
theorem evalList_of_rule {setting : Setting} {head : Node} {operands : List Node}
    {rule : SpecialForm} (hr : ruleOf head operands = .ok rule)
    (recur : Node → ScopeId → Eval Value) (scope : ScopeId) :
    evalList setting recur scope head operands =
      evalRule setting recur scope head operands rule := by
  rw [evalList, hr]
  rfl

/-- A head without a text ends the evaluation of its list. -/
theorem evalList_of_fault {setting : Setting} {head : Node} {operands : List Node}
    {fault : HostFault} (hr : ruleOf head operands = .error fault)
    (recur : Node → ScopeId → Eval Value) (scope : ScopeId) :
    evalList setting recur scope head operands = throw (.host fault) := by
  rw [evalList, hr]
  rfl

/-- A head with a name calls it. -/
theorem evalCall_of_name {setting : Setting} {head : Node} {name : String}
    (hn : nameOf? head = some name) (recur : Node → ScopeId → Eval Value) (scope : ScopeId)
    (operands : List Node) :
    evalCall setting recur scope head operands = callName setting recur scope name operands := by
  cases head with
  | ident => cases hn; rfl
  | operator => cases hn; rfl
  | number => cases hn
  | list => cases hn

/-- The evaluation of a list that calls a name. -/
theorem evaluate_call {setting : Setting} {head : Node} {operands : List Node} {name : String}
    (hr : ruleOf head operands = .ok .call) (hn : nameOf? head = some name) (depth : Nat)
    (scope : ScopeId) :
    evaluate setting (depth + 1) (.list (head :: operands)) scope = (do
      countStep setting.config.maxSteps
      callName setting (evaluate setting depth) scope name operands) := by
  rw [evaluate, evalForm, evalList_of_rule hr, evalRule, evalCall_of_name hn]

/-- A name may be called with so many operands: it is bound to a closure, the root permits it, and
the closure has as many parameters. -/
structure Callable (s : State) (scope : ScopeId) (name : String) (count : Nat)
    (params : List String) (body : Node) (captured : ScopeId) : Prop where
  found : s.arena.lookup (some scope) name = .ok (some (.closure params body captured))
  allowed : ∃ names, s.arena.permitted Arena.rootId = .ok names ∧ (names = [] ∨ name ∈ names)
  arity : count = params.length

/-- The operands that a rule evaluates in turn, and the values with which it goes on. -/
inductive Works (setting : Setting) (s : State) (scope : ScopeId) (head : Node) :
    List Node → List Node → (Value → Prop) → Prop
  | transfer {amount destination : Node} (h : ruleOf head [amount, destination] = .ok .transfer) :
    Works setting s scope head [amount, destination] [amount, destination] fun _ => True
  | define {name : String} {form : Node} (h : ruleOf head [.ident name, form] = .ok .define) :
    Works setting s scope head [.ident name, form] [form] fun _ => True
  | println {form : Node} (h : ruleOf head [form] = .ok .println) :
    Works setting s scope head [form] [form] fun _ => True
  | several {operands : List Node} (hn : 2 ≤ operands.length)
    (h : ruleOf head operands = .ok .add ∨ ruleOf head operands = .ok .mul) :
    Works setting s scope head operands operands fun v => ∃ n, v = .integer n
  | pair {first second : Node}
    (h : ruleOf head [first, second] = .ok .sub ∨ ruleOf head [first, second] = .ok .div) :
    Works setting s scope head [first, second] [first, second] fun v => ∃ n, v = .integer n
  | call {operands : List Node} {name : String} {params : List String} {body : Node}
    {captured : ScopeId} (h : ruleOf head operands = .ok .call)
    (hm : setting.config.legacy = false) (hn : nameOf? head = some name)
    (hc : Callable s scope name operands.length params body captured) :
    Works setting s scope head operands operands fun _ => True

/-- The points at which forms are evaluated in turn, each after a value with which it goes on. -/
inductive InTurn (setting : Setting) (depth : Nat) (scope : ScopeId) (accepted : Value → Prop) :
    List Node → State → List Value → Point → Prop
  | first {form : Node} {rest : List Node} {s : State} {held : List Value} :
    InTurn setting depth scope accepted (form :: rest) s held ⟨depth, form, scope, s, held⟩
  | later {form : Node} {rest : List Node} {s t : State} {held : List Value} {v : Value}
    {q : Point} (he : (evaluate setting depth form scope).run s = .ok v t) (hv : accepted v)
    (hq : InTurn setting depth scope accepted rest t (held ++ [v]) q) :
    InTurn setting depth scope accepted (form :: rest) s held q

/-- A form goes on to one of its operands. -/
inductive Operand (setting : Setting) : Point → Point → Prop
  | intro {depth : Nat} {head : Node} {operands worked : List Node} {scope : ScopeId}
    {s t : State} {held : List Value} {accepted : Value → Prop} {q : Point}
    (hs : (countStep setting.config.maxSteps).run s = .ok () t)
    (hw : Works setting t scope head operands worked accepted)
    (hq : InTurn setting depth scope accepted worked t held q) :
    Operand setting ⟨depth + 1, .list (head :: operands), scope, s, held⟩ q

/-! ## 3. From a call to the body -/

/-- A call enters the body of its closure, in the scope that its arguments are bound in. -/
inductive Enters (setting : Setting) (depth : Nat) (scope : ScopeId) (head : Node)
    (operands : List Node) (s : State) (held : List Value) : Point → Prop
  | intro {name : String} {params shown : List String} {body : Node} {captured : ScopeId}
    {values : List Value} {callScope : ScopeId} {t u : State}
    (h : ruleOf head operands = .ok .call) (hn : nameOf? head = some name)
    (hc : Callable s scope name operands.length params body captured)
    (ha : (evalArguments setting (evaluate setting depth) scope captured operands).run s =
      .ok (values, callScope) t)
    (hb : (bindAll callScope (params.zip values)).run t = .ok () u)
    (hv : Value.allShown values = .ok shown) :
    Enters setting depth scope head operands s held
      ⟨depth, body, callScope, { u with log := u.log ++ [.calling name shown callScope] }, held⟩

/-- A call goes on to the body of its closure. -/
inductive Body (setting : Setting) : Point → Point → Prop
  | intro {depth : Nat} {head : Node} {operands : List Node} {scope : ScopeId} {s t : State}
    {held : List Value} {q : Point}
    (hs : (countStep setting.config.maxSteps).run s = .ok () t)
    (hq : Enters setting depth scope head operands t held q) :
    Body setting ⟨depth + 1, .list (head :: operands), scope, s, held⟩ q

/-- An evaluation goes on to another. -/
def Next (setting : Setting) (p q : Point) : Prop := Operand setting p q ∨ Body setting p q

theorem InTurn.depth_scope {setting : Setting} {depth : Nat} {scope : ScopeId}
    {accepted : Value → Prop} {forms : List Node} {s : State} {held : List Value} {q : Point}
    (h : InTurn setting depth scope accepted forms s held q) :
    q.depth = depth ∧ q.scope = scope := by
  induction h with
  | first => exact ⟨rfl, rfl⟩
  | later _ _ _ ih => exact ih

/-- An evaluation goes on with one evaluation less to spare. -/
theorem Next.depth {setting : Setting} {p q : Point} (h : Next setting p q) :
    p.depth = q.depth + 1 := by
  rcases h with ⟨_, _, hq⟩ | ⟨_, hq⟩
  · rw [hq.depth_scope.1]
  · cases hq with
    | intro => rfl

/-- An evaluation goes on to another, directly or through others. -/
def Visits (setting : Setting) : Point → Point → Prop := Relation.ReflTransGen (Next setting)

/-! ## 4. The states of a run -/

/-- A form of the script, about to be evaluated. -/
def Setting.point (setting : Setting) (form : Node) (s : State) (held : List Value) : Point :=
  ⟨setting.config.maxDepth, form, Arena.rootId, s, held⟩

/-- The states in which a run is between two forms of the script, with the values so far. -/
inductive Between (setting : Setting) (start : State) : State → List Value → Prop
  | start : Between setting start start []
  | logged {s : State} {held : List Value} (h : Between setting start s held) (record : Record) :
    Between setting start { s with log := s.log ++ [record] } held
  | value {s t : State} {held : List Value} {form : Node} {v : Value}
    (h : Between setting start s held)
    (he : (setting.point form s held).outcome setting = .ok v t) :
    Between setting start t (held ++ [v])
  | fault {s t : State} {held : List Value} {form : Node} {f : Fault}
    (h : Between setting start s held)
    (he : (setting.point form s held).outcome setting = .error f t) :
    Between setting start t held

/-- The points that runs from a state pass through. -/
def Passes (setting : Setting) (start : State) (q : Point) : Prop :=
  ∃ form s held, Between setting start s held ∧ Visits setting (setting.point form s held) q

/-- The states that runs from a state reach, with the values held there: before an evaluation,
after its value, and after its fault. -/
inductive Reaches (setting : Setting) (start : State) : State → List Value → Prop
  | before {q : Point} (h : Passes setting start q) : Reaches setting start q.state q.held
  | value {q : Point} {v : Value} {t : State} (h : Passes setting start q)
    (he : q.outcome setting = .ok v t) : Reaches setting start t (q.held ++ [v])
  | fault {q : Point} {f : Fault} {t : State} (h : Passes setting start q)
    (he : q.outcome setting = .error f t) : Reaches setting start t q.held

theorem Between.passes {setting : Setting} {start s : State} {held : List Value}
    (h : Between setting start s held) (form : Node) :
    Passes setting start (setting.point form s held) :=
  ⟨form, s, held, h, Relation.ReflTransGen.refl⟩

theorem Between.reaches {setting : Setting} {start s : State} {held : List Value}
    (h : Between setting start s held) : Reaches setting start s held :=
  .before (h.passes (.list []))

/-! ## 5. A run is between forms when it ends -/

section

variable {setting : Setting} {start s : State} {held : List Value}

/-- How a computation ends that started between two forms: between forms again, with what it
returned among the values. -/
def EndsBetween (setting : Setting) (start : State) (held : List Value) :
    EStateM.Result Fault State (List Value) → Prop :=
  Ends (fun values t => Between setting start t (held ++ values))
    fun _ t => ∃ held, Between setting start t held

/-- Something that the host tells is logged between two forms. -/
theorem ends_ofHost_log (h : Between setting start s held) (x : Except HostFault Record) :
    Ends (fun _ t => Between setting start t held)
      (fun _ t => ∃ held, Between setting start t held) ((ofHost x >>= log).run s) := by
  rw [run_ofHost_log]
  cases x with
  | ok record => exact .value (h.logged record)
  | error fault => exact .fault ⟨held, h⟩

theorem ends_logScopes (h : Between setting start s held) :
    Ends (fun _ t => Between setting start t held)
      (fun _ t => ∃ held, Between setting start t held) (logScopes.run s) := by
  rw [run_logScopes]
  exact ends_ofHost_log h _

theorem ends_executeForm (h : Between setting start s held) (form : Node) :
    Ends (fun v t => Between setting start t (held ++ [v]))
      (fun _ t => ∃ held, Between setting start t held) ((executeForm setting form).run s) := by
  unfold executeForm
  have htrace : Ends (fun _ t => Between setting start t held)
      (fun _ t => ∃ held, Between setting start t held)
      ((if setting.config.trace then logForm form else pure ()).run s) := by
    split
    · exact ends_ofHost_log h _
    · exact .value h
  dsimp only
  rw [ite_bind_eq]
  refine Ends.bind htrace ?_ fun _ _ h => h
  intro _ t _ h
  have hvalue : Ends (fun v u => Between setting start u (held ++ [v]))
      (fun _ u => ∃ held, Between setting start u held)
      ((reportDepth (evaluate setting setting.config.maxDepth form Arena.rootId)).run t) := by
    rw [run_reportDepth]
    cases he : (evaluate setting setting.config.maxDepth form Arena.rootId).run t with
    | ok v u =>
      have he : (setting.point form t held).outcome setting = .ok v u := he
      exact .value (h.value he)
    | error fault u =>
      have he : (setting.point form t held).outcome setting = .error fault u := he
      cases fault <;> exact .fault ⟨held, h.fault he⟩
  refine Ends.bind hvalue ?_ fun _ _ h => h
  intro v u _ h
  refine Ends.bind (P := fun _ t => t = u) (B := fun _ t => t = u)
    (ends_ofHost (fun _ _ => rfl) fun _ _ => rfl) ?_ ?_
  · rintro shown _ - rfl
    refine Ends.bind (P := fun _ t => Between setting start t (held ++ [v]))
      (.value (h.logged _)) ?_ fun _ _ h => h
    intro _ w _ h
    split
    · refine Ends.bind (ends_logScopes h) ?_ fun _ _ h => h
      exact fun _ _ _ h => .value h
    · exact .value h
  · rintro _ _ rfl
    exact ⟨_, h⟩

theorem ends_execute : ∀ (forms : List Node) {s : State} {held : List Value},
    Between setting start s held → EndsBetween setting start held ((execute setting forms).run s)
  | [], _, _, h => by
    rw [execute, List.mapM_nil]
    exact .value (by rwa [List.append_nil])
  | form :: rest, s, held, h => by
    unfold execute
    rw [List.mapM_cons]
    refine Ends.bind (ends_executeForm h form) ?_ fun _ _ h => h
    intro v t _ h
    refine Ends.bind (ends_execute rest h) ?_ fun _ _ h => h
    intro values u _ h
    exact .value (by rwa [List.append_assoc] at h)

/-- **The state that a run ends in**, in whatever way, is one that the run reaches between two
forms. -/
theorem ends_runScript (script : String) (start : State) :
    EndsBetween setting start [] ((runScript setting script).run start) := by
  unfold runScript readScript
  refine Ends.bind (P := fun _ t => Between setting start t []) ?_ ?_ fun _ _ h => h
  · refine Ends.bind (P := fun _ t => t = start) (B := fun _ t => t = start)
      (ends_ofHost (fun _ _ => rfl) fun _ _ => rfl) ?_ ?_
    · rintro tokens _ - rfl
      split
      · exact .fault ⟨[], .start⟩
      · exact .value (Between.start.logged _)
    · rintro _ _ rfl
      exact ⟨[], .start⟩
  · exact fun forms t _ h => ends_execute forms h

theorem between_run (setting : Setting) (script : String) (ledger : Ledger)
    (bindings : Table String Value) (listener : Bool) :
    ∃ held, Between setting (.initial ledger bindings listener)
      (stateOf (run setting script ledger bindings listener)) held :=
  Ends.state (P := fun t => ∃ held, Between setting _ t held)
    (Ends.mono (ends_runScript script _) (fun _ _ h => ⟨_, h⟩) fun _ _ h => h)

end

end LedgerScript.Run
