/-
# What every evaluation keeps

An evaluation changes the state through a handful of operations only: it counts steps, writes
lines and log records, makes scopes, binds and permits names, and moves funds.  A `Discipline`
is a property of runs together with what it needs of each of these operations:

* `Inv` is an invariant of states, and `Step` a preorder that says how states may change;
* `Home` says in which scopes forms are evaluated, `Good` which values are handled, both as a
  matter of the state and for as long as states change by steps.

`Discipline.evaluate` concludes that every evaluation of every form keeps the invariant, makes a
step, and returns a good value, whether it succeeds or not.  `Discipline.passes` extends this to
every point that a run passes through, and `Discipline.reaches` to every state that it reaches.

Permitting names is kept apart (`Permits`), because some properties hold of all evaluations but
those that permit a name.  `Discipline.keepsAt_of_next` is the step behind all of this: one
evaluation keeps what the evaluations it goes on to keep.
-/
import LedgerScript.Proofs.Course
import LedgerScript.Proofs.Funds
import LedgerScript.Proofs.Scopes

namespace LedgerScript.Run

open Eval

variable {α β : Type} {setting : Setting}

/-! ## 1. Disciplines -/

/-- A property of runs, and what it needs of the operations of an evaluation. -/
structure Discipline (setting : Setting) where
  /-- What holds of every state. -/
  Inv : State → Prop
  /-- The scopes that forms are evaluated in. -/
  Home : State → ScopeId → Prop
  /-- The values that are handled. -/
  Good : State → Value → Prop
  /-- How states may change. -/
  Step : State → State → Prop
  refl (s : State) : Step s s
  trans {s t u : State} : Step s t → Step t u → Step s u
  home_mono {s t : State} {scope : ScopeId} : Step s t → Home s scope → Home t scope
  good_mono {s t : State} {v : Value} : Step s t → Good s v → Good t v
  /-- Only closures can be bad. -/
  plain {s : State} {v : Value} : v.capture? = none → Good s v
  found {s : State} {scope : ScopeId} {name : String} {v : Value} :
    Inv s → Home s scope → s.arena.lookup (some scope) name = .ok (some v) → Good s v
  count {s : State} : Inv s →
    Inv { s with steps := s.steps + 1 } ∧ Step s { s with steps := s.steps + 1 }
  write {s : State} (line : String) : Inv s →
    Inv { s with output := s.output ++ [line], sink := s.sink.map (· ++ [line]) } ∧
      Step s { s with output := s.output ++ [line], sink := s.sink.map (· ++ [line]) }
  log {s : State} (record : Record) : Inv s →
    Inv { s with log := s.log ++ [record] } ∧ Step s { s with log := s.log ++ [record] }
  define {s : State} {scope : ScopeId} {name : String} {v : Value} {arena : Arena} :
    Inv s → Home s scope → Good s v → s.arena.define scope name v = .ok arena →
      Inv { s with arena } ∧ Step s { s with arena }
  /-- A `lambda` makes a scope for its closure. -/
  capture {s : State} {scope : ScopeId} {params : List Node} {names : List String} (body : Node) :
    Inv s → Home s scope → parametersOf [] params = .ok names →
      Inv { s with arena := (s.arena.newScope (some scope)).2 } ∧
      Step s { s with arena := (s.arena.newScope (some scope)).2 } ∧
      Good { s with arena := (s.arena.newScope (some scope)).2 }
        (.closure names body (s.arena.newScope (some scope)).1)
  /-- A call makes a scope for the body. -/
  enter {s : State} {params : List String} {body : Node} {captured : ScopeId} :
    setting.config.legacy = false → Inv s → Good s (.closure params body captured) →
      Inv { s with arena := (s.arena.newScope (some captured)).2 } ∧
      Step s { s with arena := (s.arena.newScope (some captured)).2 } ∧
      Home { s with arena := (s.arena.newScope (some captured)).2 }
        (s.arena.newScope (some captured)).1
  /-- Under the legacy rules the body shares the captured scope. -/
  share {s : State} {params : List String} {body : Node} {captured : ScopeId} :
    setting.config.legacy = true → Inv s → Good s (.closure params body captured) →
      Home s captured
  transfer {s : State} {amount : Int} (destination : Account) : Inv s → 0 ≤ amount →
    Ends (fun _ t => Inv t ∧ Step s t) (fun _ t => Inv t ∧ Step s t)
      ((moveFunds setting amount destination).run s)

namespace Discipline

variable (D : Discipline setting)

/-- Permitting a name in a scope is a step. -/
def PermitsIn (scope : ScopeId) : Prop :=
  ∀ {s : State} {name : String} {arena : Arena},
    D.Inv s → D.Home s scope → s.arena.permit scope name = .ok arena →
      D.Inv { s with arena } ∧ D.Step s { s with arena }

/-- Permitting a name is a step wherever it is done. -/
def Permits : Prop := ∀ scope, D.PermitsIn scope

/-- An end that keeps the discipline: the invariant holds again, a step was made since `s`, and
what is returned is as `Q` says. -/
def Keeps (s : State) (Q : α → State → Prop) : EStateM.Result Fault State α → Prop :=
  Ends (fun a t => D.Inv t ∧ D.Step s t ∧ Q a t) (fun _ t => D.Inv t ∧ D.Step s t)

/-- A good value. -/
def value (v : Value) (s : State) : Prop := D.Good s v

/-- The evaluation at a point keeps the discipline. -/
def KeepsAt (p : Point) : Prop := D.Keeps p.state D.value (p.outcome setting)

variable {D} {s : State} {Q : α → State → Prop} {Q' : β → State → Prop}

theorem Keeps.state {r : EStateM.Result Fault State α} (h : D.Keeps s Q r) :
    D.Inv (stateOf r) ∧ D.Step s (stateOf r) :=
  Ends.state (P := fun t => D.Inv t ∧ D.Step s t)
    (Ends.mono h (fun _ _ h => ⟨h.1, h.2.1⟩) fun _ _ h => h)

/-- What was returned may be noted. -/
theorem Keeps.noting {r : EStateM.Result Fault State α} (h : D.Keeps s Q r) :
    D.Keeps s (fun a t => r = .ok a t) r := by
  cases h with
  | value h => exact .value ⟨h.1, h.2.1, rfl⟩
  | fault h => exact .fault h

/-- One computation after another. -/
theorem Keeps.bind {m : Eval α} {f : α → Eval β} (hm : D.Keeps s Q (m.run s))
    (hf : ∀ a t, m.run s = .ok a t → D.Inv t → D.Step s t → Q a t →
      D.Keeps t Q' ((f a).run t)) : D.Keeps s Q' ((m >>= f).run s) := by
  refine Ends.bind hm ?_ fun _ _ h => h
  rintro a t hr ⟨hi, hs, ha⟩
  refine Ends.mono (hf a t hr hi hs ha) ?_ ?_
  · rintro b u ⟨hi', hs', hb⟩
    exact ⟨hi', D.trans hs hs', hb⟩
  · rintro _ u ⟨hi', hs'⟩
    exact ⟨hi', D.trans hs hs'⟩

theorem keeps_pure {a : α} (hi : D.Inv s) (h : Q a s) :
    D.Keeps s Q ((pure a : Eval α).run s) := .value ⟨hi, D.refl s, h⟩

theorem keeps_throw (hi : D.Inv s) (fault : Fault) :
    D.Keeps s Q ((throw fault : Eval α).run s) := .fault ⟨hi, D.refl s⟩

theorem keeps_fail (hi : D.Inv s) (error : ScriptError) :
    D.Keeps s Q ((fail error : Eval α).run s) := keeps_throw hi _

/-- Nothing comes after a failure. -/
theorem keeps_fail_bind (hi : D.Inv s) (error : ScriptError) (f : α → Eval β) :
    D.Keeps s Q' ((fail error >>= f).run s) := .fault ⟨hi, D.refl s⟩

/-- What only asks the host leaves the state alone. -/
theorem keeps_ofHost (hi : D.Inv s) (x : Except HostFault α) :
    D.Keeps s (fun _ _ => True) ((ofHost x).run s) :=
  ends_ofHost (fun _ _ => ⟨hi, D.refl s, trivial⟩) fun _ _ => ⟨hi, D.refl s⟩

theorem keeps_failTelling (hi : D.Inv s) (error : String → ScriptError)
    (text : Except HostFault String) : D.Keeps s Q ((failTelling error text : Eval α).run s) :=
  keeps_throw hi _

/-! ## 2. The operations -/

theorem keeps_countStep (hi : D.Inv s) (limit : Option Int) :
    D.Keeps s (fun _ _ => True) ((countStep limit).run s) := by
  obtain ⟨hi', hs⟩ := D.count hi
  rw [run_countStep]
  cases limit with
  | none => exact .value ⟨hi', hs, trivial⟩
  | some most =>
    dsimp only
    split
    · exact .fault ⟨hi', hs⟩
    · exact .value ⟨hi', hs, trivial⟩

theorem keeps_writeLine (hi : D.Inv s) (line : String) :
    D.Keeps s (fun _ _ => True) ((writeLine line).run s) := by
  obtain ⟨hi', hs⟩ := D.write line hi
  rw [run_writeLine]
  exact .value ⟨hi', hs, trivial⟩

theorem keeps_log (hi : D.Inv s) (record : Record) :
    D.Keeps s (fun _ _ => True) ((Eval.log record).run s) := by
  obtain ⟨hi', hs⟩ := D.log record hi
  rw [run_log]
  exact .value ⟨hi', hs, trivial⟩

theorem keeps_define {scope : ScopeId} {v : Value} (hi : D.Inv s) (hh : D.Home s scope)
    (hv : D.Good s v) (name : String) :
    D.Keeps s (fun _ _ => True) ((Eval.define scope name v).run s) := by
  rw [Eval.define, run_changeArena]
  cases hd : s.arena.define scope name v with
  | error fault => exact .fault ⟨hi, D.refl s⟩
  | ok arena =>
    obtain ⟨hi', hs⟩ := D.define hi hh hv hd
    exact .value ⟨hi', hs, trivial⟩

theorem keeps_permit {scope : ScopeId} (hp : D.PermitsIn scope) (hi : D.Inv s)
    (hh : D.Home s scope) (name : String) :
    D.Keeps s (fun _ _ => True) ((Eval.permit scope name).run s) := by
  rw [Eval.permit, run_changeArena]
  cases hd : s.arena.permit scope name with
  | error fault => exact .fault ⟨hi, D.refl s⟩
  | ok arena =>
    obtain ⟨hi', hs⟩ := hp hi hh hd
    exact .value ⟨hi', hs, trivial⟩

theorem keeps_moveFunds {amount : Int} (hi : D.Inv s) (h : 0 ≤ amount) (destination : Account) :
    D.Keeps s (fun _ _ => True) ((moveFunds setting amount destination).run s) :=
  Ends.mono (D.transfer destination hi h) (fun _ _ h => ⟨h.1, h.2, trivial⟩) fun _ _ h => h

theorem keeps_bindAll {scope : ScopeId} : ∀ {pairs : List (String × Value)} {s : State},
    D.Inv s → D.Home s scope → (∀ pair ∈ pairs, D.Good s pair.2) →
      D.Keeps s (fun _ _ => True) ((bindAll scope pairs).run s)
  | [], _, hi, _, _ => keeps_pure hi trivial
  | (name, v) :: rest, s, hi, hh, hv => by
    refine Keeps.bind (keeps_define hi hh (hv _ List.mem_cons_self) name) ?_
    intro _ t _ hi' hs _
    refine keeps_bindAll hi' (D.home_mono hs hh) ?_
    intro pair hp
    exact D.good_mono hs (hv pair (List.mem_cons_of_mem _ hp))

theorem keeps_permitNames {scope : ScopeId} (hp : D.PermitsIn scope) :
    ∀ {names : List Node} {s : State}, D.Inv s → D.Home s scope →
      D.Keeps s (fun _ _ => True) ((permitNames scope names).run s)
  | [], _, hi, _ => keeps_pure hi trivial
  | .ident name :: rest, s, hi, hh => by
    refine Keeps.bind (keeps_permit hp hi hh name) ?_
    intro _ t _ hi' hs _
    exact keeps_permitNames hp hi' (D.home_mono hs hh)
  | .number _ :: _, _, hi, _ => keeps_failTelling hi _ _
  | .operator _ :: _, _, hi, _ => keeps_failTelling hi _ _
  | .list _ :: _, _, hi, _ => keeps_failTelling hi _ _

/-! ## 3. Operands in turn -/

section Rules

variable {depth : Nat} {scope : ScopeId} {held : List Value} {accepted : Value → Prop}

/-- Every evaluation of some forms in turn keeps the discipline, if it starts with the
invariant. -/
def Through (D : Discipline setting) (depth : Nat) (scope : ScopeId) (accepted : Value → Prop)
    (worked : List Node) (s : State) (held : List Value) : Prop :=
  ∀ q, InTurn setting depth scope accepted worked s held q → D.Inv q.state →
    D.Home q.state q.scope → D.KeepsAt q

theorem Through.first {form : Node} {rest : List Node}
    (h : D.Through depth scope accepted (form :: rest) s held) (hi : D.Inv s)
    (hh : D.Home s scope) : D.Keeps s D.value ((evaluate setting depth form scope).run s) :=
  h ⟨depth, form, scope, s, held⟩ .first hi hh

theorem Through.later {form : Node} {rest : List Node} {t : State} {v : Value}
    (h : D.Through depth scope accepted (form :: rest) s held)
    (he : (evaluate setting depth form scope).run s = .ok v t) (hv : accepted v) :
    D.Through depth scope accepted rest t (held ++ [v]) :=
  fun q hq => h q (.later he hv hq)

/-- An operand that must give an integer. -/
theorem keeps_integerOperand {name : String} {form : Node}
    (h : D.Keeps s D.value ((evaluate setting depth form scope).run s)) :
    D.Keeps s (fun n t => (evaluate setting depth form scope).run s = .ok (.integer n) t)
      ((integerOperand (evaluate setting depth) scope name form).run s) := by
  unfold integerOperand
  refine Keeps.bind h ?_
  intro v t he hi _ _
  cases v with
  | integer n => exact keeps_pure hi he
  | _ => exact keeps_failTelling hi _ _

/-- Operands evaluated from left to right by `f`, which evaluates and takes what it accepts. -/
theorem keeps_mapM {f : Node → Eval α} {g : α → Value}
    (hf : ∀ form s, D.Keeps s D.value ((evaluate setting depth form scope).run s) →
      D.Keeps s (fun a t => (evaluate setting depth form scope).run s = .ok (g a) t)
        ((f form).run s))
    (hb : ∀ a, accepted (g a)) : ∀ {forms : List Node} {s : State} {held : List Value},
    D.Through depth scope accepted forms s held → D.Inv s → D.Home s scope →
      D.Keeps s (fun as t => ∀ a ∈ as, D.Good t (g a)) ((forms.mapM f).run s)
  | [], _, _, _, hi, _ => keeps_pure hi fun _ ha => absurd ha List.not_mem_nil
  | form :: rest, s, held, h, hi, hh => by
    have hfirst := h.first hi hh
    rw [List.mapM_cons]
    refine Keeps.bind (hf form s hfirst) ?_
    intro a t _ hi' hs he
    have ha : D.Good t (g a) := (hfirst.of_ok he).2.2
    refine Keeps.bind (keeps_mapM hf hb (h.later he (hb a)) hi' (D.home_mono hs hh)) ?_
    intro as u _ hi'' hs' has
    refine keeps_pure hi'' ?_
    intro b hmem
    rcases List.mem_cons.mp hmem with rfl | hmem
    · exact D.good_mono hs' ha
    · exact has b hmem

/-! ## 4. The rules -/

theorem keeps_evalBalance (hi : D.Inv s) (operands : List Node) :
    D.Keeps s D.value ((evalBalance setting operands).run s) := by
  unfold evalBalance
  split
  · split
    · exact .value ⟨hi, D.refl s, D.plain rfl⟩
    · exact keeps_fail hi _
  · exact keeps_fail hi _

theorem keeps_amountOf (hi : D.Inv s) (v : Value) :
    D.Keeps s (fun n _ => 0 ≤ n) ((amountOf v).run s) := by
  unfold amountOf
  split
  · split
    · next h => exact keeps_pure hi h
    · exact keeps_failTelling hi _ _
  · exact keeps_failTelling hi _ _

theorem keeps_destinationOf (hi : D.Inv s) (v : Value) :
    D.Keeps s (fun _ _ => True) ((destinationOf v).run s) := by
  unfold destinationOf
  split
  · exact keeps_pure hi trivial
  · exact keeps_failTelling hi _ _

theorem keeps_settle (hi : D.Inv s) (amount destination : Value) :
    D.Keeps s D.value ((settle setting amount destination).run s) := by
  unfold settle
  refine Keeps.bind (keeps_amountOf hi amount) ?_
  intro n _ _ hi _ hn
  refine Keeps.bind (keeps_destinationOf hi destination) ?_
  intro a _ _ hi _ _
  refine Keeps.bind (keeps_moveFunds hi hn a) ?_
  intro _ _ _ hi _ _
  exact keeps_pure hi (D.plain rfl)

/-- What a list does is told by its rule: this is the rule for `head` and `operands`, and the
operands that it works on keep the discipline. -/
structure Working (D : Discipline setting) (depth : Nat) (scope : ScopeId) (head : Node)
    (operands : List Node) (s : State) (held : List Value) : Prop where
  inv : D.Inv s
  home : D.Home s scope
  through {worked : List Node} {accepted : Value → Prop} :
    Works setting s scope head operands worked accepted →
      D.Through depth scope accepted worked s held
  body {q : Point} : Enters setting depth scope head operands s held q → D.Inv q.state →
    D.Home q.state q.scope → D.KeepsAt q

variable {head : Node} {operands : List Node}

theorem keeps_evalTransfer (w : D.Working depth scope head operands s held)
    (hr : ruleOf head operands = .ok .transfer) :
    D.Keeps s D.value ((evalTransfer setting (evaluate setting depth) scope operands).run s) := by
  unfold evalTransfer
  split
  · have h := w.through (.transfer hr)
    refine Keeps.bind (h.first w.inv w.home) ?_
    intro v t he hi hs _
    have hh := D.home_mono hs w.home
    refine Keeps.bind ((h.later he trivial).first hi hh) ?_
    intro v' t' _ hi _ _
    exact keeps_settle hi v v'
  · exact keeps_fail w.inv _

theorem keeps_evalProvide (hp : D.PermitsIn scope) (hi : D.Inv s) (hh : D.Home s scope)
    (operands : List Node) : D.Keeps s D.value ((evalProvide scope operands).run s) := by
  unfold evalProvide
  refine Keeps.bind (keeps_permitNames hp hi hh) ?_
  intro _ t _ hi _ _
  refine Keeps.bind (m := permitted scope) (keeps_ofHost hi _) ?_
  intro names u _ hi _ _
  refine Keeps.bind (keeps_log hi _) ?_
  intro _ _ _ hi _ _
  exact keeps_pure hi (D.plain rfl)

theorem keeps_evalDefine (w : D.Working depth scope head operands s held)
    (hr : ruleOf head operands = .ok .define) :
    D.Keeps s D.value ((evalDefine (evaluate setting depth) scope operands).run s) := by
  unfold evalDefine
  split
  · refine Keeps.bind ((w.through (.define hr)).first w.inv w.home) ?_
    intro v t _ hi hs hv
    refine Keeps.bind (keeps_define hi (D.home_mono hs w.home) hv _) ?_
    intro _ _ _ hi _ _
    exact keeps_pure hi (D.plain rfl)
  · exact keeps_failTelling w.inv _ _
  · exact keeps_fail w.inv _

theorem keeps_evalLambda (hi : D.Inv s) (hh : D.Home s scope) (operands : List Node) :
    D.Keeps s D.value ((evalLambda scope operands).run s) := by
  unfold evalLambda
  split
  · next params body =>
    cases hn : parametersOf [] params with
    | error failure => exact keeps_throw hi _
    | ok names =>
      obtain ⟨hi', hs, hg⟩ := D.capture body hi hh hn
      exact .value ⟨hi', hs, hg⟩
  · exact keeps_fail hi _
  · exact keeps_fail hi _

theorem keeps_evalPrintln (w : D.Working depth scope head operands s held)
    (hr : ruleOf head operands = .ok .println) :
    D.Keeps s D.value ((evalPrintln (evaluate setting depth) scope operands).run s) := by
  unfold evalPrintln
  split
  · refine Keeps.bind ((w.through (.println hr)).first w.inv w.home) ?_
    intro v t _ hi _ _
    refine Keeps.bind (keeps_ofHost hi _) ?_
    intro line _ _ hi _ _
    refine Keeps.bind (keeps_writeLine hi line) ?_
    intro _ _ _ hi _ _
    exact keeps_pure hi (D.plain rfl)
  · exact keeps_fail w.inv _

theorem keeps_integerOperands {name : String} (w : D.Working depth scope head operands s held)
    (hr : ruleOf head operands = .ok .add ∨ ruleOf head operands = .ok .mul) :
    D.Keeps s (fun _ _ => True)
      ((integerOperands (evaluate setting depth) scope name operands).run s) := by
  unfold integerOperands
  split
  · exact keeps_fail w.inv _
  · next hn =>
    have h := w.through (.several (by omega) hr)
    refine Ends.mono (keeps_mapM (g := Value.integer)
      (fun form s hk => keeps_integerOperand hk) (fun n => ⟨n, rfl⟩) h w.inv w.home) ?_ ?_
    · rintro _ _ ⟨hi, hs, -⟩
      exact ⟨hi, hs, trivial⟩
    · exact fun _ _ h => h

theorem keeps_integerPair {name : String} (w : D.Working depth scope head operands s held)
    (hr : ruleOf head operands = .ok .sub ∨ ruleOf head operands = .ok .div) :
    D.Keeps s (fun _ _ => True)
      ((integerPair (evaluate setting depth) scope name operands).run s) := by
  unfold integerPair
  split
  · have h := w.through (.pair hr)
    refine Keeps.bind (keeps_integerOperand (h.first w.inv w.home)) ?_
    intro a t _ hi hs he
    have hh := D.home_mono hs w.home
    refine Keeps.bind (keeps_integerOperand ((h.later he ⟨a, rfl⟩).first hi hh)) ?_
    intro b u _ hi _ _
    exact keeps_pure hi trivial
  · exact keeps_fail w.inv _

theorem keeps_evalDiv (w : D.Working depth scope head operands s held)
    (hr : ruleOf head operands = .ok .div) :
    D.Keeps s D.value ((evalDiv (evaluate setting depth) scope operands).run s) := by
  unfold evalDiv
  refine Keeps.bind (keeps_integerPair w (.inr hr)) ?_
  rintro ⟨a, b⟩ t _ hi _ _
  dsimp only
  split
  · refine Keeps.bind (keeps_ofHost hi _) ?_
    intro _ _ _ hi _ _
    exact keeps_fail_bind hi _ _
  · exact keeps_pure hi (D.plain rfl)

/-- An argument under the legacy rules is no closure. -/
theorem keeps_literalArgument (hi : D.Inv s) (form : Node) :
    D.Keeps s (fun v _ => v.capture? = none) ((literalArgument setting form).run s) := by
  unfold literalArgument
  split
  · exact keeps_pure hi rfl
  · exact keeps_pure hi rfl
  · split
    · exact keeps_pure hi rfl
    · exact keeps_fail hi _
  · exact keeps_failTelling hi _ _

theorem keeps_literalArguments : ∀ {operands : List Node} {s : State}, D.Inv s →
    D.Keeps s (fun values _ => ∀ v ∈ values, v.capture? = none)
      ((operands.mapM (literalArgument setting)).run s)
  | [], _, hi => keeps_pure hi fun _ hv => absurd hv List.not_mem_nil
  | form :: rest, s, hi => by
    rw [List.mapM_cons]
    refine Keeps.bind (keeps_literalArgument hi form) ?_
    intro v _ _ hi _ hv
    refine Keeps.bind (keeps_literalArguments hi) ?_
    intro values _ _ hi _ hvs
    exact keeps_pure hi (List.forall_mem_cons.mpr ⟨hv, hvs⟩)

/-- The arguments of a call are good, and the body may be evaluated in the scope they are bound
in. -/
theorem keeps_evalArguments {params : List String} {body : Node} {captured : ScopeId}
    (hi : D.Inv s) (hh : D.Home s scope) (hg : D.Good s (.closure params body captured))
    (h : setting.config.legacy = false →
      D.Through depth scope (fun _ => True) operands s held) :
    D.Keeps s (fun arguments t => (∀ v ∈ arguments.1, D.Good t v) ∧ D.Home t arguments.2)
      ((evalArguments setting (evaluate setting depth) scope captured operands).run s) := by
  unfold evalArguments
  split
  · next hm =>
    refine Keeps.bind (keeps_literalArguments hi) ?_
    intro values t _ hi hs hv
    exact keeps_pure hi
      ⟨fun v hmem => D.plain (hv v hmem), D.home_mono hs (D.share hm ‹_› hg)⟩
  · next hm =>
    have hm : setting.config.legacy = false := by simpa using hm
    refine Keeps.bind (keeps_mapM (g := id) (f := fun form => evaluate setting depth form scope)
      ?_ (fun _ => trivial) (h hm) hi hh) ?_
    · exact fun form s hk => hk.noting
    · intro values t _ hi hs hv
      obtain ⟨hi', hs', hh'⟩ := D.enter hm hi (D.good_mono hs hg)
      exact .value ⟨hi', hs', fun v hmem => D.good_mono hs' (hv v hmem), hh'⟩

theorem keeps_callName {name : String} (w : D.Working depth scope head operands s held)
    (hr : ruleOf head operands = .ok .call) (hn : nameOf? head = some name) :
    D.Keeps s D.value
      ((callName setting (evaluate setting depth) scope name operands).run s) := by
  unfold callName
  refine Keeps.bind (m := lookup? (some scope) name) (keeps_ofHost w.inv _) ?_
  intro r t he _ _ _
  obtain ⟨hl, rfl⟩ := of_run_ofHost he
  split
  · exact keeps_fail w.inv _
  · next params body captured =>
    refine Keeps.bind (m := permitted Arena.rootId) (keeps_ofHost w.inv _) ?_
    intro names t he _ _ _
    obtain ⟨hp, rfl⟩ := of_run_ofHost he
    dsimp only
    split
    · exact keeps_fail_bind w.inv _ _
    split
    · exact keeps_fail_bind w.inv _ _
    next hallowed harity =>
    have hc : Callable t scope name operands.length params body captured :=
      ⟨hl, ⟨names, hp, Decidable.byContradiction fun h => hallowed (not_or.mp h)⟩,
        Decidable.byContradiction harity⟩
    have hg : D.Good t (.closure params body captured) := D.found w.inv w.home hl
    refine Keeps.bind (keeps_evalArguments w.inv w.home hg fun hm =>
      w.through (.call hr hm hn hc)) ?_
    rintro ⟨values, callScope⟩ u ha hi _ ⟨hv, hh⟩
    refine Keeps.bind (keeps_bindAll hi hh fun pair hmem => hv _ (List.of_mem_zip hmem).2) ?_
    intro _ x hb hi hs _
    refine Keeps.bind (keeps_ofHost hi _) ?_
    intro shown y he hi' _ _
    obtain ⟨hshown, rfl⟩ := of_run_ofHost he
    refine Keeps.bind (keeps_log hi (.calling name shown callScope)) ?_
    intro _ z hlog hi hs' _
    cases hlog
    exact w.body (.intro hr hn hc ha hb hshown) hi (D.home_mono hs' (D.home_mono hs hh))
  · exact keeps_fail w.inv _

theorem keeps_evalCall (w : D.Working depth scope head operands s held)
    (hr : ruleOf head operands = .ok .call) :
    D.Keeps s D.value
      ((evalCall setting (evaluate setting depth) scope head operands).run s) := by
  unfold evalCall
  split
  · exact keeps_callName w hr rfl
  · exact keeps_callName w hr rfl
  · exact keeps_failTelling w.inv _ _

/-- The rule for a list, given that providing keeps the discipline. -/
theorem keeps_evalList (w : D.Working depth scope head operands s held)
    (hp : ruleOf head operands = .ok .provide →
      D.Keeps s D.value ((evalProvide scope operands).run s)) :
    D.Keeps s D.value
      ((evalList setting (evaluate setting depth) scope head operands).run s) := by
  cases hr : ruleOf head operands with
  | error fault =>
    rw [evalList_of_fault hr]
    exact keeps_throw w.inv _
  | ok rule =>
    rw [evalList_of_rule hr]
    cases rule with
    | balance => exact keeps_evalBalance w.inv _
    | transfer => exact keeps_evalTransfer w hr
    | provide => exact hp hr
    | define => exact keeps_evalDefine w hr
    | lambda => exact keeps_evalLambda w.inv w.home _
    | println => exact keeps_evalPrintln w hr
    | add =>
      refine Keeps.bind (keeps_integerOperands w (.inl hr)) ?_
      intro _ _ _ hi _ _
      exact keeps_pure hi (D.plain rfl)
    | sub =>
      refine Keeps.bind (keeps_integerPair w (.inl hr)) ?_
      rintro ⟨a, b⟩ _ _ hi _ _
      exact keeps_pure hi (D.plain rfl)
    | mul =>
      refine Keeps.bind (keeps_integerOperands w (.inr hr)) ?_
      intro _ _ _ hi _ _
      exact keeps_pure hi (D.plain rfl)
    | div => exact keeps_evalDiv w hr
    | call => exact keeps_evalCall w hr

theorem keeps_lookup (hi : D.Inv s) (hh : D.Home s scope) (name : String) :
    D.Keeps s D.value ((lookup (some scope) name).run s) := by
  unfold lookup
  refine Keeps.bind (m := lookup? (some scope) name) (keeps_ofHost hi _) ?_
  intro r t he _ _ _
  obtain ⟨hl, rfl⟩ := of_run_ofHost he
  cases r with
  | none => exact keeps_fail hi _
  | some v => exact keeps_pure hi (D.found hi hh hl)

/-- The rule for a form, given that a list works on what keeps the discipline and that providing
keeps it. -/
theorem keeps_evalForm {form : Node} (hi : D.Inv s) (hh : D.Home s scope)
    (hw : ∀ head operands, form = .list (head :: operands) →
      D.Working depth scope head operands s held)
    (hp : ∀ head operands, form = .list (head :: operands) → ruleOf head operands = .ok .provide →
      D.Keeps s D.value ((evalProvide scope operands).run s)) :
    D.Keeps s D.value ((evalForm setting (evaluate setting depth) scope form).run s) := by
  unfold evalForm
  split
  · exact keeps_pure hi (D.plain rfl)
  · exact keeps_lookup hi hh _
  · split
    · exact keeps_pure hi (D.plain rfl)
    · exact keeps_fail hi _
  · exact keeps_fail hi _
  · exact keeps_evalList (hw _ _ rfl) (hp _ _ rfl)

end Rules

/-! ## 5. Evaluation -/

/-- **One evaluation keeps what those it goes on to keep**, given that providing keeps the
discipline. -/
theorem keepsAt_of_next {p : Point} (hi : D.Inv p.state) (hh : D.Home p.state p.scope)
    (hp : ∀ head operands s, p.form = .list (head :: operands) →
      ruleOf head operands = .ok .provide → D.Inv s → D.Home s p.scope →
        D.Keeps s D.value ((evalProvide p.scope operands).run s))
    (hnext : ∀ q, Next setting p q → D.Inv q.state → D.Home q.state q.scope → D.KeepsAt q) :
    D.KeepsAt p := by
  obtain ⟨depth, form, scope, s, held⟩ := p
  cases depth with
  | zero => exact .fault ⟨hi, D.refl s⟩
  | succ depth =>
    refine Keeps.bind (keeps_countStep hi setting.config.maxSteps) ?_
    intro _ t hs hi' hstep _
    have hh' : D.Home t scope := D.home_mono hstep hh
    have hw : ∀ head operands, form = .list (head :: operands) →
        D.Working depth scope head operands t held := by
      rintro head operands rfl
      exact ⟨hi', hh', fun hw q hq => hnext q (.inl (.intro hs hw hq)),
        fun hq => hnext _ (.inr (.intro hs hq))⟩
    exact keeps_evalForm hi' hh' hw fun head operands hform hr =>
      hp head operands t hform hr hi' hh'

/-- **Every evaluation keeps the discipline.** -/
theorem keepsAt (hp : D.Permits) {p : Point} (hi : D.Inv p.state) (hh : D.Home p.state p.scope) :
    D.KeepsAt p := by
  refine keepsAt_of_next hi hh (fun _ _ _ _ _ hi hh => keeps_evalProvide (hp _) hi hh _) ?_
  intro q hn hi hh
  have hlt := hn.depth
  exact keepsAt hp hi hh
termination_by p.depth
decreasing_by omega

theorem evaluate (hp : D.Permits) (hi : D.Inv s) {scope : ScopeId} (hh : D.Home s scope)
    (depth : Nat) (form : Node) :
    D.Keeps s D.value ((Run.evaluate setting depth form scope).run s) :=
  keepsAt hp (p := ⟨depth, form, scope, s, []⟩) hi hh

/-! ## 6. Runs -/

/-- What a discipline says of a point: the invariant holds, the form may be evaluated where it is,
and the values held are good. -/
structure Sound (D : Discipline setting) (p : Point) : Prop where
  inv : D.Inv p.state
  home : D.Home p.state p.scope
  held : ∀ v ∈ p.held, D.Good p.state v

theorem forall_good_append {t : State} {held : List Value} {v : Value} (hs : D.Step s t)
    (hheld : ∀ w ∈ held, D.Good s w) (hv : D.Good t v) : ∀ w ∈ held ++ [v], D.Good t w :=
  List.forall_mem_append.mpr
    ⟨fun v hmem => D.good_mono hs (hheld v hmem), List.forall_mem_singleton.mpr hv⟩

theorem sound_of_inTurn (hp : D.Permits) {depth : Nat} {scope : ScopeId}
    {accepted : Value → Prop} {forms : List Node} {held : List Value} {q : Point}
    (h : InTurn setting depth scope accepted forms s held q) (hi : D.Inv s)
    (hh : D.Home s scope) (hheld : ∀ v ∈ held, D.Good s v) : D.Sound q := by
  induction h with
  | first => exact ⟨hi, hh, hheld⟩
  | later he _ _ ih =>
    obtain ⟨hi', hs, hv⟩ := (evaluate hp hi hh _ _).of_ok he
    exact ih hi' (D.home_mono hs hh) (forall_good_append hs hheld hv)

/-- What keeps the discipline in the operands of a call keeps it up to the body. -/
theorem keeps_enters {depth : Nat} {scope : ScopeId} {head : Node} {operands : List Node}
    {held : List Value} {q : Point} (h : Enters setting depth scope head operands s held q)
    (hi : D.Inv s) (hh : D.Home s scope)
    (hw : ∀ {worked : List Node} {accepted : Value → Prop},
      Works setting s scope head operands worked accepted →
        D.Through depth scope accepted worked s held) :
    D.Inv q.state ∧ D.Step s q.state ∧ D.Home q.state q.scope := by
  obtain ⟨hr, hn, hc, ha, hb, _⟩ := h
  obtain ⟨hi₁, hs₁, hv, hh₁⟩ :=
    (keeps_evalArguments hi hh (D.found hi hh hc.found) fun hm => hw (.call hr hm hn hc)).of_ok ha
  obtain ⟨hi₂, hs₂, -⟩ :=
    (keeps_bindAll hi₁ hh₁ fun pair hmem => hv _ (List.of_mem_zip hmem).2).of_ok hb
  obtain ⟨hi₃, hs₃⟩ := D.log (.calling _ _ _) hi₂
  have hs := D.trans hs₂ hs₃
  exact ⟨hi₃, D.trans hs₁ hs, D.home_mono hs hh₁⟩

theorem sound_of_enters (hp : D.Permits) {depth : Nat} {scope : ScopeId} {head : Node}
    {operands : List Node} {held : List Value} {q : Point}
    (h : Enters setting depth scope head operands s held q) (hi : D.Inv s)
    (hh : D.Home s scope) (hheld : ∀ v ∈ held, D.Good s v) : D.Sound q := by
  obtain ⟨hi', hs, hh'⟩ := keeps_enters h hi hh fun _ _ _ hi hh => keepsAt hp hi hh
  cases h with
  | intro => exact ⟨hi', hh', fun v hmem => D.good_mono hs (hheld v hmem)⟩

/-- From a call to its body a step is made, if its operands keep the discipline. -/
theorem step_of_body {p q : Point} (hi : D.Inv p.state) (hh : D.Home p.state p.scope)
    (hb : Body setting p q)
    (ho : ∀ o, Operand setting p o → D.Inv o.state → D.Home o.state o.scope → D.KeepsAt o) :
    D.Step p.state q.state := by
  obtain ⟨hs, hq⟩ := hb
  obtain ⟨hi', hs', -⟩ := (keeps_countStep hi _).of_ok hs
  obtain ⟨-, hstep, -⟩ := keeps_enters hq hi' (D.home_mono hs' hh) fun hw o hin =>
    ho o (.intro hs hw hin)
  exact D.trans hs' hstep

theorem Sound.next (hp : D.Permits) {p q : Point} (h : D.Sound p) (hn : Next setting p q) :
    D.Sound q := by
  rcases hn with ⟨hs, _, hq⟩ | ⟨hs, hq⟩
  · obtain ⟨hi, hstep, -⟩ := (keeps_countStep h.inv _).of_ok hs
    exact sound_of_inTurn hp hq hi (D.home_mono hstep h.home)
      fun v hmem => D.good_mono hstep (h.held v hmem)
  · obtain ⟨hi, hstep, -⟩ := (keeps_countStep h.inv _).of_ok hs
    exact sound_of_enters hp hq hi (D.home_mono hstep h.home)
      fun v hmem => D.good_mono hstep (h.held v hmem)

theorem Sound.visits (hp : D.Permits) {p q : Point} (h : D.Sound p)
    (hv : Visits setting p q) : D.Sound q := by
  induction hv with
  | refl => exact h
  | tail _ hn ih => exact ih.next hp hn

variable {start : State} {held : List Value}

/-- Between the forms of a script the invariant holds, and the values so far are good. -/
theorem between (hp : D.Permits) (hi : D.Inv start) (hh : D.Home start Arena.rootId)
    (h : Between setting start s held) :
    D.Inv s ∧ D.Step start s ∧ ∀ v ∈ held, D.Good s v := by
  induction h with
  | start => exact ⟨hi, D.refl _, fun _ hv => absurd hv List.not_mem_nil⟩
  | logged _ record ih =>
    obtain ⟨hi, hs, hheld⟩ := ih
    obtain ⟨hi', hs'⟩ := D.log record hi
    exact ⟨hi', D.trans hs hs', fun v hmem => D.good_mono hs' (hheld v hmem)⟩
  | value _ he ih =>
    obtain ⟨hi, hs, hheld⟩ := ih
    obtain ⟨hi', hs', hv⟩ := (evaluate hp hi (D.home_mono hs hh) _ _).of_ok he
    exact ⟨hi', D.trans hs hs', forall_good_append hs' hheld hv⟩
  | fault _ he ih =>
    obtain ⟨hi, hs, hheld⟩ := ih
    obtain ⟨hi', hs'⟩ := (evaluate hp hi (D.home_mono hs hh) _ _).of_error he
    exact ⟨hi', D.trans hs hs', fun v hmem => D.good_mono hs' (hheld v hmem)⟩

/-- Every point that a run passes through is sound. -/
theorem passes (hp : D.Permits) (hi : D.Inv start) (hh : D.Home start Arena.rootId) {q : Point}
    (h : Passes setting start q) : D.Sound q := by
  obtain ⟨form, s, held, hb, hv⟩ := h
  obtain ⟨hi', hs, hheld⟩ := between hp hi hh hb
  exact Sound.visits hp ⟨hi', D.home_mono hs hh, hheld⟩ hv

/-- **Every state that a run reaches has the invariant, and the values held there are good.** -/
theorem reaches (hp : D.Permits) (hi : D.Inv start) (hh : D.Home start Arena.rootId)
    (h : Reaches setting start s held) : D.Inv s ∧ ∀ v ∈ held, D.Good s v := by
  cases h with
  | before h =>
    have hq := passes hp hi hh h
    exact ⟨hq.inv, hq.held⟩
  | value h he =>
    have hq := passes hp hi hh h
    obtain ⟨hi', hs, hv⟩ := (keepsAt hp hq.inv hq.home).of_ok he
    exact ⟨hi', forall_good_append hs hq.held hv⟩
  | fault h he =>
    have hq := passes hp hi hh h
    obtain ⟨hi', hs⟩ := (keepsAt hp hq.inv hq.home).of_error he
    exact ⟨hi', fun v hmem => D.good_mono hs (hq.held v hmem)⟩

end Discipline

end LedgerScript.Run
