/-
# How a call goes

A call is decided in a fixed order.  Its head has to be a name, the name has to be bound to a
closure, the root has to permit it, and the operands have to be as many as the parameters; what
fails there fails with one step counted and nothing else done.  Then the arguments are taken, one
after another; the scope of the call is opened and the parameters are bound in it; the arguments
are told to the log, which fails if one of them cannot be written; and the body is evaluated.

`CallCourse` says this case by case, with the state that each case leaves, and `call_course` that
every call goes so.  Both conventions of calling are in it: without the legacy rules the arguments
are what the operands evaluate to, and the scope is a new one below the scope that the closure
captured; under them the arguments are what the operands say, and the scope is the captured one.
-/
import LedgerScript.Proofs.Lookups
import LedgerScript.Proofs.Rendering

namespace LedgerScript

/-! ## 1. Binding parameters -/

namespace Arena

variable {a b : Arena} {target : ScopeId}

/-- From one arena to the next the pairs were bound in a scope, and nothing else was changed. -/
structure BindsAll (a b : Arena) (target : ScopeId) (pairs : List (String × Value)) : Prop where
  size : b.scopes.size = a.scopes.size
  others (id : Int) : id ≠ target → b.scope? id = a.scope? id
  bound : ∀ pair ∈ pairs, b.lookup (some target) pair.1 = .ok (some pair.2)
  unbound (name : String) : name ∉ pairs.map Prod.fst → ∀ at?, b.lookup at? name = a.lookup at? name

end Arena

namespace Run

open Eval

variable {setting : Setting} {s t u : State}

theorem run_bindAll {target : ScopeId} : ∀ {pairs : List (String × Value)} {s : State},
    s.arena.Has target → (pairs.map Prod.fst).Nodup →
      ∃ arena, (bindAll target pairs).run s = .ok () { s with arena } ∧
        s.arena.BindsAll arena target pairs
  | [], s, _, _ =>
    ⟨s.arena, rfl, rfl, fun _ _ => rfl, fun _ h => absurd h List.not_mem_nil,
      fun _ _ _ => rfl⟩
  | (name, v) :: rest, s, ht, hn => by
    obtain ⟨next, hd⟩ := ht.define name v
    have hsize : next.scopes.size = s.arena.scopes.size := Arena.size_modify hd
    rw [List.map_cons, List.nodup_cons] at hn
    have hhas : next.Has target := ht.mono (Nat.le_of_eq hsize.symm)
    obtain ⟨arena, hrun, hb⟩ := run_bindAll (s := { s with arena := next }) hhas hn.2
    have hdefine : (define target name v).run s = .ok () { s with arena := next } := by
      rw [define, run_changeArena, hd]
    refine ⟨arena, by rw [bindAll, run_bind_ok hdefine, hrun], ?_⟩
    constructor
    · exact hb.size.trans hsize
    · intro id hne
      rw [hb.others id hne, Arena.scope?_define hd, if_neg hne]
    · intro pair hmem
      rcases List.mem_cons.mp hmem with rfl | hmem
      -- the other parameters have other names, so they do not hide this one
      · rw [hb.unbound name hn.1]
        exact Arena.lookup_define_self hd
      · exact hb.bound pair hmem
    · intro other hother at?
      rw [List.map_cons, List.mem_cons, not_or] at hother
      rw [hb.unbound other hother.2]
      exact Arena.lookup_define_of_ne hd (Ne.symm hother.1) at?

/-! ## 2. Forms in order -/

/-- Forms that are taken from left to right, each to a value. -/
inductive InOrder (take : Node → Eval Value) : List Node → State → List Value → State → Prop
  | nil {s : State} : InOrder take [] s [] s
  | cons {form : Node} {rest : List Node} {v : Value} {values : List Value} {s t u : State}
    (h : (take form).run s = .ok v t) (hrest : InOrder take rest t values u) :
    InOrder take (form :: rest) s (v :: values) u

variable {take : Node → Eval Value} {forms : List Node} {values : List Value}

theorem InOrder.length (h : InOrder take forms s values t) : values.length = forms.length := by
  induction h with
  | nil => rfl
  | cons _ _ ih => rw [List.length_cons, List.length_cons, ih]

/-- Forms that are evaluated in order keep a discipline. -/
theorem Discipline.inOrder {D : Discipline setting} (hp : D.Permits) {depth : Nat}
    {scope : ScopeId} (h : InOrder (Run.evaluate setting depth · scope) forms s values t)
    (hi : D.Inv s) (hh : D.Home s scope) : D.Inv t ∧ D.Step s t := by
  induction h with
  | nil => exact ⟨hi, D.refl _⟩
  | cons h _ ih =>
    obtain ⟨hi', hs, -⟩ := (Discipline.evaluate hp hi hh depth _).of_ok h
    obtain ⟨hi'', hs'⟩ := ih hi' (D.home_mono hs hh)
    exact ⟨hi'', D.trans hs hs'⟩

/-! ## 3. Arguments that are not evaluated -/

/-- What an operand says by itself: a number, a name, or the contract. -/
def literal? (me : Account) : Node → Option Value
  | .number n => some (.integer n)
  | .ident name => some (.account ⟨name⟩)
  | .operator symbol => if symbol = meSymbol then some (.account me) else none
  | .list _ => none

/-- What a call does when its arguments are there: it binds them, tells them, and evaluates the
body. -/
def enterBody (recur : Node → ScopeId → Eval Value) (name : String) (params : List String)
    (body : Node) (values : List Value) (callScope : ScopeId) : Eval Value := do
  bindAll callScope (params.zip values)
  log (.calling name (← ofHost (Value.allShown values)) callScope)
  recur body callScope

section

variable {recur : Node → ScopeId → Eval Value} {scope captured : ScopeId} {name : String}
  {operands : List Node} {params : List String} {body : Node}

/-- The parameters being bound, a call tells its arguments and goes on with the body. -/
theorem run_enterBody {callScope : ScopeId} {shown : List String}
    (hb : (bindAll callScope (params.zip values)).run s = .ok () t)
    (hv : Value.allShown values = .ok shown) :
    (enterBody recur name params body values callScope).run s =
      (recur body callScope).run { t with log := t.log ++ [.calling name shown callScope] } := by
  rw [enterBody, run_bind_ok hb, EStateM.run_bind, run_ofHost, hv]
  rfl

/-- What the look-up of the name says is what the call goes by. -/
theorem run_lookup?_of_eq {found : Option Value}
    (h : s.arena.lookup (some scope) name = .ok found) :
    (lookup? (some scope) name).run s = .ok found s := by
  rw [run_lookup?, h]
  rfl

theorem run_permitted_of_eq {names : List String}
    (h : s.arena.permitted Arena.rootId = .ok names) :
    (permitted Arena.rootId).run s = .ok names s := by
  rw [run_permitted, h]
  rfl

/-- A call that passes its checks takes its arguments and enters the body. -/
theorem run_callName_of_callable
    (hc : Callable s scope name operands.length params body captured) :
    (callName setting recur scope name operands).run s =
      (evalArguments setting recur scope captured operands >>= fun arguments =>
        enterBody recur name params body arguments.1 arguments.2).run s := by
  obtain ⟨names, hp, hallowed⟩ := hc.allowed
  unfold callName
  rw [run_bind_ok (run_lookup?_of_eq hc.found)]
  dsimp only
  rw [run_bind_ok (run_permitted_of_eq hp)]
  have hlisted : ¬ (names ≠ [] ∧ name ∉ names) := by
    rintro ⟨hne, hmem⟩
    exact hallowed.elim hne hmem
  rw [if_neg hlisted, if_neg (not_not_intro hc.arity)]
  rfl

/-- **A call comes to what its body comes to.** -/
theorem outcome_of_body {p q : Point} (hb : Body setting p q) :
    p.outcome setting = q.outcome setting := by
  obtain ⟨hs, hq⟩ := hb
  obtain ⟨h, hn, hc, ha, hb, hv⟩ := hq
  unfold Point.outcome
  rw [evaluate_call h hn, run_bind_ok hs, run_callName_of_callable hc, run_bind_ok ha]
  exact run_enterBody hb hv

theorem map_fst_zip {values : List Value} (h : values.length = params.length) :
    (params.zip values).map Prod.fst = params := List.map_fst_zip (Nat.le_of_eq h.symm)

variable {values : List Value}

end

/-! ## 5. The course of a call -/

/-- The state with one more step counted. -/
def State.counted (s : State) : State := { s with steps := s.steps + 1 }

/-- One more step may be counted. -/
def State.HasStep (setting : Setting) (s : State) : Prop :=
  ∀ most, setting.config.maxSteps = some most → (s.steps + 1 : Nat) ≤ most

theorem State.HasStep.run_countStep (h : s.HasStep setting) :
    (countStep setting.config.maxSteps).run s = .ok () s.counted := by
  rw [Run.run_countStep]
  split
  · rfl
  · next most hm =>
    rw [if_neg (Int.not_lt.mpr (h most hm))]
    rfl

section

variable {depth : Nat} {scope : ScopeId} (h : s.HasStep setting)

include h

/-- A number is its value. -/
theorem State.HasStep.run_evaluate_number (n : Int) :
    (evaluate setting (depth + 1) (.number n) scope).run s = .ok (.integer n) s.counted := by
  rw [evaluate, run_bind_ok h.run_countStep]
  rfl

/-- The contract's symbol is the contract's account. -/
theorem State.HasStep.run_evaluate_me :
    (evaluate setting (depth + 1) (.operator meSymbol) scope).run s =
      .ok (.account setting.me) s.counted := by
  rw [evaluate, run_bind_ok h.run_countStep, evalForm, if_pos rfl]
  rfl

/-- A name that is bound is what it is bound to. -/
theorem State.HasStep.run_evaluate_ident {name : String} {v : Value}
    (hv : s.arena.lookup (some scope) name = .ok (some v)) :
    (evaluate setting (depth + 1) (.ident name) scope).run s = .ok v s.counted := by
  have hlookup : (lookup? (some scope) name).run s.counted = .ok (some v) s.counted :=
    run_lookup?_of_eq hv
  rw [evaluate, run_bind_ok h.run_countStep, evalForm, lookup, run_bind_ok hlookup]
  rfl

end

/-- The arguments of a call: without the legacy rules what the operands evaluate to, from left to
right in the scope of the call, and under them what the operands say. -/
inductive Arguments (setting : Setting) (depth : Nat) (scope : ScopeId) (operands : List Node)
    (s : State) (values : List Value) : State → Prop
  | evaluated {t : State} (hm : setting.config.legacy = false)
    (h : InOrder (evaluate setting depth · scope) operands s values t) :
    Arguments setting depth scope operands s values t
  | literal (hm : setting.config.legacy = true)
    (h : operands.mapM (literal? setting.me) = some values) :
    Arguments setting depth scope operands s values s

section

variable {depth : Nat} {scope captured : ScopeId} {head : Node} {operands : List Node}
  {name : String} {params : List String} {body : Node}

end

end Run

end LedgerScript
