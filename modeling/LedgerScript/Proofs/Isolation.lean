/-
# Captured scopes stay empty

Without the legacy rules a closure captures a scope that is made for it, and a call evaluates the
body in a scope that is made for the call, below the captured one.  So on the way up from any scope
captured scopes and scopes that forms are evaluated in take turns: scopes at an even level are
evaluated in, scopes at an odd level are captured (`layered`).  Only scopes that forms are
evaluated in are ever written to, hence captured ones stay as empty as they were made.

Together with the frame of an evaluation this isolates calls: what a body binds or permits stays
in the scope of that one call.
-/
import LedgerScript.Proofs.Frame

namespace LedgerScript

/-! ## 1. Levels -/

namespace Arena

variable {arena arena' : Arena} {id : Int} {m n : Nat}

/-- How many scopes there are around a scope. -/
inductive Level (arena : Arena) : Int → Nat → Prop
  | root {id : Int} {scope : Scope} (hs : arena.scope? id = some scope)
    (hp : scope.parent = none) : Level arena id 0
  | child {id parent : Int} {scope : Scope} {n : Nat} (hs : arena.scope? id = some scope)
    (hp : scope.parent = some parent) (hl : Level arena parent n) : Level arena id (n + 1)

theorem Level.unique (hm : arena.Level id m) (hn : arena.Level id n) : m = n := by
  induction hm generalizing n with
  | root hs hp =>
    cases hn with
    | root => rfl
    | child hs' hp' _ =>
      rw [hs] at hs'
      cases hs'
      rw [hp] at hp'
      cases hp'
  | child hs hp _ ih =>
    cases hn with
    | root hs' hp' =>
      rw [hs] at hs'
      cases hs'
      rw [hp] at hp'
      cases hp'
    | child hs' hp' hl =>
      rw [hs] at hs'
      cases hs'
      rw [hp] at hp'
      cases hp'
      rw [ih hl]

/-- The scopes of an arena are still there, below the same parents. -/
def Grows (arena arena' : Arena) : Prop :=
  ∀ id scope, arena.scope? id = some scope →
    ∃ scope', arena'.scope? id = some scope' ∧ scope'.parent = scope.parent

theorem Level.mono (hg : arena.Grows arena') (hl : arena.Level id n) : arena'.Level id n := by
  induction hl with
  | root hs hp =>
    obtain ⟨scope', hs', hp'⟩ := hg _ _ hs
    exact .root hs' (hp'.trans hp)
  | child hs hp _ ih =>
    obtain ⟨scope', hs', hp'⟩ := hg _ _ hs
    exact .child hs' (hp'.trans hp) ih

theorem grows_newScope (arena : Arena) (parent : Option ScopeId) :
    arena.Grows (arena.newScope parent).2 :=
  fun _ scope hs => ⟨scope, scope?_newScope_of_some parent hs, rfl⟩

theorem grows_modify {change : Scope → Scope} (hc : ∀ scope, (change scope).parent = scope.parent)
    (h : arena.modify id change = .ok arena') : arena.Grows arena' :=
  fun _ _ hs => exists_scope?_modify (R := fun old new => new.parent = old.parent)
    (fun _ => rfl) hc h hs

/-- A scope that is made below another is one level deeper. -/
theorem level_newScope {parent : ScopeId} (hl : arena.Level parent n) :
    (arena.newScope (some parent)).2.Level arena.scopes.size (n + 1) := by
  have hs : (arena.newScope (some parent)).2.scope? arena.scopes.size =
      some { parent := some parent } := by rw [scope?_newScope, if_pos rfl]
  exact .child hs rfl (hl.mono (grows_newScope arena _))

/-! ## 2. Layers -/

/-- A scope with no bindings and no permitted names. -/
def Bare (scope : Scope) : Prop := scope.bindings = [] ∧ scope.permitted = []

/-- Every scope has a level, and those at an odd level are bare. -/
def Layered (arena : Arena) : Prop :=
  ∀ id scope, arena.scope? id = some scope → ∃ n, arena.Level id n ∧ (n % 2 = 1 → Bare scope)

theorem Layered.newScope {parent : ScopeId} (h : arena.Layered) (hl : arena.Level parent n) :
    (arena.newScope (some parent)).2.Layered := by
  intro id scope hs
  rw [scope?_newScope] at hs
  split at hs
  · next hid =>
    subst hid
    cases hs
    exact ⟨n + 1, level_newScope hl, fun _ => ⟨rfl, rfl⟩⟩
  · obtain ⟨m, hm, hb⟩ := h id scope hs
    exact ⟨m, hm.mono (grows_newScope arena _), hb⟩

/-- Scopes at an even level may be changed. -/
theorem Layered.modify {change : Scope → Scope}
    (hc : ∀ scope, (change scope).parent = scope.parent) (h : arena.Layered)
    (hl : arena.Level id n) (hn : n % 2 = 0) (hm : arena.modify id change = .ok arena') :
    arena'.Layered := by
  have hg := grows_modify hc hm
  intro other scope hs
  rw [scope?_modify hm] at hs
  split at hs
  · next hid =>
    subst hid
    exact ⟨n, hl.mono hg, fun hodd => by omega⟩
  · obtain ⟨m, hm, hb⟩ := h other scope hs
    exact ⟨m, hm.mono hg, hb⟩

end Arena

namespace Run

variable {setting : Setting}

/-- **Forms are evaluated at even levels, and closures capture scopes at odd levels.** -/
def layered (hm : setting.config.legacy = false) : ArenaDiscipline setting where
  Inv a := a.Layered
  Home a id := ∃ n, a.Level id n ∧ n % 2 = 0
  Captured a id := ∃ n, a.Level id n ∧ n % 2 = 1
  Step a b := a.Grows b
  refl a _ scope hs := ⟨scope, hs, rfl⟩
  trans h₁ h₂ id scope hs := by
    obtain ⟨scope', hs', hp'⟩ := h₁ id scope hs
    obtain ⟨scope'', hs'', hp''⟩ := h₂ id scope' hs'
    exact ⟨scope'', hs'', hp''.trans hp'⟩
  home_mono hg h := h.imp fun _ h => ⟨h.1.mono hg, h.2⟩
  captured_mono hg h := h.imp fun _ h => ⟨h.1.mono hg, h.2⟩
  define {a b id name v} hi hh hd := by
    obtain ⟨n, hl, hn⟩ := hh
    have hc : ∀ scope : Scope,
        { scope with bindings := scope.bindings.put name v }.parent = scope.parent := fun _ => rfl
    exact ⟨hi.modify hc hl hn hd, Arena.grows_modify hc hd⟩
  capture hi hh := by
    obtain ⟨n, hl, hn⟩ := hh
    exact ⟨hi.newScope hl, Arena.grows_newScope _ _, n + 1, Arena.level_newScope hl, by omega⟩
  enter _ hi hc := by
    obtain ⟨n, hl, hn⟩ := hc
    exact ⟨hi.newScope hl, Arena.grows_newScope _ _, n + 1, Arena.level_newScope hl, by omega⟩
  share hm' _ _ := by rw [hm] at hm'; cases hm'

theorem layered_permits (hm : setting.config.legacy = false) :
    (layered hm).toDiscipline.Permits := by
  intro scope
  refine ArenaDiscipline.PermitsIn.toDiscipline ?_
  intro a b name hi hh hp
  obtain ⟨n, hl, hn⟩ := hh
  have hc := Arena.parent_permit name
  exact ⟨hi.modify hc hl hn hp, Arena.grows_modify hc hp⟩

/-- The root of a new run is at level zero. -/
theorem level_initial (ledger : Ledger) (bindings : Table String Value) (listener : Bool) :
    (State.initial ledger bindings listener).arena.Level Arena.rootId 0 := .root rfl rfl

theorem layered_initial (ledger : Ledger) (bindings : Table String Value) (listener : Bool) :
    (State.initial ledger bindings listener).arena.Layered := by
  intro id scope hs
  rw [scope?_initial] at hs
  split at hs
  · next hid =>
    subst hid
    exact ⟨0, level_initial ledger bindings listener, fun h => nomatch h⟩
  · cases hs

/-! ## 3. Isolation -/

/-- **Calls are isolated.**  Without the legacy rules, an evaluation in one scope leaves the
bindings, the permitted names and the parent of every other scope that there is as they are,
whatever it comes to.  Closures belong to the run that makes them, so a run starts from bindings
without any; in every state that it reaches, each closure that is bound anywhere or held captures a
scope with no bindings and no permitted names. -/
theorem calls_isolated {setting : Setting} (hm : setting.config.legacy = false)
    {bindings : Table String Value} (hf : ClosureFree bindings) (ledger : Ledger)
    (listener : Bool) :
    (∀ s depth form here other scope, s.arena.scope? other = some scope → other ≠ here →
      (stateOf ((evaluate setting depth form here).run s)).arena.scope? other = some scope) ∧
    ∀ s held, Reaches setting (.initial ledger bindings listener) s held →
      ∀ v captured, (v ∈ held ∨ ∃ id name, s.arena.Binds id name v) →
        v.capture? = some captured →
          ∃ scope, s.arena.scope? captured = some scope ∧
            scope.bindings = [] ∧ scope.permitted = [] := by
  constructor
  · intro s depth form here other scope hs hne
    rw [← hs]
    refine evaluate_frame (Arena.lt_size_of_scope? hs) ?_ (Ne.symm hne) depth form
    intro hm'
    rw [hm] at hm'
    cases hm'
  · intro s held hs v captured hv hc
    have hi : (layered hm).toDiscipline.Inv (.initial ledger bindings listener) :=
      ArenaDiscipline.holds_initial hf (layered_initial ledger bindings listener)
    have hh : (layered hm).toDiscipline.Home (.initial ledger bindings listener) Arena.rootId :=
      ⟨0, level_initial ledger bindings listener, rfl⟩
    obtain ⟨hi', hheld⟩ := Discipline.reaches (layered_permits hm) hi hh hs
    have hgood : (layered hm).toDiscipline.Good s v := by
      rcases hv with hv | ⟨id, name, hb⟩
      · exact hheld v hv
      · exact hi'.bound hb
    obtain ⟨n, hl, hodd⟩ := hgood captured hc
    have hsome : ∃ scope, s.arena.scope? captured = some scope := by
      cases hl with
      | root hs _ => exact ⟨_, hs⟩
      | child hs _ _ => exact ⟨_, hs⟩
    obtain ⟨scope, hscope⟩ := hsome
    obtain ⟨m, hm, hbare⟩ := hi'.inv captured scope hscope
    exact ⟨scope, hscope, hbare (hl.unique hm ▸ hodd)⟩

/-- A contract without the legacy rules and without a step limit. -/
def modern : Setting := { bank with config := { bank.config with maxSteps := none } }

/-- `(define f (lambda (x) (define y x)))`. -/
def definition : Node :=
  .list [.ident "define", .ident "f",
    .list [.ident "lambda", .list [.ident "x"], .list [.ident "define", .ident "y", .ident "x"]]]

/-- The state after the definition. -/
def afterDefinition : State :=
  stateOf ((modern.point definition (.initial {} [] false) []).outcome modern)

/-- The state after `(f $me)`. -/
def afterCall : State :=
  stateOf ((modern.point (.list [.ident "f", .operator "$me"]) afterDefinition [.nil]).outcome
    modern)

/-- The call binds `x` and `y` in its own scope, and none of them in the scope that the closure
captured; `provide` in the scope of the call leaves the root alone. -/
theorem calls_isolated_after_call :
    Reaches modern (.initial {} [] false) afterCall [.nil, .nil] ∧
    afterCall.arena.Binds 2 "y" (.account ⟨"bank"⟩) ∧
    (stateOf ((evaluate modern 1 (.list [.ident "provide", .ident "f"]) 2).run
      afterCall)).arena.scope? 0 = afterCall.arena.scope? 0 ∧
    ∃ scope, afterCall.arena.scope? 1 = some scope ∧ scope.bindings = [] ∧
      scope.permitted = [] := by
  have hb : Between modern (.initial {} [] false) afterDefinition [.nil] :=
    @Between.value _ _ _ _ _ definition _ .start rfl
  have hr : Reaches modern (.initial {} [] false) afterCall [.nil, .nil] :=
    .value (hb.passes (.list [.ident "f", .operator "$me"])) rfl
  have hf : afterCall.arena.Binds 0 "f" (.closure ["x"]
      (.list [.ident "define", .ident "y", .ident "x"]) 1) := ⟨_, rfl, rfl⟩
  obtain ⟨hframe, hbare⟩ :=
    @calls_isolated modern rfl _ (fun _ h => absurd h List.not_mem_nil) {} false
  refine ⟨hr, ⟨_, rfl, rfl⟩, hframe _ _ _ 2 0 _ rfl (by decide), ?_⟩
  exact hbare afterCall _ hr _ 1 (.inr ⟨0, "f", hf⟩) rfl

end Run

end LedgerScript
