/-
# The two conventions of calling

A neutral script does the same under both conventions of calling (`run_neutral`), though the
arenas of its two runs have different scopes.  Its forms are evaluated at the root, where they
match one after another (`matches_evaluate`); the arenas stay aligned meanwhile, and the world
grows by a pair of scopes whenever a closure is made.
-/
import LedgerScript.Proofs.Neutral
import LedgerScript.Proofs.Sequence

namespace LedgerScript

namespace Run

open Eval Kinship

variable {setting : Setting} {F : Node → Prop} {w : Set Capture}

/-! ## 1. Changes of the root -/

section

variable {name : String} {operands : List Node}

theorem matches_permitted :
    (matching (Aligned F)).Corresponds w (fun _ => Eq) (permitted Arena.rootId)
      (permitted Arena.rootId) := by
  intro s t h
  obtain ⟨names, hs, ht⟩ := h.arena.permitted
  rw [run_permitted_of_eq hs, run_permitted_of_eq ht]
  exact .value le_rfl h rfl

/-- A change of both roots that is possible and keeps the arenas aligned. -/
theorem matches_changeArena {change change' : Arena → Except HostFault Arena}
    (h : ∀ a b, Aligned F w a b →
      ∃ a' b', change a = .ok a' ∧ change' b = .ok b' ∧ Aligned F w a' b') :
    (matching (Aligned F)).Corresponds w (fun _ _ _ => True) (changeArena change)
      (changeArena change') := by
  intro s t hst
  obtain ⟨a, b, ha, hb, hab⟩ := h _ _ hst.arena
  rw [run_changeArena, run_changeArena, ha, hb]
  exact .value le_rfl ⟨hab, hst.ledger, hst.output, hst.sink⟩ trivial

theorem matches_define {v v' : Value} (hv : v.Paired F w v') :
    (matching (Aligned F)).Corresponds w (fun _ _ _ => True)
      (define Arena.rootId name v) (define Arena.rootId name v') := by
  refine matches_changeArena fun a b h => ?_
  obtain ⟨a', ha⟩ := h.left.tree.has_root.define name v
  obtain ⟨b', hb⟩ := h.right.tree.has_root.define name v'
  exact ⟨a', b', ha, hb, h.define hv ha hb⟩

theorem matches_permit :
    (matching (Aligned F)).Corresponds w (fun _ _ _ => True)
      (permit Arena.rootId name) (permit Arena.rootId name) := by
  refine matches_changeArena fun a b h => ?_
  obtain ⟨a', ha⟩ := h.left.tree.has_root.permit name
  obtain ⟨b', hb⟩ := h.right.tree.has_root.permit name
  exact ⟨a', b', ha, hb, h.permit ha hb⟩

/-! ## 2. Forms at the root -/

theorem matches_evalProvide :
    Match F (Aligned F) w (evalProvide Arena.rootId operands)
      (evalProvide Arena.rootId operands) := by
  have hpermit (w : Set Capture) : (matching (Aligned F)).Corresponds w (fun _ _ _ => True)
      (permitNames Arena.rootId operands) (permitNames Arena.rootId operands) := by
    induction operands generalizing w with
    | nil => exact corresponds_pure trivial
    | cons form rest ih =>
      cases form with
      | ident name => exact matches_permit.bind fun w₁ _ _ _ _ => ih w₁
      | _ => exact matches_failTelling _ _
  unfold evalProvide
  refine (hpermit w).bind fun w₁ _ _ _ _ => ?_
  refine matches_permitted.bind ?_
  rintro w₂ names _ - rfl
  exact (matches_log _ _).bind fun _ _ _ _ _ => matches_plain rfl

variable {recur recur' : Node → ScopeId → Eval Value}

theorem matches_evalDefine (hrec : ∀ form ∈ operands, ∀ w,
      Match F (Aligned F) w (recur form Arena.rootId) (recur' form Arena.rootId)) :
    Match F (Aligned F) w (evalDefine recur Arena.rootId operands)
      (evalDefine recur' Arena.rootId operands) := by
  rcases operands with _ | ⟨target, _ | ⟨form, _ | ⟨third, rest⟩⟩⟩
  · exact matches_fail _
  · cases target <;> exact matches_fail _
  · simp only [List.forall_mem_cons] at hrec
    obtain ⟨-, hform, -⟩ := hrec
    cases target with
    | ident name =>
      refine (hform w).bind fun w₁ v v' _ hv => ?_
      exact (matches_define hv).bind fun _ _ _ _ _ => matches_plain rfl
    | _ => exact matches_failTelling _ _
  · cases target <;> exact matches_fail _

/-- What is said of the bodies of closures in a neutral script. -/
abbrev NeutralBody (body : Node) : Prop := body.isNeutral true = true

/-- The closures that are made differ in the scopes that they capture. -/
theorem matches_evalLambda (hbody : Node.isNeutralLambda operands = true) :
    Match NeutralBody (Aligned NeutralBody) w (evalLambda Arena.rootId operands)
      (evalLambda Arena.rootId operands) := by
  rcases operands with _ | ⟨target, _ | ⟨body, _ | ⟨third, rest⟩⟩⟩
  · exact matches_fail _
  · cases target <;> exact matches_fail _
  · cases target with
    | list params =>
      rw [evalLambda]
      cases hparams : parametersOf [] params with
      | error failure => exact corresponds_throw rfl
      | ok names =>
        have hnodup : names.Nodup := nodup_parametersOf List.nodup_nil hparams
        intro s t h
        refine .value (Set.subset_insert _ _)
          ⟨h.arena.capture hnodup, h.ledger, h.output, h.sink⟩ ?_
        exact .closure (Set.mem_insert _ _) hbody
    | _ => exact matches_fail _
  · cases target <;> exact matches_fail _

theorem matches_callName (hlimit : setting.config.maxSteps = none)
    (hl : ∀ form ∈ operands, form.isLiteral = true) (hw : ∀ form ∈ operands, form.WellFormed)
    (depth : Nat) :
    Match NeutralBody (Aligned NeutralBody) w
      (callName (setting.calling false) (evaluate (setting.calling false) depth) Arena.rootId name
        operands)
      (callName (setting.calling true) (evaluate (setting.calling true) depth) Arena.rootId name
        operands) := by
  unfold callName
  refine (matches_lookup? (fun _ _ h => h.sees_root) name).bind fun w₁ x y _ hxy => ?_
  cases hxy with
  | none => exact matches_fail _
  | @some v v' hv =>
    cases hv with
    | plain h =>
      cases v with
      | closure => cases h
      | _ => exact matches_fail _
    | @closure params body l r hc hbody =>
      refine matches_permitted.bind ?_
      rintro w₂ names _ hw₂ rfl
      refine corresponds_when Iff.rfl (fun _ => matches_fail _) fun w₃ hw₃ => ?_
      refine corresponds_ite Iff.rfl (fun _ => ?_) fun harity => ?_
      · exact Corresponds.bind (Q := fun _ _ _ => False) (matches_fail _) fun _ _ _ _ h => h.elim
      · have hc : ⟨l, r, params⟩ ∈ w₃ := hw₃ (hw₂ hc)
        exact matches_call hlimit hl hw hc (not_not.mp harity) hbody depth

/-- **A neutral form does the same under both conventions**, at the root. -/
theorem matches_evaluate (hlimit : setting.config.maxSteps = none) (depth : Nat) {form : Node}
    (hn : form.isNeutral false = true) (hw : form.WellFormed) (w : Set Capture) :
    Match NeutralBody (Aligned NeutralBody) w
      (evaluate (setting.calling false) depth form Arena.rootId)
      (evaluate (setting.calling true) depth form Arena.rootId) := by
  induction depth generalizing form w with
  | zero => exact corresponds_throw rfl
  | succ depth ih =>
    refine (matches_countStep hlimit false true).bind fun w₁ _ _ _ _ => ?_
    refine matches_evalForm (fun _ _ h => h.sees_root) fun head operands heq => ?_
    subst heq
    cases hw with
    | list hchildren =>
    obtain ⟨-, hoperands⟩ := List.forall_mem_cons.mp hchildren
    cases hr : ruleOf head operands with
    | error fault =>
      rw [evalList_of_fault hr, evalList_of_fault hr]
      exact corresponds_throw rfl
    | ok rule =>
    have hrec (hrule : rule ∉ [SpecialForm.mul, .call, .lambda]) :
        ∀ form ∈ operands, ∀ w, Match NeutralBody (Aligned NeutralBody) w
          (evaluate (setting.calling false) depth form Arena.rootId)
          (evaluate (setting.calling true) depth form Arena.rootId) :=
      fun form hmem w =>
        ih (Node.isNeutral_operands hn hr hrule form hmem) (hoperands form hmem) w
    have hsteady (hrule : rule ∈ steady) : ∀ rule, ruleOf head operands = .ok rule →
        rule ∈ steady := by
      intro _ hr'
      cases hr.symm.trans hr'
      exact hrule
    cases rule with
    | mul =>
      rw [Node.isNeutral, hr] at hn
      cases hn
    | call =>
      have hl := Node.isLiteral_of_call hn hr
      rw [evalList_of_rule hr, evalList_of_rule hr, evalRule, evalRule]
      cases head with
      | ident name => exact matches_callName hlimit hl hoperands depth
      | operator symbol => exact matches_callName hlimit hl hoperands depth
      | _ => exact matches_failTelling _ _
    | provide =>
      rw [evalList_of_rule hr, evalList_of_rule hr]
      exact matches_evalProvide
    | define =>
      rw [evalList_of_rule hr, evalList_of_rule hr]
      exact matches_evalDefine (hrec (by decide))
    | lambda =>
      rw [Node.isNeutral, hr] at hn
      rw [evalList_of_rule hr, evalList_of_rule hr]
      exact matches_evalLambda (by simpa using hn)
    | _ => exact matches_evalList (hrec (by decide)) false true (hsteady (by decide))

/-! ## 3. Scripts -/

/-- The scopes of arenas that are aligned can be told. -/
theorem matches_logScopes :
    (matching (Aligned F)).Corresponds w (fun _ _ _ => True) logScopes logScopes := by
  intro s t h
  rw [run_logScopes, run_logScopes, Arena.snapshot_of_told h.arena.left.tree.ordered.told,
    Arena.snapshot_of_told h.arena.right.tree.ordered.told]
  exact matches_log _ _ s t h

theorem matches_executeForm (hlimit : setting.config.maxSteps = none) {form : Node}
    (hn : form.isNeutral false = true) (hw : form.WellFormed) (w : Set Capture) :
    Match NeutralBody (Aligned NeutralBody) w (executeForm (setting.calling false) form)
      (executeForm (setting.calling true) form) := by
  unfold executeForm
  refine corresponds_when Iff.rfl (fun _ => ?_) fun w₁ _ => ?_
  · refine (matches_ofHost (dumpRecord form)).bind ?_
    rintro w₁ record _ - ⟨rfl, -⟩
    exact matches_log _ _
  have hvalue : Match NeutralBody (Aligned NeutralBody) w₁
      (reportDepth (evaluate (setting.calling false) setting.config.maxDepth form Arena.rootId))
      (reportDepth (evaluate (setting.calling true) setting.config.maxDepth form
        Arena.rootId)) := by
    refine (matches_evaluate hlimit _ hn hw w₁).tryCatch ?_
    rintro w₂ fault _ - rfl
    cases fault with
    | tooDeep => exact matches_fail _
    | _ => exact corresponds_throw rfl
  refine hvalue.bind fun w₂ v v' _ hv => ?_
  rw [hv.shown_eq]
  refine (matches_ofHost v.shown).bind ?_
  rintro w₃ text _ hw₃ ⟨rfl, -⟩
  refine (matches_log _ _).bind fun w₄ _ _ hw₄ _ => ?_
  have hv := hv.mono (le_trans hw₃ hw₄)
  refine corresponds_ite Iff.rfl (fun _ => ?_) fun _ => corresponds_pure hv
  exact matches_logScopes.bind fun w₅ _ _ hw₅ _ => corresponds_pure (hv.mono hw₅)

theorem matches_execute (hlimit : setting.config.maxSteps = none) {forms : List Node}
    (hn : ∀ form ∈ forms, form.isNeutral false = true) (hw : ∀ form ∈ forms, form.WellFormed)
    (w : Set Capture) :
    (matching (Aligned NeutralBody)).Corresponds w
      (fun w => List.Forall₂ (Value.Paired NeutralBody w))
      (execute (setting.calling false) forms) (execute (setting.calling true) forms) :=
  corresponds_mapM (fun hw h => h.mono hw) (List.forall₂_same.mpr fun form hmem w' _ =>
    matches_executeForm hlimit (hn form hmem) (hw form hmem) w')

/-- Runs start from arenas that are aligned. -/
theorem aligned_initial {bindings : Table String Value} (hf : ClosureFree bindings)
    (ledger : Ledger) (listener : Bool) :
    Aligned F ∅ (State.initial ledger bindings listener).arena
      (State.initial ledger bindings listener).arena where
  left := ⟨tree_initial ledger bindings listener, fun h => h.elim⟩
  right := ⟨tree_initial ledger bindings listener, fun h => h.elim⟩
  roots {s t} hs ht := by
    rw [hs] at ht
    cases ht
    refine ⟨rfl, fun name => ?_⟩
    cases hv : s.bindings.get? name with
    | none => exact .none
    | some v => exact .some (.plain (capture?_of_binds_initial hf ⟨s, hs, hv⟩))
  params h := h.elim
  own h := h.elim

end

section Runs

variable {script : String} {forms : List Node} {ledger : Ledger} {bindings : Table String Value}

/-- **The runs of a neutral script** under the two conventions come to ends that meet. -/
theorem meets_runs (hlimit : setting.config.maxSteps = none) (h : Node.Reads script forms)
    (hn : ∀ form ∈ forms, form.isNeutral false = true) (hf : ClosureFree bindings)
    (listener : Bool) :
    (matching (Aligned NeutralBody)).Meets ∅
      (fun w => List.Forall₂ (Value.Paired NeutralBody w))
      (run (setting.calling false) script ledger bindings listener)
      (run (setting.calling true) script ledger bindings listener) := by
  obtain ⟨record, hrun⟩ := run_of_reads h (setting.calling false) ledger bindings listener
  obtain ⟨record', hrun'⟩ := run_of_reads h (setting.calling true) ledger bindings listener
  rw [hrun, hrun']
  exact matches_execute hlimit hn h.wellFormed ∅ _ _
    ⟨aligned_initial hf ledger listener, rfl, rfl, rfl⟩

/-- A report without the number of steps. -/
def Report.unmetered (report : Report) : Report := { report with steps := 0 }

theorem unmetered_reportOf {R : Arena → Arena → Prop} {s t : State} (h : s.Matches R t)
    (lists : Bool) (outcome : Except ScriptError (List Json)) :
    (reportOf (setting.calling true) lists outcome t).unmetered =
      (reportOf (setting.calling false) lists outcome s).unmetered := by
  simp only [Report.unmetered, reportOf, h.output, h.ledger]
  rfl

/-- Reports of runs that meet differ in the number of steps at most. -/
theorem unmetered_interpret
    (h : (matching (Aligned F)).Meets w (fun w => List.Forall₂ (Value.Paired F w))
      (run (setting.calling false) script ledger bindings false)
      (run (setting.calling true) script ledger bindings false)) (lists : Bool) :
    (interpret (setting.calling true) script ledger bindings lists).1.map Report.unmetered =
      (interpret (setting.calling false) script ledger bindings lists).1.map Report.unmetered := by
  unfold interpret
  generalize run (setting.calling false) script ledger bindings false = x,
    run (setting.calling true) script ledger bindings false = y at h ⊢
  cases h with
  | value _ hst hvalues =>
    dsimp only
    rw [Value.map_eq_of_paired (fun h => h.toJson_eq) hvalues]
    exact congrArg Except.ok (unmetered_reportOf hst lists _)
  | @fault _ f g s t _ hst hl =>
    cases hl
    cases f with
    | host fault => rfl
    | script error => exact congrArg Except.ok (unmetered_reportOf hst lists (.error error))
    | tooDeep => exact congrArg Except.ok (unmetered_reportOf hst lists (.error .depthLimit))

end Runs

/-- **Neutral scripts do the same under both conventions of calling.**  Let a script be read as
forms in which no list multiplies, calls have only numbers and the contract as operands, and no body
of a closure contains a call, a closure, a definition or a list that provides.  Without a limit of
steps, for every contract, ledger and bindings without closures, its runs without and under the
legacy rules come to values that differ in the scopes that closures captured at most, or end in the
same fault; and they leave the same ledger and have written the same lines.  So what is reported of
the two differs in the number of steps at most.  How often closures are called, in which order, and
by which names, does not matter. -/
theorem run_neutral (setting : Setting) (hlimit : setting.config.maxSteps = none)
    {script : String} {forms : List Node} (h : Node.Reads script forms)
    (hn : ∀ form ∈ forms, form.isNeutral false = true) (ledger : Ledger)
    {bindings : Table String Value} (hf : ClosureFree bindings) :
    (∀ listener,
      let modern := run (setting.calling false) script ledger bindings listener
      let legacy := run (setting.calling true) script ledger bindings listener
      (answerOf legacy).map (List.map Value.uncaptured) =
          (answerOf modern).map (List.map Value.uncaptured) ∧
        (stateOf legacy).ledger = (stateOf modern).ledger ∧
        (stateOf legacy).output = (stateOf modern).output ∧
        (stateOf legacy).sink = (stateOf modern).sink) ∧
    ∀ lists, (interpret (setting.calling true) script ledger bindings lists).1.map
        Report.unmetered =
      (interpret (setting.calling false) script ledger bindings lists).1.map Report.unmetered := by
  refine ⟨fun listener => ?_,
    fun lists => unmetered_interpret (meets_runs hlimit h hn hf false) lists⟩
  intro modern legacy
  have hmeets : (matching (Aligned NeutralBody)).Meets ∅
      (fun w => List.Forall₂ (Value.Paired NeutralBody w)) modern legacy :=
    meets_runs hlimit h hn hf listener
  clear_value modern legacy
  cases hmeets with
  | value _ hst hvalues =>
    refine ⟨?_, hst.ledger, hst.output, hst.sink⟩
    exact congrArg Except.ok (Value.map_eq_of_paired (fun h => h.uncaptured_eq) hvalues)
  | fault _ hst hl =>
    cases hl
    exact ⟨rfl, hst.ledger, hst.output, hst.sink⟩

/-- A bank without a limit of steps. -/
def aliasing : Setting := { bank with config := { bank.config with maxSteps := none } }

/-- A script that calls one closure by two names, whose parameter hides another name. -/
def aliased : String :=
  "(define x 7) (define f (lambda (x) (+ x 1))) (define g f) (println (f 1)) (println (g 2)) x"

/-- Its forms. -/
def aliasedForms : List Node :=
  [.list [.ident "define", .ident "x", .number 7],
    .list [.ident "define", .ident "f",
      .list [.ident "lambda", .list [.ident "x"], .list [.operator "+", .ident "x", .number 1]]],
    .list [.ident "define", .ident "g", .ident "f"],
    .list [.ident "println", .list [.ident "f", .number 1]],
    .list [.ident "println", .list [.ident "g", .number 2]],
    .ident "x"]

/-- Its run under one of the two conventions. -/
def aliasedRun (legacy : Bool) : EStateM.Result Fault State (List Value) :=
  trial (aliasing.calling legacy) aliased {} []

/-- The runs agree, though one has made a scope for each call and the other none. -/
theorem run_neutral_aliased :
    aliasing.config.maxSteps = none ∧ Node.Reads aliased aliasedForms ∧
      (∀ form ∈ aliasedForms, form.isNeutral false = true) ∧
      (answerOf (aliasedRun false)).isOk = true ∧
      (stateOf (aliasedRun false)).arena.scopes.size = 4 ∧
      (stateOf (aliasedRun true)).arena.scopes.size = 2 ∧
      (stateOf (aliasedRun false)).output = ["2", "3"] ∧
      (stateOf (aliasedRun true)).output = (stateOf (aliasedRun false)).output ∧
      (answerOf (aliasedRun true)).map (List.map Value.uncaptured) =
        (answerOf (aliasedRun false)).map (List.map Value.uncaptured) := by
  obtain ⟨hok, hmodern, hlegacy, hlines⟩ : (answerOf (aliasedRun false)).isOk = true ∧
      (stateOf (aliasedRun false)).arena.scopes.size = 4 ∧
      (stateOf (aliasedRun true)).arena.scopes.size = 2 ∧
      (stateOf (aliasedRun false)).output = ["2", "3"] := by decide +kernel
  have htokens : (Token.ofText aliased).toOption = some [.openParen, .identifier "define",
      .identifier "x", .number "7" 7, .closeParen, .openParen, .identifier "define",
      .identifier "f", .openParen, .identifier "lambda", .openParen, .identifier "x",
      .closeParen, .openParen, .symbol "+", .identifier "x", .number "1" 1, .closeParen,
      .closeParen, .closeParen, .openParen, .identifier "define", .identifier "g",
      .identifier "f", .closeParen, .openParen, .identifier "println", .openParen,
      .identifier "f", .number "1" 1, .closeParen, .closeParen, .openParen,
      .identifier "println", .openParen, .identifier "g", .number "2" 2, .closeParen,
      .closeParen, .identifier "x"] := by decide +kernel
  have h : Node.Reads aliased aliasedForms := Node.reads_of_toOption htokens rfl
  have hn : ∀ form ∈ aliasedForms, form.isNeutral false = true := by decide
  have hf : ClosureFree [] := fun _ hmem => absurd hmem List.not_mem_nil
  obtain ⟨hruns, -⟩ := run_neutral aliasing rfl h hn {} hf
  obtain ⟨hvalues, -, houtput, -⟩ := hruns false
  rw [run_eq_trial, run_eq_trial] at hvalues houtput
  exact ⟨rfl, h, hn, hok, hmodern, hlegacy, hlines, houtput, hvalues⟩

end Run

end LedgerScript
