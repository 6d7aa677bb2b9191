/-
# Calls that the root admits

A call is checked before its operands are evaluated, and its body starts after them.  What the
whitelist said at the check need not be what it says when the body starts, because operands may
`provide`.

The whitelist only ever grows (`widening`), so a name that is on it stays on it.  That leaves the
calls that are checked while there is no whitelist.  Such a call may fill the whitelist itself: an
operand of it, or an operand of an operand, is a `provide` form in the root (`Point.Fills`).  Then
its body may start although its name is not permitted any more, and there is no other way for that
to happen (`body_admitted`).
-/
import LedgerScript.Proofs.Scanning
import LedgerScript.Proofs.Whitelist

namespace LedgerScript.Run

open Eval Relation

variable {setting : Setting} {p q : Point} {name : String}

/-! ## 1. Calls and their bodies -/

/-- The root permits every name, or this one among others. -/
def State.Admits (s : State) (name : String) : Prop :=
  ∃ names, s.arena.permitted Arena.rootId = .ok names ∧ (names = [] ∨ name ∈ names)

/-- A form that calls a name. -/
def Point.Calls (p : Point) (name : String) : Prop :=
  ∃ head operands, p.form = .list (head :: operands) ∧ ruleOf head operands = .ok .call ∧
    nameOf? head = some name

/-- A body is evaluated for the call of a name that was admitted at the check. -/
theorem calls_of_body (hb : Body setting p q) :
    ∃ name, p.Calls name ∧ p.state.Admits name := by
  obtain ⟨hs, hr, hn, hc, -, -, -⟩ := hb
  obtain rfl := of_run_countStep hs
  exact ⟨_, ⟨_, _, rfl, hr, hn⟩, hc.allowed⟩

/-- Calls have operands that are evaluated only without the legacy rules. -/
theorem modern_of_operand (hc : p.Calls name) (ho : Operand setting p q) :
    setting.config.legacy = false := by
  obtain ⟨_, hw, _⟩ := ho
  obtain ⟨_, _, ⟨⟩, hr, _⟩ := hc
  cases hw with
  | call _ hm => exact hm
  | transfer h => rw [h] at hr; cases hr
  | define h => rw [h] at hr; cases hr
  | println h => rw [h] at hr; cases hr
  | several _ h => rcases h with h | h <;> (rw [h] at hr; cases hr)
  | pair h => rcases h with h | h <;> (rw [h] at hr; cases hr)

/-- What a call of a name returns, a body that it enters returned. -/
theorem enters_of_callName {depth : Nat} {scope : ScopeId} {head : Node} {operands : List Node}
    {s t : State} {v : Value} (held : List Value) (hr : ruleOf head operands = .ok .call)
    (hn : nameOf? head = some name)
    (h : (callName setting (evaluate setting depth) scope name operands).run s = .ok v t) :
    ∃ q, Enters setting depth scope head operands s held q ∧ q.outcome setting = .ok v t := by
  unfold callName at h
  obtain ⟨found, _, hl, hfound⟩ := of_run_bind_ok h
  obtain ⟨hl, rfl⟩ := of_run_ofHost hl
  rcases found with _ | (_ | _ | _ | ⟨params, body, captured⟩ | _ | _)
  case some.closure =>
    obtain ⟨names, _, hp, hcheck⟩ := of_run_bind_ok hfound
    obtain ⟨hp, rfl⟩ := of_run_ofHost hp
    dsimp only at hcheck
    split at hcheck
    · cases hcheck
    split at hcheck
    · cases hcheck
    next hallowed harity =>
    have hc : Callable _ scope name operands.length params body captured :=
      ⟨hl, ⟨names, hp, Decidable.byContradiction fun h => hallowed (not_or.mp h)⟩,
        Decidable.byContradiction harity⟩
    obtain ⟨⟨values, callScope⟩, u, ha, hbind⟩ := of_run_bind_ok hcheck
    obtain ⟨_, w, hb, hshow⟩ := of_run_bind_ok hbind
    obtain ⟨shown, _, hv, hlog⟩ := of_run_bind_ok hshow
    obtain ⟨hshown, rfl⟩ := of_run_ofHost hv
    exact ⟨_, .intro hr hn hc ha hb hshown, hlog⟩
  all_goals cases hfound

/-- **A call that returns has gone on to a body** and returns what the body returned. -/
theorem body_of_returns {v : Value} {t : State} (hc : p.Calls name)
    (h : p.outcome setting = .ok v t) : ∃ q, Body setting p q ∧ q.outcome setting = .ok v t := by
  obtain ⟨depth, form, scope, s, held⟩ := p
  obtain ⟨head, operands, rfl, hr, hn⟩ := hc
  cases depth with
  | zero => cases h
  | succ depth =>
    rw [Point.outcome, evaluate_call hr hn] at h
    obtain ⟨_, u, hs, hcall⟩ := of_run_bind_ok h
    obtain ⟨q, hq, hv⟩ := enters_of_callName held hr hn hcall
    exact ⟨q, .intro hs hq, hv⟩

/-! ## 2. The whitelist grows -/

/-- What the root permitted it permits. -/
def Widens (a b : Arena) : Prop :=
  ∀ names, a.permitted Arena.rootId = .ok names →
    ∃ more, b.permitted Arena.rootId = .ok more ∧ names ⊆ more

theorem widens_of_eq {a b : Arena} (h : b.permitted Arena.rootId = a.permitted Arena.rootId) :
    Widens a b :=
  fun names hn => ⟨names, h.trans hn, List.Subset.refl _⟩

/-- A whitelist that grows. -/
def widening (setting : Setting) : ArenaDiscipline setting where
  Inv a := 0 < a.scopes.size
  Home _ _ := True
  Captured _ _ := True
  Step := Widens
  refl _ := widens_of_eq rfl
  trans h₁ h₂ names hn := by
    obtain ⟨more, hm, hsub⟩ := h₁ names hn
    obtain ⟨most, hm', hsub'⟩ := h₂ more hm
    exact ⟨most, hm', List.Subset.trans hsub hsub'⟩
  home_mono _ h := h
  captured_mono _ h := h
  define hi hh hd := ((whitelisting setting).define hi hh hd).imp_right widens_of_eq
  capture hi hh := by
    obtain ⟨hi', hs, hc⟩ := (whitelisting setting).capture hi hh
    exact ⟨hi', widens_of_eq hs, hc⟩
  enter hm hi hc := by
    obtain ⟨hi', hs, hh⟩ := (whitelisting setting).enter hm hi hc
    exact ⟨hi', widens_of_eq hs, hh⟩
  share _ _ _ := trivial

theorem widening_permits (setting : Setting) : (widening setting).toDiscipline.Permits := by
  intro scope
  refine ArenaDiscipline.PermitsIn.toDiscipline ?_
  intro a b name hi _ hp
  have hi : 0 < b.scopes.size := by rwa [Arena.size_modify hp]
  exact ⟨hi, fun _ hn => Arena.permitted_permit hp hn⟩

/-- From a call to its body the whitelist grows. -/
theorem widens_of_body (hi : 0 < p.state.arena.scopes.size) (hb : Body setting p q) :
    Widens p.state.arena q.state.arena :=
  Discipline.step_of_body (D := (widening setting).toDiscipline)
    ⟨hi, fun _ _ _ => trivial⟩ trivial hb fun _ _ hi hh =>
      Discipline.keepsAt (widening_permits setting) hi hh

/-! ## 3. What the operands of a call do -/

/-- A call that fills the whitelist: there is none when it is checked, and a `provide` form in the
root, reached from operand to operand, makes one. -/
structure Point.Fills (setting : Setting) (p : Point) : Prop where
  modern : setting.config.legacy = false
  inRoot : p.scope = Arena.rootId
  unlisted : p.state.arena.permitted Arena.rootId = .ok []
  provides : ∃ r, TransGen (Operand setting) p r ∧ r.ProvidesInRoot ∧ r.Alters setting

/-- Without the legacy rules it does not matter what closures captured. -/
theorem rooted_of_modern (hm : setting.config.legacy = false)
    (hi : 0 < p.state.arena.scopes.size) : (rooted setting).toDiscipline.Sound p := by
  have hgood : ∀ a v, (rooted setting).Good a v := by
    intro a v id _ hl
    rw [hm] at hl
    cases hl
  exact ⟨⟨hi, fun _ => hgood _ _⟩, trivial, fun v _ => hgood _ v⟩

/-- Operands are evaluated in the scope of their form. -/
theorem scope_of_operands (h : TransGen (Operand setting) p q) : q.scope = p.scope := by
  have hstep : ∀ {p q : Point}, Operand setting p q → q.scope = p.scope := by
    rintro p q ⟨_, _, hq⟩
    exact hq.depth_scope.2
  induction h with
  | single h => exact hstep h
  | tail _ h ih => exact (hstep h).trans ih

/-- If the whitelist is another when the body starts, an operand changed it. -/
theorem operand_alters (hc : p.Calls name) (hi : 0 < p.state.arena.scopes.size)
    (hb : Body setting p q)
    (h : q.state.arena.permitted Arena.rootId ≠ p.state.arena.permitted Arena.rootId) :
    ∃ o, Operand setting p o ∧ o.Alters setting := by
  by_contra hnone
  have hsame : (whitelisting setting).toDiscipline.Step p.state q.state := by
    refine Discipline.step_of_body ⟨hi, fun _ _ _ => trivial⟩ trivial hb ?_
    intro o ho _ _
    have hp := rooted_of_modern (modern_of_operand hc ho) hi
    exact keepsAt_whitelisting (hp.next (rooted_permits setting) (.inl ho))
      fun halters => hnone ⟨o, ho, halters⟩
  exact h hsame

/-- **A body whose name is not admitted** belongs to a call that filled the whitelist. -/
theorem fills_of_body (hi : 0 < p.state.arena.scopes.size) (hb : Body setting p q)
    (hc : p.Calls name) (hp : p.state.Admits name) (hq : ¬ q.state.Admits name) :
    p.Fills setting := by
  obtain ⟨names, hnames, hadmits⟩ := hp
  obtain ⟨more, hmore, hsub⟩ := widens_of_body hi hb names hnames
  -- a name that is on the list stays on it, so there was no list at the check
  have hunlisted : names = [] :=
    hadmits.resolve_right fun hmem => hq ⟨more, hmore, .inr (hsub hmem)⟩
  subst hunlisted
  obtain ⟨o, ho, halters⟩ := operand_alters hc hi hb fun hsame =>
    hq ⟨[], hsame.trans hnames, .inl rfl⟩
  have hm := modern_of_operand hc ho
  have hsound := (rooted_of_modern hm hi).next (rooted_permits setting) (.inl ho)
  obtain ⟨r, hr, hprovides, hr'⟩ := provide_of_alters hsound halters
  have hreach : TransGen (Operand setting) p r := TransGen.head' ho hr
  exact ⟨hm, (scope_of_operands hreach).symm.trans hprovides.1, hnames, r, hreach, hprovides, hr'⟩

/-! ## 4. Whole runs -/

/-- **Bodies are admitted, but for calls that fill the whitelist.**  A call that returns has gone
on to the body of a closure.  Wherever a run goes on from a call to a body, under the legacy rules
or without them, the whitelist is empty or has the name that was called; or else it was empty when
the call was checked, and the operands of the call, which is in the root, filled it. -/
theorem body_admitted (setting : Setting) (ledger : Ledger) (bindings : Table String Value)
    (listener : Bool) :
    (∀ p name v t, Point.Calls p name → p.outcome setting = .ok v t →
      ∃ q, Body setting p q ∧ q.outcome setting = .ok v t) ∧
    ∀ p q, Passes setting (.initial ledger bindings listener) p → Body setting p q →
      ∃ name, p.Calls name ∧ (q.state.Admits name ∨ p.Fills setting) := by
  refine ⟨fun p name v t => body_of_returns, fun p q hp hb => ?_⟩
  have hstart : (widening setting).toDiscipline.Inv (.initial ledger bindings listener) :=
    ⟨Nat.one_pos, fun _ _ _ => trivial⟩
  have hi := (Discipline.passes (widening_permits setting) hstart trivial hp).inv.inv
  obtain ⟨name, hc, hadmits⟩ := calls_of_body hb
  refine ⟨name, hc, ?_⟩
  by_cases hq : q.state.Admits name
  · exact .inl hq
  · exact .inr (fills_of_body hi hb hc hadmits hq)

/-- A closure, and a call of it with an operand that permits another name. -/
def unlistedScript : String := "(define f (lambda (x) (println x))) (f (provide g))"

/-- `(define f (lambda (x) (println x)))`. -/
def unlistedDefinition : Node :=
  .list [.ident "define", .ident "f",
    .list [.ident "lambda", .list [.ident "x"], .list [.ident "println", .ident "x"]]]

/-- `(f (provide g))`. -/
def unlistedCall : Node := .list [.ident "f", .list [.ident "provide", .ident "g"]]

/-- The call, about to be evaluated after the definition. -/
def unlistedPoint : Point :=
  bank.point unlistedCall
    (stateOf ((bank.point unlistedDefinition (.initial {} [] false) []).outcome bank))
    [.nil]

theorem passes_unlistedPoint : Passes bank (.initial {} [] false) unlistedPoint := by
  have hb : Between bank (.initial {} [] false)
      (stateOf ((bank.point unlistedDefinition (.initial {} [] false) []).outcome bank))
      [.nil] := @Between.value _ _ _ _ _ unlistedDefinition _ .start rfl
  exact hb.passes unlistedCall

theorem calls_unlistedPoint : unlistedPoint.Calls "f" := ⟨_, _, rfl, rfl, rfl⟩

/-- The body starts after the operand, when the root permits `g` alone. -/
theorem body_unlistedPoint : ∃ q, Body bank unlistedPoint q ∧
    q.state.arena.permitted Arena.rootId = .ok ["g"] :=
  ⟨_, .intro rfl (.intro rfl rfl ⟨rfl, ⟨[], rfl, .inl rfl⟩, rfl⟩ rfl rfl rfl), rfl⟩

theorem not_admits_of_permitted {s : State} {names : List String}
    (h : s.arena.permitted Arena.rootId = .ok names) (hne : names ≠ []) (hmem : name ∉ names) :
    ¬ s.Admits name := by
  rintro ⟨names', h', hadmits⟩
  rw [h] at h'
  cases h'
  rcases hadmits with hnil | hin
  · exact hne hnil
  · exact hmem hin

/-- The call has gone on to a body, and it filled the whitelist. -/
theorem body_admitted_unlisted :
    Passes bank (.initial {} [] false) unlistedPoint ∧ unlistedPoint.Calls "f" ∧
    (∃ q t, Body bank unlistedPoint q ∧ q.outcome bank = .ok .nil t) ∧
    unlistedPoint.Fills bank := by
  obtain ⟨hreturns, hadmitted⟩ := body_admitted bank {} [] false
  obtain ⟨q, hbody, hg⟩ := body_unlistedPoint
  refine ⟨passes_unlistedPoint, calls_unlistedPoint, ?_, ?_⟩
  · obtain ⟨q, hq, hv⟩ := hreturns unlistedPoint "f" .nil _ calls_unlistedPoint rfl
    exact ⟨q, _, hq, hv⟩
  · obtain ⟨name, ⟨head, operands, hform, hr, hn⟩, h⟩ :=
      hadmitted unlistedPoint q passes_unlistedPoint hbody
    cases hform
    cases hn
    exact h.resolve_left (not_admits_of_permitted hg (by decide) (by decide))

/-- The body of `f` starts, and prints, while the root permits `g` and not `f`. -/
theorem body_not_admitted :
    Node.Reads unlistedScript [unlistedDefinition, unlistedCall] ∧
    Passes bank (.initial {} [] false) unlistedPoint ∧ unlistedPoint.Calls "f" ∧
    (∃ q, Body bank unlistedPoint q ∧ ¬ q.state.Admits "f") ∧
    (stateOf (run bank unlistedScript {} [] false)).output = ["nil"] := by
  have htokens : Token.ofText unlistedScript =
      .ok (Node.allTokens [unlistedDefinition, unlistedCall]) := by
    rw [Token.ofText_eq_scanned]
    decide +kernel
  obtain ⟨q, hbody, hg⟩ := body_unlistedPoint
  refine ⟨⟨_, htokens, rfl⟩, passes_unlistedPoint, calls_unlistedPoint, ⟨q, hbody, ?_⟩, ?_⟩
  · exact not_admits_of_permitted hg (by decide) (by decide)
  · decide +kernel

end LedgerScript.Run
