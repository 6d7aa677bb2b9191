/-
# The whitelist of the root

Calls consult the names that the root permits and no other list, so this list is what a host can
rely on.  Two facts guard it.  No body is evaluated in the root: it has a scope of its own, or,
under the legacy rules, the scope that its closure captured, which is never the root (`rooted`).
And by the frame of an evaluation nothing that happens outside the root changes it.  What remains
is `provide` in the root itself: whenever an evaluation changes the list, a `provide` form did,
which was evaluated in the root as an operand of operands of the form (`provide_of_alters`).

A call of a closure that is not on the list is denied before anything is done for it
(`run_evaluate_denied`).
-/
import LedgerScript.Proofs.Frame

namespace LedgerScript.Run

open Eval Relation

variable {setting : Setting} {s : State} {p q : Point}

/-! ## 1. The root is not captured -/

/-- A scope that is made when there is a root is another. -/
theorem root_ne_size {a : Arena} (h : 0 < a.scopes.size) :
    Arena.rootId ≠ (a.scopes.size : Int) := Int.ne_of_lt (Int.ofNat_lt.mpr h)

/-- There is a root, and closures capture other scopes, where it matters. -/
def rooted (setting : Setting) : ArenaDiscipline setting where
  Inv a := 0 < a.scopes.size
  Home _ _ := True
  -- only under the legacy rules is a body evaluated in the captured scope
  Captured _ id := setting.config.legacy = true → id ≠ Arena.rootId
  Step _ _ := True
  refl _ := trivial
  trans _ _ := trivial
  home_mono _ h := h
  captured_mono _ h := h
  define hi _ hd := ⟨by rwa [Arena.size_modify hd], trivial⟩
  capture hi _ := ⟨by rw [Arena.size_newScope]; omega, trivial, fun _ => (root_ne_size hi).symm⟩
  enter _ hi _ := ⟨by rw [Arena.size_newScope]; omega, trivial, trivial⟩
  share _ _ _ := trivial

theorem rooted_permits (setting : Setting) : (rooted setting).toDiscipline.Permits := by
  intro scope
  refine ArenaDiscipline.PermitsIn.toDiscipline ?_
  intro a b name hi _ hp
  have hi : 0 < b.scopes.size := by rwa [Arena.size_modify hp]
  exact ⟨hi, trivial⟩

/-- The root of an arena that closures do not capture is framed by every other scope. -/
theorem scope?_root_of_ne (hs : (rooted setting).toDiscipline.Inv s) {scope : ScopeId}
    (hscope : scope ≠ Arena.rootId) (depth : Nat) (form : Node) :
    (stateOf ((evaluate setting depth form scope).run s)).arena.scope? Arena.rootId =
      s.arena.scope? Arena.rootId := by
  refine evaluate_frame (Int.ofNat_lt.mpr hs.inv) ?_ hscope depth form
  intro hm id name v hb hid
  exact hs.bound hb _ hid hm rfl

/-! ## 2. No body is evaluated in the root -/

/-- The scope that the arguments of a call are bound in is not the root. -/
theorem ends_evalArguments_ne_root {depth : Nat} {scope captured : ScopeId}
    {operands : List Node} (hs : (rooted setting).toDiscipline.Inv s)
    (hc : setting.config.legacy = true → captured ≠ Arena.rootId) :
    Ends (fun arguments _ => arguments.2 ≠ Arena.rootId) (fun _ _ => True)
      ((evalArguments setting (evaluate setting depth) scope captured operands).run s) := by
  unfold evalArguments
  split
  · next hm =>
    refine Ends.bind (Discipline.keeps_literalArguments hs) ?_ fun _ _ _ => trivial
    intro values t _ _
    exact .value (hc hm)
  · have through : (rooted setting).toDiscipline.Through depth scope (fun _ => True) operands s
        [] := fun _ _ hi hh => Discipline.keepsAt (rooted_permits setting) hi hh
    refine Ends.bind (Discipline.keeps_mapM (g := id)
      (f := fun form => evaluate setting depth form scope) (fun _ _ hk => hk.noting)
      (fun _ => trivial) through hs trivial) ?_ fun _ _ _ => trivial
    rintro values t _ ⟨hi, -, -⟩
    exact .value (root_ne_size hi.inv).symm

theorem body_ne_root (hp : (rooted setting).toDiscipline.Sound p) (hb : Body setting p q) :
    q.scope ≠ Arena.rootId := by
  obtain ⟨hs, hq⟩ := hb
  have hi := ((Discipline.keeps_countStep hp.inv _).of_ok hs).1
  obtain ⟨_, _, hc, ha, _, _⟩ := hq
  obtain ⟨id, hbound⟩ := Arena.binds_of_lookup hc.found
  exact (ends_evalArguments_ne_root hi (hi.bound hbound _ rfl)).of_ok ha

/-- What is visited from outside the root is outside the root. -/
theorem visits_ne_root (hp : (rooted setting).toDiscipline.Sound p)
    (hne : p.scope ≠ Arena.rootId) (hv : Visits setting p q) : q.scope ≠ Arena.rootId := by
  induction hv with
  | refl => exact hne
  | tail hv hn ih =>
    rcases hn with ⟨_, _, hq⟩ | hb
    · rwa [hq.depth_scope.2]
    · exact body_ne_root (hp.visits (rooted_permits setting) hv) hb

/-! ## 3. What changes the whitelist -/

/-- The evaluation at a point changes the names that the root permits. -/
def Point.Alters (setting : Setting) (p : Point) : Prop :=
  (stateOf (p.outcome setting)).arena.permitted Arena.rootId ≠
    p.state.arena.permitted Arena.rootId

/-- A `provide` form in the root. -/
def Point.ProvidesInRoot (p : Point) : Prop :=
  p.scope = Arena.rootId ∧
    ∃ head operands, p.form = .list (head :: operands) ∧ ruleOf head operands = .ok .provide

/-- Evaluations outside the root do not change the whitelist. -/
theorem not_alters_of_ne_root (hp : (rooted setting).toDiscipline.Sound p)
    (hne : p.scope ≠ Arena.rootId) : ¬ p.Alters setting :=
  fun h => h (Arena.permitted_congr (scope?_root_of_ne hp.inv hne p.depth p.form))

/-- A whitelist that stays as it is. -/
def whitelisting (setting : Setting) : ArenaDiscipline setting where
  Inv a := 0 < a.scopes.size
  Home _ _ := True
  Captured _ _ := True
  Step a b := b.permitted Arena.rootId = a.permitted Arena.rootId
  refl _ := rfl
  trans h₁ h₂ := h₂.trans h₁
  home_mono _ h := h
  captured_mono _ h := h
  define hi _ hd := ⟨by rwa [Arena.size_modify hd], Arena.permitted_define hd _⟩
  capture hi _ := by
    refine ⟨by rw [Arena.size_newScope]; omega, Arena.permitted_congr ?_, trivial⟩
    rw [Arena.scope?_newScope, if_neg (root_ne_size hi)]
  enter _ hi _ := by
    refine ⟨by rw [Arena.size_newScope]; omega, Arena.permitted_congr ?_, trivial⟩
    rw [Arena.scope?_newScope, if_neg (root_ne_size hi)]
  share _ _ _ := trivial

/-- Permitting a name outside the root is not permitting it in the root. -/
theorem whitelisting_permitsIn {scope : ScopeId} (hne : scope ≠ Arena.rootId) :
    (whitelisting setting).toDiscipline.PermitsIn scope := by
  refine ArenaDiscipline.PermitsIn.toDiscipline ?_
  intro a b name hi _ hp
  have hi : 0 < b.scopes.size := by rwa [Arena.size_modify hp]
  refine ⟨hi, Arena.permitted_congr ?_⟩
  rw [Arena.scope?_permit hp, if_neg (Ne.symm hne)]

/-- An evaluation that does not change the whitelist. -/
theorem keepsAt_whitelisting (hp : (rooted setting).toDiscipline.Sound p)
    (h : ¬ p.Alters setting) : (whitelisting setting).toDiscipline.KeepsAt p := by
  have hk := Discipline.keepsAt (rooted_permits setting) hp.inv hp.home
  have h : (stateOf (p.outcome setting)).arena.permitted Arena.rootId =
    p.state.arena.permitted Arena.rootId := Classical.not_not.mp h
  unfold Discipline.KeepsAt at hk ⊢
  generalize p.outcome setting = r at hk h ⊢
  cases hk with
  | value hk => exact .value ⟨⟨hk.1.inv, fun _ _ _ => trivial⟩, h, fun _ _ => trivial⟩
  | fault hk => exact .fault ⟨⟨hk.1.inv, fun _ _ _ => trivial⟩, h⟩

/-- **What changes the whitelist** is a `provide` form that is evaluated in the root, reached from
operand to operand. -/
theorem provide_of_alters {p : Point} (hp : (rooted setting).toDiscipline.Sound p)
    (h : p.Alters setting) :
    ∃ q, ReflTransGen (Operand setting) p q ∧ q.ProvidesInRoot ∧ q.Alters setting := by
  by_cases hroot : p.ProvidesInRoot
  · exact ⟨p, .refl, hroot, h⟩
  refine Classical.byContradiction fun hnone => ?_
  have hi : (whitelisting setting).toDiscipline.Inv p.state :=
    ⟨hp.inv.inv, fun _ _ _ => trivial⟩
  refine h (Discipline.keepsAt_of_next hi trivial ?_ ?_).state.2
  · intro head operands t hform hr hi hh
    refine Discipline.keeps_evalProvide (whitelisting_permitsIn ?_) hi hh operands
    exact fun hscope => hroot ⟨hscope, head, operands, hform, hr⟩
  · intro q hn _ _
    have hq := hp.next (rooted_permits setting) hn
    refine keepsAt_whitelisting hq fun hq' => ?_
    rcases hn with ho | hb
    · have hlt := Next.depth (.inl ho)
      obtain ⟨r, hr, hr'⟩ := provide_of_alters hq hq'
      exact hnone ⟨r, .head ho hr, hr'⟩
    · exact not_alters_of_ne_root hq (body_ne_root hp hb) hq'
termination_by p.depth
decreasing_by omega

/-! ## 4. A call that is denied -/

/-- **A call that the root does not permit** is denied after one step, with the state as it was
otherwise. -/
theorem run_evaluate_denied {depth : Nat} {head : Node} {operands : List Node}
    {scope captured : ScopeId} {name : String} {params names : List String} {body : Node}
    (hr : ruleOf head operands = .ok .call) (hn : nameOf? head = some name)
    (hl : s.arena.lookup (some scope) name = .ok (some (.closure params body captured)))
    (hp : s.arena.permitted Arena.rootId = .ok names) (hne : names ≠ []) (hmem : name ∉ names)
    (hsteps : ∀ most, setting.config.maxSteps = some most → (s.steps + 1 : Nat) ≤ most) :
    (evaluate setting (depth + 1) (.list (head :: operands)) scope).run s =
      .error (.script (.capabilityDenied name)) { s with steps := s.steps + 1 } := by
  have hcount : (countStep setting.config.maxSteps).run s =
      .ok () { s with steps := s.steps + 1 } := by
    rw [run_countStep]
    split
    · rfl
    · next most hm => rw [if_neg (Int.not_lt.mpr (hsteps most hm))]
  have hcall : (callName setting (evaluate setting depth) scope name operands).run
      { s with steps := s.steps + 1 } =
        .error (.script (.capabilityDenied name)) { s with steps := s.steps + 1 } := by
    unfold callName
    rw [EStateM.run_bind, run_lookup?, hl]
    show ((permitted Arena.rootId >>= _ : Eval Value).run _) = _
    rw [EStateM.run_bind, run_permitted, hp]
    show (if names ≠ [] ∧ name ∉ names then _ else _ : Eval Value).run _ = _
    rw [if_pos ⟨hne, hmem⟩]
    rfl
  rw [evaluate_call hr hn, run_bind_ok hcount, hcall]

/-! ## 5. Whole runs -/

/-- **The whitelist is guarded.**  In a run from bindings without closures no body is evaluated in
the root, nor is anything that a body goes on to.  In every state that the run reaches,
evaluations outside the root leave the root as it is; an evaluation that changes the whitelist
does so at a `provide` form in the root, reached from operand to operand; and calls of closures
that a whitelist with any names in it does not have are denied after one step. -/
theorem whitelist_guarded (setting : Setting) (ledger : Ledger) {bindings : Table String Value}
    (hf : ClosureFree bindings) (listener : Bool) :
    (∀ p q r, Passes setting (.initial ledger bindings listener) p → Body setting p q →
      Visits setting q r → r.scope ≠ Arena.rootId) ∧
    ∀ s held, Reaches setting (.initial ledger bindings listener) s held →
      (∀ depth form scope, scope ≠ Arena.rootId →
        (stateOf ((evaluate setting depth form scope).run s)).arena.scope? Arena.rootId =
          s.arena.scope? Arena.rootId) ∧
      (∀ depth form scope, Point.Alters setting ⟨depth, form, scope, s, held⟩ →
        ∃ q, ReflTransGen (Operand setting) ⟨depth, form, scope, s, held⟩ q ∧
          q.ProvidesInRoot ∧ q.Alters setting) ∧
      ∀ depth head operands scope name params body captured names,
        ruleOf head operands = .ok .call → nameOf? head = some name →
        s.arena.lookup (some scope) name = .ok (some (.closure params body captured)) →
        s.arena.permitted Arena.rootId = .ok names → names ≠ [] → name ∉ names →
        (∀ most, setting.config.maxSteps = some most → (s.steps + 1 : Nat) ≤ most) →
        (evaluate setting (depth + 1) (.list (head :: operands)) scope).run s =
          .error (.script (.capabilityDenied name)) { s with steps := s.steps + 1 } := by
  have hi : (rooted setting).toDiscipline.Inv (.initial ledger bindings listener) :=
    ArenaDiscipline.holds_initial hf Nat.one_pos
  have permits := rooted_permits setting
  constructor
  · intro p q r hp hb hv
    have hp := Discipline.passes permits hi trivial hp
    exact visits_ne_root (hp.next permits (.inr hb)) (body_ne_root hp hb) hv
  intro s held hs
  obtain ⟨hi', hheld⟩ := Discipline.reaches permits hi trivial hs
  refine ⟨?_, ?_, ?_⟩
  · intro depth form scope hscope
    exact scope?_root_of_ne hi' hscope depth form
  · intro depth form scope h
    exact provide_of_alters ⟨hi', trivial, hheld⟩ h
  · intro depth head operands scope name params body captured names hr hn hl hp hne hmem hsteps
    exact run_evaluate_denied hr hn hl hp hne hmem hsteps

/-- A contract without a step limit. -/
def guarded : Setting := { bank with config := { bank.config with maxSteps := none } }

/-- Two closures, of which the root permits the first. -/
def guardedScript : String :=
  "(provide f) (define f (lambda () 1)) (define g (lambda () 2))"

/-- The state that its run ends in. -/
def guardedState : State := stateOf (trial guarded guardedScript {} [])

/-- A name that is bound to a closure without parameters, seen from the root. -/
def bindsThunk (s : State) (name : String) : Bool :=
  match s.arena.lookup (some Arena.rootId) name with
  | .ok (some (.closure [] _ _)) => true
  | _ => false

theorem lookup_of_bindsThunk {name : String} (h : bindsThunk s name = true) :
    ∃ body captured,
      s.arena.lookup (some Arena.rootId) name = .ok (some (.closure [] body captured)) := by
  unfold bindsThunk at h
  split at h
  · next body captured hl => exact ⟨body, captured, hl⟩
  · cases h

/-- The body of the first closure is evaluated outside the root, a form outside the root does not
change it, `provide` in the root changes the whitelist, and a call of the second closure is
denied. -/
theorem whitelist_guarded_two_closures : ∃ held,
    Reaches guarded (.initial {} [] false) guardedState held ∧
    guardedState.arena.permitted Arena.rootId = .ok ["f"] ∧
    (∃ q, Body guarded (guarded.point (.list [.ident "f"]) guardedState held) q ∧
      q.scope ≠ Arena.rootId) ∧
    (stateOf ((evaluate guarded 1 (.list [.ident "provide", .ident "g"]) 1).run
      guardedState)).arena.scope? Arena.rootId = guardedState.arena.scope? Arena.rootId ∧
    (∃ q, ReflTransGen (Operand guarded)
      ⟨1, .list [.ident "provide", .ident "g"], Arena.rootId, guardedState, held⟩ q ∧
        q.ProvidesInRoot ∧ q.Alters guarded) ∧
    (evaluate guarded 1 (.list [.ident "g"]) Arena.rootId).run guardedState =
      .error (.script (.capabilityDenied "g"))
        { guardedState with steps := guardedState.steps + 1 } := by
  obtain ⟨held, hb⟩ := between_run guarded guardedScript {} [] false
  rw [run_eq_trial] at hb
  have hb : Between guarded (.initial {} [] false) guardedState held := hb
  have hp : guardedState.arena.permitted Arena.rootId = .ok ["f"] := by
    have h : (guardedState.arena.permitted Arena.rootId).toOption = some ["f"] := by
      decide +kernel
    generalize guardedState.arena.permitted Arena.rootId = names at h ⊢
    cases names with
    | error fault => cases h
    | ok names => cases h; rfl
  obtain ⟨body, captured, hf⟩ :=
    lookup_of_bindsThunk (show bindsThunk guardedState "f" = true by decide +kernel)
  obtain ⟨_, _, hg⟩ :=
    lookup_of_bindsThunk (show bindsThunk guardedState "g" = true by decide +kernel)
  have hbody : ∃ q, Body guarded (guarded.point (.list [.ident "f"]) guardedState held) q :=
    ⟨_, .intro rfl (.intro rfl rfl ⟨hf, ⟨["f"], hp, .inr List.mem_cons_self⟩, rfl⟩ rfl rfl rfl)⟩
  have halters : Point.Alters guarded
      ⟨1, .list [.ident "provide", .ident "g"], Arena.rootId, guardedState, held⟩ := by
    intro h
    have hne : ((stateOf ((evaluate guarded 1 (.list [.ident "provide", .ident "g"])
        Arena.rootId).run guardedState)).arena.permitted Arena.rootId).toOption =
          some ["f", "g"] := by decide +kernel
    have h := hne.symm.trans (congrArg Except.toOption h)
    have h := h.trans (congrArg Except.toOption hp)
    cases h
  have hw := whitelist_guarded guarded {} (fun _ h => absurd h List.not_mem_nil) false
  obtain ⟨hframe, hprovide, hdenied⟩ := hw.2 guardedState held hb.reaches
  refine ⟨held, hb.reaches, hp, ?_, ?_, hprovide _ _ _ halters, ?_⟩
  · obtain ⟨q, hq⟩ := hbody
    exact ⟨q, hq, hw.1 _ q q (hb.passes _) hq .refl⟩
  · exact hframe _ _ _ (by decide)
  · exact hdenied _ _ [] _ _ _ _ _ ["f"] rfl rfl hg hp (by simp) (by simp) (fun _ h => nomatch h)

end LedgerScript.Run
