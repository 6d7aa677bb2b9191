/-
# Neutral forms

Under the legacy rules `*` adds, arguments are what the operands of a call say, and they are bound
in the scope that the closure captured, where the next call of the closure finds them.  A form is
*neutral* if it does not come near any of this: it does not multiply, its calls have only numbers
and the contract as operands, and the bodies of its closures neither call nor change scopes
(`Node.isNeutral`).

Here are the calls of such forms.  Their operands have the same values under both conventions
(`exists_taken`), and the scopes in which these are bound see every name alike, since all other
names are looked up as from the root.  So the bodies match (`matches_body`); they leave both arenas
as they are, and when a call is done the arenas are as aligned as before it (`matches_call`),
whatever it has left in the captured scope.
-/
import LedgerScript.Proofs.Alignment
import LedgerScript.Proofs.Amounts
import LedgerScript.Proofs.RoundTrip

namespace LedgerScript

open Run

/-! ## 1. Neutral forms -/

namespace Node

/-- A form that says its value: a number, or the contract. -/
def isLiteral : Node → Bool
  | number _ => true
  | operator symbol => symbol == meSymbol
  | _ => false

mutual

/-- A form that does the same under both conventions of calling, in the body of a closure or
outside: no list multiplies, calls have only literal operands, and in a body there are no calls,
no closures, no definitions and nothing is provided.  Parameter lists and heads are not looked into,
since they are not evaluated. -/
def isNeutral (inBody : Bool) : Node → Bool
  | list (head :: operands) =>
    match ruleOf head operands with
    | .ok .mul => false
    | .ok .call => !inBody && operands.all isLiteral
    | .ok .lambda => !inBody && isNeutralLambda operands
    | .ok .define | .ok .provide => !inBody && areNeutral inBody operands
    | _ => areNeutral inBody operands
  | _ => true

/-- All forms of a row are neutral. -/
def areNeutral (inBody : Bool) : List Node → Bool
  | [] => true
  | form :: rest => isNeutral inBody form && areNeutral inBody rest

/-- The body of a closure is neutral. -/
def isNeutralLambda : List Node → Bool
  | [list _, body] => isNeutral true body
  | _ => true

end

theorem areNeutral_iff {inBody : Bool} {forms : List Node} :
    areNeutral inBody forms = true ↔ ∀ form ∈ forms, form.isNeutral inBody = true := by
  induction forms with
  | nil => simp [areNeutral]
  | cons form rest ih => rw [areNeutral, Bool.and_eq_true, ih, List.forall_mem_cons]

/-- In a body all lists go by rules that work on values. -/
theorem isNeutral_body {head : Node} {operands : List Node}
    (h : (list (head :: operands)).isNeutral true = true) :
    (∀ rule, ruleOf head operands = .ok rule → rule ∈ steady) ∧
      ∀ form ∈ operands, form.isNeutral true = true := by
  rw [isNeutral] at h
  cases hr : ruleOf head operands with
  | error fault =>
    rw [hr] at h
    exact ⟨nofun, areNeutral_iff.mp h⟩
  | ok rule =>
    rw [hr] at h
    cases rule with
    | provide | define | lambda | mul | call => cases h
    | _ => exact ⟨fun _ hr => by cases hr; decide, areNeutral_iff.mp h⟩

/-- Outside of bodies the operands of most rules are neutral as well. -/
theorem isNeutral_operands {head : Node} {operands : List Node} {rule : SpecialForm}
    (h : (list (head :: operands)).isNeutral false = true)
    (hr : ruleOf head operands = .ok rule)
    (hrule : rule ∉ [SpecialForm.mul, .call, .lambda]) :
    ∀ form ∈ operands, form.isNeutral false = true := by
  rw [isNeutral, hr] at h
  cases rule with
  | mul | call | lambda => exact absurd (by decide) hrule
  | define | provide => exact areNeutral_iff.mp (by simpa using h)
  | _ => exact areNeutral_iff.mp h

/-- A call outside of bodies has literal operands. -/
theorem isLiteral_of_call {head : Node} {operands : List Node}
    (h : (list (head :: operands)).isNeutral false = true)
    (hrule : ruleOf head operands = .ok .call) : ∀ form ∈ operands, form.isLiteral = true := by
  rw [isNeutral, hrule] at h
  simpa using h

end Node

namespace Run

open Eval Kinship

variable {setting : Setting} {F : Node → Prop} {w : Set Capture}

/-! ## 2. Literal operands -/

/-- A literal says the value that it evaluates to, and a listener can be told of it. -/
theorem exists_literal (hlimit : setting.config.maxSteps = none) {form : Node}
    (hl : form.isLiteral = true) (hw : form.WellFormed) :
    ∃ v, v.capture? = none ∧ (∃ text, v.shown = .ok text) ∧
      (∀ t, (literalArgument (setting.calling true) form).run t = .ok v t) ∧
      ∀ depth scope s, (evaluate (setting.calling false) (depth + 1) form scope).run s =
        .ok v s.counted := by
  have hstep (s : State) : (countStep (setting.calling false).config.maxSteps).run s =
      .ok () s.counted := by
    rw [show (setting.calling false).config.maxSteps = none from hlimit]
    rfl
  cases hw with
  | ident h => cases hl
  | list h => cases hl
  | @number n hn hlength =>
    refine ⟨.integer n, rfl, ⟨toString n, ?_⟩, fun _ => rfl, fun depth scope s => ?_⟩
    · rw [Value.shown, Text.writeInteger, if_pos (Text.isWritable_of_length hn hlength)]
    · rw [evaluate, run_bind_ok (hstep s)]
      rfl
  | @operator symbol h hw =>
    have hsymbol : symbol = meSymbol := by simpa [Node.isLiteral] using hl
    subst hsymbol
    refine ⟨.account setting.me, rfl, ⟨_, rfl⟩, fun _ => rfl, fun depth scope s => ?_⟩
    rw [evaluate, run_bind_ok (hstep s)]
    rfl

/-- The values that operands have under both conventions. -/
structure Taken (setting : Setting) (operands : List Node) (values : List Value) : Prop where
  length : values.length = operands.length
  plain : ∀ v ∈ values, v.capture? = none
  told : ∃ texts, Value.allShown values = .ok texts
  literal (t : State) :
    (operands.mapM (literalArgument (setting.calling true))).run t = .ok values t
  evaluated (depth : Nat) (scope : ScopeId) (s : State) : ∃ steps,
    (operands.mapM (evaluate (setting.calling false) (depth + 1) · scope)).run s =
      .ok values { s with steps }

theorem exists_taken (hlimit : setting.config.maxSteps = none) {operands : List Node}
    (hl : ∀ form ∈ operands, form.isLiteral = true) (hw : ∀ form ∈ operands, form.WellFormed) :
    ∃ values, Taken setting operands values := by
  induction operands with
  | nil =>
    exact ⟨[], rfl, fun _ h => absurd h List.not_mem_nil, ⟨[], rfl⟩, fun _ => rfl,
      fun _ _ s => ⟨s.steps, rfl⟩⟩
  | cons form rest ih =>
    obtain ⟨hform, hrest⟩ := List.forall_mem_cons.mp hl
    obtain ⟨hwform, hwrest⟩ := List.forall_mem_cons.mp hw
    obtain ⟨v, hplain, ⟨text, htext⟩, hliteral, hevaluated⟩ := exists_literal hlimit hform hwform
    obtain ⟨values, htaken⟩ := ih hrest hwrest
    obtain ⟨texts, htexts⟩ := htaken.told
    refine ⟨v :: values, ?_, ?_, ⟨text :: texts, ?_⟩, fun t => ?_, fun depth scope s => ?_⟩
    · rw [List.length_cons, List.length_cons, htaken.length]
    · exact List.forall_mem_cons.mpr ⟨hplain, htaken.plain⟩
    · rw [Value.allShown] at htexts ⊢
      rw [List.mapM_cons, htext, htexts]
      rfl
    · rw [List.mapM_cons, run_bind_ok (hliteral t), run_bind_ok (htaken.literal t)]
      rfl
    · obtain ⟨steps, hall⟩ := htaken.evaluated depth scope s.counted
      refine ⟨steps, ?_⟩
      rw [List.mapM_cons, run_bind_ok (hevaluated depth scope s), run_bind_ok hall]
      rfl

/-! ## 3. Bodies -/

/-- The two arenas, which stay as they are. -/
def Pinned (w : Set Capture) (A B : Arena) (w' : Set Capture) (a b : Arena) : Prop :=
  w' = w ∧ a = A ∧ b = B

theorem Pinned.sees {A B : Arena} {l r : ScopeId} (hsees : A.Sees F w l B r) {w' : Set Capture} :
    ∀ a b, Pinned w A B w' a b → a.Sees F w' l b r := by
  rintro a b ⟨rfl, rfl, rfl⟩
  exact hsees

/-- **A body matches in scopes that see every name alike**, and changes no scopes. -/
theorem matches_body (hlimit : setting.config.maxSteps = none) {A B : Arena} {l r : ScopeId}
    (hsees : A.Sees F w l B r) (depth : Nat) {form : Node} (hn : form.isNeutral true = true)
    (w' : Set Capture) :
    Match F (Pinned w A B) w' (evaluate (setting.calling false) depth form l)
      (evaluate (setting.calling true) depth form r) := by
  induction depth generalizing form w' with
  | zero => exact corresponds_throw rfl
  | succ depth ih =>
    refine (matches_countStep hlimit false true).bind fun w₁ _ _ _ _ => ?_
    refine matches_evalForm (Pinned.sees hsees) fun head operands heq => ?_
    subst heq
    obtain ⟨hrule, hoperands⟩ := Node.isNeutral_body hn
    exact matches_evalList (fun form hmem w₂ => ih (hoperands form hmem) w₂) false true hrule

/-! ## 4. Calls -/

/-- What definitions of some names keep of an arena, the binding of such names keeps. -/
theorem bindAll_keeps {P : Arena → Prop} {target : ScopeId} {names : List String}
    (hp : ∀ {a b name v}, name ∈ names → a.define target name v = .ok b → P a → P b)
    {pairs : List (String × Value)} (hnames : ∀ pair ∈ pairs, pair.1 ∈ names) {s t : State}
    (hb : (bindAll target pairs).run s = .ok () t) (hs : P s.arena) : P t.arena := by
  induction pairs generalizing s with
  | nil => cases hb; exact hs
  | cons pair rest ih =>
    obtain ⟨hpair, hrest⟩ := List.forall_mem_cons.mp hnames
    obtain ⟨_, u, hd, hb⟩ := of_run_bind_ok hb
    refine ih hrest hb ?_
    rw [define, run_changeArena] at hd
    cases hdefine : s.arena.define target pair.1 pair.2 with
    | error fault => rw [hdefine] at hd; cases hd
    | ok arena =>
      rw [hdefine] at hd
      cases hd
      exact hp hpair hdefine hs

section

variable {s t : State} {c : Capture} {values : List Value} {recur : Node → ScopeId → Eval Value}
  {name : String} {body : Node}

theorem mem_params_of_zip {params : List String} {values : List Value} :
    ∀ pair ∈ params.zip values, pair.1 ∈ params := fun _ hmem => (List.of_mem_zip hmem).1

/-- The names that are bound to arguments are the parameters, which differ. -/
theorem map_fst_params (h : Aligned F w s.arena t.arena) (hc : c ∈ w)
    (hlength : values.length = c.params.length) :
    ((c.params.zip values).map Prod.fst).Nodup ∧
      (c.params.zip values).map Prod.fst = c.params := by
  have hfst := map_fst_zip hlength
  exact ⟨hfst.symm ▸ h.params hc, hfst⟩

/-- Without the legacy rules a call binds its arguments in a new scope, and the arenas stay
aligned. -/
theorem enters_fresh (h : State.Matches (Aligned F w) s t) (hc : c ∈ w)
    (hlength : values.length = c.params.length) (hv : ∃ texts, Value.allShown values = .ok texts) :
    ∃ l u, (newScope (some c.left) >>= enterBody recur name c.params body values).run s =
        (recur body l).run u ∧
      State.Matches (Aligned F w) u t ∧ s.arena.Bound c.left c.params values u.arena l := by
  obtain ⟨texts, hv⟩ := hv
  obtain ⟨hnodup, hfst⟩ := map_fst_params h.arena hc hlength
  have hleft := h.arena.left.below hc
  have htree := h.arena.left.tree
  obtain ⟨arena, hrun, hb⟩ := run_bindAll
    (s := { s with arena := (s.arena.newScope (some c.left)).2 })
    (Arena.has_newScope s.arena (some c.left)) hnodup
  have haligned : Aligned F w arena t.arena := by
    -- no closure has captured the scope that the call made
    have hnew : ∀ c' ∈ w, c'.left ≠ s.arena.scopes.size :=
      fun c' hc' => (h.arena.left.below hc').ne_size
    exact bindAll_keeps (P := (Aligned F w · t.arena))
      (fun _ hd ha => ha.define_left htree.root_ne_size hnew hd) mem_params_of_zip hrun
      (h.arena.newScope_left hleft.has)
  refine ⟨_, _, (run_bind_ok (run_newScope _ _)).trans (run_enterBody hrun hv),
    ⟨haligned, h.ledger, h.output, h.sink⟩, hb.bound, fun other hother => ?_⟩
  rw [hb.unbound other (hfst.symm ▸ hother)]
  exact htree.ordered.lookup_newScope hleft.has other

/-- Under the legacy rules it binds them in the captured scope, and the arenas stay aligned. -/
theorem enters_shared (h : State.Matches (Aligned F w) s t) (hc : c ∈ w)
    (hlength : values.length = c.params.length) (hv : ∃ texts, Value.allShown values = .ok texts) :
    ∃ u, (enterBody recur name c.params body values c.right).run t = (recur body c.right).run u ∧
      State.Matches (Aligned F w) s u ∧
      t.arena.Bound c.right c.params values u.arena c.right := by
  obtain ⟨texts, hv⟩ := hv
  obtain ⟨hnodup, hfst⟩ := map_fst_params h.arena hc hlength
  obtain ⟨arena, hrun, hb⟩ := run_bindAll (h.arena.right.below hc).has hnodup
  have haligned : Aligned F w s.arena arena :=
    bindAll_keeps (P := Aligned F w s.arena) (fun hname hd ha => ha.define_right hc hname hd)
      mem_params_of_zip hrun h.arena
  refine ⟨_, run_enterBody hrun hv, ⟨haligned, h.ledger, h.output, h.sink⟩, hb.bound, ?_⟩
  exact fun other hother => hb.unbound other (hfst.symm ▸ hother) _

/-- **A call under both conventions**, the arguments being there. -/
theorem meets_enterBody (hlimit : setting.config.maxSteps = none) {operands : List Node}
    (htaken : Taken setting operands values) (h : State.Matches (Aligned F w) s t) (hc : c ∈ w)
    (hlength : values.length = c.params.length) (hbody : body.isNeutral true = true)
    (depth : Nat) :
    (matching (Aligned F)).Meets w (Value.Paired F)
      ((newScope (some c.left) >>= enterBody (evaluate (setting.calling false) depth) name c.params
        body values).run s)
      ((enterBody (evaluate (setting.calling true) depth) name c.params body values c.right).run
        t) := by
  obtain ⟨l, u, hleft, hu, hbound⟩ := enters_fresh h hc hlength htaken.told
  obtain ⟨u', hright, hu', hbound'⟩ := enters_shared hu hc hlength htaken.told
  rw [hleft, hright]
  have hsees : u.arena.Sees F w l u'.arena c.right :=
    h.arena.sees_call hc htaken.plain hlength hbound hbound'
  have hmeets := matches_body hlimit hsees depth hbody w u u'
    ⟨⟨rfl, rfl, rfl⟩, hu'.ledger, hu'.output, hu'.sink⟩
  generalize (evaluate (setting.calling false) depth body l).run u = x,
    (evaluate (setting.calling true) depth body c.right).run u' = y at hmeets ⊢
  have hback {w' : Set Capture} {s t : State}
      (hst : State.Matches (Pinned w u.arena u'.arena w') s t) :
      w' = w ∧ State.Matches (Aligned F w) s t := by
    obtain ⟨hw, hs, ht⟩ := hst.arena
    exact ⟨hw, ⟨hs.symm ▸ ht.symm ▸ hu'.arena, hst.ledger, hst.output, hst.sink⟩⟩
  cases hmeets with
  | value _ hst hv =>
    obtain ⟨rfl, hst⟩ := hback hst
    exact .value le_rfl hst hv
  | fault _ hst hl =>
    obtain ⟨rfl, hst⟩ := hback hst
    exact .fault le_rfl hst hl

section

variable {operands : List Node} {params : List String} {scope captured : ScopeId}

/-- Without the legacy rules a call goes on in a new scope when its operands are evaluated. -/
theorem run_call_fresh
    (hvalues : (operands.mapM (recur · scope)).run s = .ok values t) :
    (evalArguments (setting.calling false) recur scope captured operands >>= fun arguments =>
        enterBody recur name params body arguments.1 arguments.2).run s =
      (newScope (some captured) >>= enterBody recur name params body values).run t := by
  rw [evalArguments, if_neg (show ¬ (setting.calling false).config.legacy = true from nofun),
    bind_assoc, run_bind_ok hvalues]
  simp only [bind_assoc, pure_bind]

theorem run_call_fresh_fault {fault : Fault}
    (hfault : (operands.mapM (recur · scope)).run s = .error fault t) :
    (evalArguments (setting.calling false) recur scope captured operands >>= fun arguments =>
        enterBody recur name params body arguments.1 arguments.2).run s = .error fault t := by
  rw [evalArguments, if_neg (show ¬ (setting.calling false).config.legacy = true from nofun),
    bind_assoc, run_bind_error hfault]

/-- Under them it goes on in the captured scope when its operands are read. -/
theorem run_call_shared
    (hvalues : (operands.mapM (literalArgument (setting.calling true))).run s = .ok values t) :
    (evalArguments (setting.calling true) recur scope captured operands >>= fun arguments =>
        enterBody recur name params body arguments.1 arguments.2).run s =
      (enterBody recur name params body values captured).run t := by
  rw [evalArguments, if_pos (show (setting.calling true).config.legacy = true from rfl),
    bind_assoc, run_bind_ok hvalues, pure_bind]

end

/-- **A call with literal operands**, from the arguments on.  When no evaluation may be active any
more, an operand ends the call where it is evaluated, and the body where it is not. -/
theorem matches_call (hlimit : setting.config.maxSteps = none) {operands : List Node}
    {scope : ScopeId} (hl : ∀ form ∈ operands, form.isLiteral = true)
    (hw : ∀ form ∈ operands, form.WellFormed) (hc : c ∈ w)
    (hlength : operands.length = c.params.length) (hbody : body.isNeutral true = true)
    (depth : Nat) :
    Match F (Aligned F) w
      (evalArguments (setting.calling false) (evaluate (setting.calling false) depth) scope c.left
        operands >>= fun arguments =>
          enterBody (evaluate (setting.calling false) depth) name c.params body arguments.1
            arguments.2)
      (evalArguments (setting.calling true) (evaluate (setting.calling true) depth) scope c.right
        operands >>= fun arguments =>
          enterBody (evaluate (setting.calling true) depth) name c.params body arguments.1
            arguments.2) := by
  intro s t h
  obtain ⟨values, htaken⟩ := exists_taken hlimit hl hw
  have hcount : values.length = c.params.length := htaken.length.trans hlength
  rw [run_call_shared (htaken.literal t)]
  rcases depth with _ | depth
  · rcases operands with _ | ⟨form, rest⟩
    · obtain rfl := List.eq_nil_of_length_eq_zero htaken.length
      have hnone : (([] : List Node).mapM (evaluate (setting.calling false) 0 · scope)).run s =
          .ok [] s := rfl
      rw [run_call_fresh hnone]
      exact meets_enterBody hlimit htaken h hc hcount hbody 0
    · have hdeep : ((form :: rest).mapM (evaluate (setting.calling false) 0 · scope)).run s =
          .error .tooDeep s := by
        rw [List.mapM_cons]
        rfl
      obtain ⟨u, hentered, hu, -⟩ := enters_shared h hc hcount htaken.told
      rw [run_call_fresh_fault hdeep, hentered]
      exact .fault le_rfl hu rfl
  · obtain ⟨steps, hall⟩ := htaken.evaluated depth scope s
    have hs : State.Matches (Aligned F w) { s with steps } t :=
      ⟨h.arena, h.ledger, h.output, h.sink⟩
    rw [run_call_fresh hall]
    exact meets_enterBody hlimit htaken hs hc hcount hbody _

end

end Run

end LedgerScript
