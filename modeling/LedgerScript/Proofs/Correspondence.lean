/-
# Evaluations that correspond

A script and the script with its names renamed are evaluated side by side: what one run has, the
other has renamed.  A `Correspondence` is a relation between the states of such runs together with
what it needs of the operations of an evaluation.  The relation is told for a world, which says
what scopes there are: worlds grow as the runs go on, and what holds of a scope in one world holds
of it in every later one.

`Correspondence.evaluate` concludes that a form and the renamed form are evaluated alike: to a
value and the renamed value, or to two faults of which the correspondence says how they are alike.
The names may also be left as they are; then a run corresponds to itself, and what is said of two
faults is said of the one in which it may end.
-/
import LedgerScript.Proofs.Kinship
import LedgerScript.Proofs.Logs
import LedgerScript.Proofs.Renaming

namespace LedgerScript

/-- If the value is a closure, `F` holds of its body and `C` of the scope it captured. -/
def Value.Fits (F : Node → Prop) (C : ScopeId → Prop) : Value → Prop
  | .closure _ body captured => F body ∧ C captured
  | _ => True

theorem Value.alike_rename (f : String → String) (v : Value) : v.Alike (v.rename f) := by
  cases v with
  | closure => exact .closure _ _ _ _ _ _
  | _ => exact .plain rfl

namespace Node

mutual

/-- Renaming leaves the numbers of a form as they are. -/
theorem isWritable_rename (f : String → String) :
    ∀ form : Node, (form.rename f).isWritable = form.isWritable
  | number _ | ident _ | operator _ => by simp [isWritable]
  | list children => by
    rw [rename_list, isWritable, isWritable, allWritable_rename f children]

theorem allWritable_rename (f : String → String) :
    ∀ forms : List Node, allWritable (forms.map (rename f)) = allWritable forms
  | [] => rfl
  | form :: rest => by
    rw [List.map_cons, allWritable, allWritable, isWritable_rename f form,
      allWritable_rename f rest]

end

/-- **A renamed form** has a text exactly if the form has one. -/
theorem text_rename (f : String → String) (form : Node) :
    BothWritten form.text (form.rename f).text := by
  rw [text_eq_written, text_eq_written, isWritable_rename]
  split
  · exact .texts _ _
  · exact .tooLong

end Node

namespace Run

open Eval Kinship

variable {α β γ δ : Type} {W : Type} [Preorder W]

/-! ## 1. Correspondences -/

/-- A relation between the runs of a script and of the script with its names renamed, and what it
needs of the operations of an evaluation. -/
structure Correspondence (setting : Setting) (W : Type) [Preorder W] extends Kinship W where
  rename : String → String
  /-- The forms that the correspondence is about. -/
  Form : Node → Prop
  /-- The scopes of a world, in which forms are evaluated. -/
  Home : W → ScopeId → Prop
  /-- The scopes of a world that closures have captured. -/
  Captured : W → ScopeId → Prop
  /-- The balances that accounts may have. -/
  Balance : Int → Prop
  form_list {children : List Node} : Form (.list children) → ∀ child ∈ children, Form child
  /-- No name becomes the name of a rule, and none ceases to be one. -/
  form_ident {name : String} : Form (.ident name) →
    SpecialForm.ofHead (rename name) = SpecialForm.ofHead name
  form_operator {symbol : String} : Form (.operator symbol) → rename symbol = symbol
  /-- Under the legacy rules names are addresses, which are not renamed. -/
  legacy_rename : setting.config.legacy = true → ∀ name, rename name = name
  injective : rename.Injective
  home_root (w : W) : Home w Arena.rootId
  home_mono {w w' : W} {id : ScopeId} : w ≤ w' → Home w id → Home w' id
  captured_mono {w w' : W} {id : ScopeId} : w ≤ w' → Captured w id → Captured w' id
  legacy_home {w : W} {id : ScopeId} : setting.config.legacy = true → Captured w id → Home w id
  balance_debit {held amount : Int} : Balance held → amount ≤ held → Balance (held - amount)
  balance_credit {held amount : Int} : Balance held → 0 ≤ amount → Balance (held + amount)
  like_error {e e' : ScriptError} : e.kind = e'.kind → e.kind ≠ .unbalancedParens →
    Like (.script e) (.script e')
  like_tooLong : Like (.host .integerTooLong) (.host .integerTooLong)
  like_tooDeep : Like .tooDeep .tooDeep
  tooDeep_iff {f g : Fault} : Like f g → (f = .tooDeep ↔ g = .tooDeep)
  told_iff {w : W} {s t : State} : Rel w s t → (s.arena.Told ↔ t.arena.Told)
  count (w : W) : toKinship.Corresponds w (fun _ _ _ => True)
    (countStep setting.config.maxSteps) (countStep setting.config.maxSteps)
  write (w : W) {v : Value} {line line' : String} : v.shown = .ok line →
    (v.rename rename).shown = .ok line' →
      toKinship.Corresponds w (fun _ _ _ => True) (writeLine line) (writeLine line')
  log (w : W) (record record' : Record) :
    toKinship.Corresponds w (fun _ _ _ => True) (Eval.log record) (Eval.log record')
  capture {w : W} {scope : ScopeId} : Home w scope →
    toKinship.Corresponds w (Same Captured) (newScope (some scope)) (newScope (some scope))
  enter {w : W} {captured : ScopeId} : setting.config.legacy = false → Captured w captured →
    toKinship.Corresponds w (Same Home) (newScope (some captured)) (newScope (some captured))
  define {w : W} {scope : ScopeId} (name : String) {v : Value} : Home w scope →
    v.Fits Form (Captured w) → toKinship.Corresponds w (fun _ _ _ => True)
      (Eval.define scope name v) (Eval.define scope (rename name) (v.rename rename))
  permit {w : W} {scope : ScopeId} (name : String) : Home w scope →
    toKinship.Corresponds w (fun _ _ _ => True)
      (Eval.permit scope name) (Eval.permit scope (rename name))
  permitted {w : W} {scope : ScopeId} : Home w scope →
    toKinship.Corresponds w (Image (List.map rename) fun _ _ => True)
      (Eval.permitted scope) (Eval.permitted scope)
  lookup {w : W} {scope : ScopeId} (name : String) : Home w scope →
    toKinship.Corresponds w
      (Image (Option.map (Value.rename rename)) fun w found =>
        ∀ v, found = some v → v.Fits Form (Captured w))
      (lookup? (some scope) name) (lookup? (some scope) (rename name))
  balance (w : W) (account : Account) : toKinship.Corresponds w (Same fun _ => Balance)
    (Eval.balance account) (Eval.balance account)
  setBalance (w : W) (account : Account) {amount : Int} : Balance amount →
    toKinship.Corresponds w (fun _ _ _ => True)
      (Eval.setBalance account amount) (Eval.setBalance account amount)

namespace Correspondence

variable {setting : Setting} (C : Correspondence setting W)

/-- From related states, two computations come to ends that meet. -/
abbrev Corr (w : W) (Q : W → α → β → Prop) (m : Eval α) (n : Eval β) : Prop :=
  C.toKinship.Corresponds w Q m n

/-- A value that may be handled in a world. -/
def Good (w : W) (v : Value) : Prop := v.Fits C.Form (C.Captured w)

/-- A value and the value renamed. -/
def Renamed : W → Value → Value → Prop := Image (Value.rename C.rename) C.Good

/-- Values and the values renamed. -/
def AllRenamed (w : W) : List Value → List Value → Prop := List.Forall₂ (C.Renamed w)

/-- Forms and renamed forms are evaluated alike. -/
def Recurs (recur : Node → ScopeId → Eval Value) : Prop :=
  ∀ {w form scope}, C.Form form → C.Home w scope →
    C.Corr w C.Renamed (recur form scope) (recur (form.rename C.rename) scope)

variable {C} {w w' : W}

theorem good_mono {v : Value} (hw : w ≤ w') (h : C.Good w v) : C.Good w' v := by
  cases v with
  | closure params body captured => exact ⟨h.1, C.captured_mono hw h.2⟩
  | _ => trivial

theorem renamed_mono {v v' : Value} (hw : w ≤ w') (h : C.Renamed w v v') : C.Renamed w' v v' :=
  ⟨h.1, good_mono hw h.2⟩

theorem AllRenamed.eq_map {values values' : List Value} (h : C.AllRenamed w values values') :
    values' = values.map (Value.rename C.rename) ∧ ∀ v ∈ values, C.Good w v := by
  induction h with
  | nil => exact ⟨rfl, fun _ hv => absurd hv List.not_mem_nil⟩
  | cons hv _ ih =>
    obtain ⟨rfl, hgood⟩ := hv
    exact ⟨congrArg _ ih.1, List.forall_mem_cons.mpr ⟨hgood, ih.2⟩⟩

/-- What the rules that work on values need of a correspondence. -/
def bond (C : Correspondence setting W) : Bond W where
  toKinship := C.toKinship
  Pair := C.Renamed
  Balance := C.Balance
  pair_mono := renamed_mono
  pair_plain {w v} h := by
    refine ⟨(Value.rename_of_plain h).symm, ?_⟩
    cases v with
    | closure => cases h
    | _ => trivial
  alike h := h.1 ▸ Value.alike_rename C.rename _
  balance_debit := C.balance_debit
  balance_credit := C.balance_credit
  like_error := C.like_error rfl
  like_telling hk hp _ _ _ := C.like_error (hk _ _) (hp _)
  like_tooLong := C.like_tooLong
  write h hline hline' := C.write _ hline (h.1 ▸ hline')
  log := C.log
  balance := C.balance
  setBalance := C.setBalance

/-- Computations of values over forms and renamed forms, from left to right. -/
theorem corresponds_values {forms : List Node} {f g : Node → Eval Value}
    (h : ∀ form ∈ forms, ∀ w', w ≤ w' → C.Corr w' C.Renamed (f form) (g (form.rename C.rename))) :
    C.Corr w C.AllRenamed (forms.mapM f) ((forms.map (Node.rename C.rename)).mapM g) :=
  corresponds_mapM (Q := C.Renamed) renamed_mono
    (List.forall₂_map_right_iff.mpr (List.forall₂_same.mpr h))

/-- Values other than closures are renamed to themselves. -/
theorem corresponds_plain {v : Value} (h : v.capture? = none) :
    C.Corr w C.Renamed (pure v) (pure v) := C.bond.corresponds_plain h

theorem corresponds_fail {Q : W → α → β → Prop} {e e' : ScriptError} (hk : e.kind = e'.kind)
    (hp : e.kind ≠ .unbalancedParens) : C.Corr w Q (fail e) (fail e') :=
  corresponds_throw (C.like_error hk hp)

/-- An error that tells a form is of one kind, whatever the form. -/
theorem corresponds_failTelling {Q : W → α → β → Prop} {e : String → ScriptError}
    (hk : ∀ x y, (e x).kind = (e y).kind) (hp : ∀ x, (e x).kind ≠ .unbalancedParens)
    (form : Node) :
    C.Corr w Q (failTelling e form.text) (failTelling e (form.rename C.rename).text) := by
  have h := form.text_rename C.rename
  generalize form.text = x, (form.rename C.rename).text = y at h ⊢
  cases h with
  | texts x y => exact corresponds_throw (C.like_error (hk x y) (hp x))
  | tooLong => exact corresponds_throw C.like_tooLong

/-! ## 2. The ledger -/

/-- No name of the forms is renamed that the balance form reads. -/
theorem evalBalance_rename (operands : List Node) :
    evalBalance setting (operands.map (Node.rename C.rename)) = evalBalance setting operands := by
  rcases operands with _ | ⟨form, _ | ⟨second, rest⟩⟩
  · rfl
  · cases form <;> simp [evalBalance]
  · cases form <;> simp [evalBalance]

theorem corresponds_evalBalance (operands : List Node) :
    C.Corr w C.Renamed (evalBalance setting operands)
      (evalBalance setting (operands.map (Node.rename C.rename))) := by
  rw [evalBalance_rename]
  exact C.bond.corresponds_evalBalance operands

section Rules

variable {recur : Node → ScopeId → Eval Value} {scope : ScopeId} {operands : List Node}

/-! ## 3. Bindings -/

theorem corresponds_permitNames {w : W} (hh : C.Home w scope) : ∀ names : List Node,
    C.Corr w (fun _ _ _ => True) (permitNames scope names)
      (permitNames scope (names.map (Node.rename C.rename)))
  | [] => corresponds_pure trivial
  | .ident name :: rest => by
    rw [List.map_cons, Node.rename_ident]
    refine (C.permit name hh).bind fun w₁ _ _ hw₁ _ => ?_
    exact corresponds_permitNames (C.home_mono hw₁ hh) rest
  | .number _ :: _ | .operator _ :: _ | .list _ :: _ => by
    simp only [List.map_cons, permitNames, Node.rename]
    exact corresponds_failTelling (e := .provideOperand) (fun _ _ => rfl) (fun _ h => by cases h) _

theorem corresponds_evalProvide (hh : C.Home w scope) (operands : List Node) :
    C.Corr w C.Renamed (evalProvide scope operands)
      (evalProvide scope (operands.map (Node.rename C.rename))) := by
  unfold evalProvide
  refine (corresponds_permitNames hh operands).bind fun w₁ _ _ hw₁ _ => ?_
  refine (C.permitted (C.home_mono hw₁ hh)).bind fun w₂ _ _ _ _ => ?_
  refine (C.log w₂ _ _).bind fun _ _ _ _ _ => ?_
  exact corresponds_plain rfl

theorem corresponds_evalDefine (hrec : C.Recurs recur) (hh : C.Home w scope)
    (hf : ∀ form ∈ operands, C.Form form) :
    C.Corr w C.Renamed (evalDefine recur scope operands)
      (evalDefine recur scope (operands.map (Node.rename C.rename))) := by
  rcases operands with _ | ⟨target, _ | ⟨form, _ | ⟨third, rest⟩⟩⟩
  · exact corresponds_fail rfl nofun
  · cases target <;>
      simp only [List.map_cons, List.map_nil, Node.rename_ident, Node.rename_number,
        Node.rename_operator, Node.rename_list] <;>
      exact corresponds_fail rfl nofun
  · simp only [List.forall_mem_cons] at hf
    obtain ⟨-, hform, -⟩ := hf
    cases target with
    | ident name =>
      simp only [List.map_cons, List.map_nil, Node.rename_ident, evalDefine]
      refine (hrec hform hh).bind ?_
      rintro w₁ v _ hw₁ ⟨rfl, hv⟩
      refine (C.define name (C.home_mono hw₁ hh) hv).bind fun _ _ _ _ _ => ?_
      exact corresponds_plain rfl
    | _ => exact corresponds_failTelling (e := .defineTarget) (fun _ _ => rfl) (fun _ => nofun) _
  · cases target <;> exact corresponds_fail rfl nofun

/-- Two readings of parameters: names and the names renamed, two malformed lambdas, or two numbers
that are too long to be told. -/
inductive BothRead (f : String → String) :
    Except Failure (List String) → Except Failure (List String) → Prop
  | names (names : List String) : BothRead f (.ok names) (.ok (names.map f))
  | malformed {e e' : ScriptError} (h : e.kind = .malformedLambda)
    (h' : e'.kind = .malformedLambda) : BothRead f (.error (.script e)) (.error (.script e'))
  | tooLong : BothRead f (.error (.host .integerTooLong)) (.error (.host .integerTooLong))

theorem bothRead_other (f : String → String) (form : Node) :
    BothRead f (.error (.telling .lambdaParameter form.text))
      (.error (.telling .lambdaParameter (form.rename f).text)) := by
  have h := form.text_rename f
  generalize form.text = x, (form.rename f).text = y at h ⊢
  cases h with
  | texts x y => exact .malformed rfl rfl
  | tooLong => exact .tooLong

theorem parametersOf_rename {f : String → String} (hf : f.Injective) :
    ∀ (params : List Node) (earlier : List String), BothRead f (parametersOf earlier params)
      (parametersOf (earlier.map f) (params.map (Node.rename f)))
  | [], earlier => .names earlier
  | .ident name :: rest, earlier => by
    have hmem : f name ∈ earlier.map f ↔ name ∈ earlier := List.mem_map_of_injective hf
    have ih := parametersOf_rename hf rest (earlier ++ [name])
    rw [List.map_append, List.map_singleton] at ih
    simp only [List.map_cons, Node.rename_ident, parametersOf, hmem]
    split
    · exact .malformed rfl rfl
    · exact ih
  | .number _ :: _, _ | .operator _ :: _, _ | .list _ :: _, _ => bothRead_other f _

theorem corresponds_parameters (params : List Node) :
    C.Corr w (Image (List.map C.rename) fun _ _ => True) (ofOutcome (parametersOf [] params))
      (ofOutcome (parametersOf [] (params.map (Node.rename C.rename)))) := by
  have h := parametersOf_rename C.injective params []
  rw [List.map_nil] at h
  generalize parametersOf [] params = x,
    parametersOf [] (params.map (Node.rename C.rename)) = y at h ⊢
  cases h with
  | names names => exact corresponds_pure ⟨rfl, trivial⟩
  | malformed h h' => exact corresponds_throw (C.like_error (h.trans h'.symm) (h ▸ nofun))
  | tooLong => exact corresponds_throw C.like_tooLong

theorem corresponds_evalLambda (hh : C.Home w scope) (hf : ∀ form ∈ operands, C.Form form) :
    C.Corr w C.Renamed (evalLambda scope operands)
      (evalLambda scope (operands.map (Node.rename C.rename))) := by
  rcases operands with _ | ⟨target, _ | ⟨body, _ | ⟨third, rest⟩⟩⟩
  · exact corresponds_fail rfl nofun
  · cases target <;> exact corresponds_fail rfl nofun
  · simp only [List.forall_mem_cons] at hf
    obtain ⟨-, hbody, -⟩ := hf
    cases target with
    | list params =>
      simp only [List.map_cons, List.map_nil, Node.rename_list, evalLambda]
      refine (corresponds_parameters params).bind ?_
      rintro w₁ names _ hw₁ ⟨rfl, -⟩
      refine (C.capture (C.home_mono hw₁ hh)).bind ?_
      rintro w₂ captured _ - ⟨rfl, hcaptured⟩
      exact corresponds_pure ⟨rfl, hbody, hcaptured⟩
    | _ =>
      simp only [List.map_cons, List.map_nil, Node.rename_number, Node.rename_ident,
        Node.rename_operator, evalLambda]
      exact corresponds_fail rfl nofun
  · cases target <;> exact corresponds_fail rfl nofun

/-! ## 4. Calls -/

/-- Under the legacy rules an argument is what its form says, and names are not renamed. -/
theorem corresponds_literalArgument (hm : setting.config.legacy = true) (form : Node) :
    C.Corr w C.Renamed (literalArgument setting form)
      (literalArgument setting (form.rename C.rename)) := by
  cases form with
  | number n => exact corresponds_plain rfl
  | ident name =>
    rw [Node.rename_ident, C.legacy_rename hm name]
    exact corresponds_plain rfl
  | operator symbol =>
    rw [Node.rename_operator]
    refine corresponds_ite Iff.rfl (fun _ => corresponds_plain rfl) fun _ => ?_
    exact corresponds_fail rfl nofun
  | list children =>
    exact corresponds_failTelling (e := .legacyArgument) (fun _ _ => rfl) (fun _ => nofun) _

theorem corresponds_evalArguments {captured : ScopeId} (hrec : C.Recurs recur)
    (hh : C.Home w scope) (hc : C.Captured w captured) (hf : ∀ form ∈ operands, C.Form form) :
    C.Corr w
      (Image (Prod.map (List.map (Value.rename C.rename)) id) fun w arguments =>
        (∀ v ∈ arguments.1, C.Good w v) ∧ C.Home w arguments.2)
      (evalArguments setting recur scope captured operands)
      (evalArguments setting recur scope captured (operands.map (Node.rename C.rename))) := by
  unfold evalArguments
  refine corresponds_ite Iff.rfl (fun hm => ?_) fun hm => ?_
  · refine (corresponds_values fun form _ _ _ => corresponds_literalArgument hm form).bind ?_
    intro w₁ values _ hw₁ hall
    obtain ⟨rfl, hv⟩ := hall.eq_map
    exact corresponds_pure ⟨rfl, hv, C.legacy_home hm (C.captured_mono hw₁ hc)⟩
  · have hm : setting.config.legacy = false := by simpa using hm
    have hall : ∀ form ∈ operands, ∀ w', w ≤ w' →
        C.Corr w' C.Renamed (recur form scope) (recur (form.rename C.rename) scope) :=
      fun form hmem w' hw => hrec (hf form hmem) (C.home_mono hw hh)
    refine (corresponds_values hall).bind ?_
    intro w₁ values _ hw₁ hall
    obtain ⟨rfl, hv⟩ := hall.eq_map
    -- The scope of the call is newer than the arguments, which stay good in the later world.
    refine (C.enter hm (C.captured_mono hw₁ hc)).bind ?_
    rintro w₂ callScope _ hw₂ ⟨rfl, hcall⟩
    exact corresponds_pure ⟨rfl, fun v hmem => good_mono hw₂ (hv v hmem), hcall⟩

theorem corresponds_bindAll {w : W} {callScope : ScopeId} (hh : C.Home w callScope) :
    ∀ {pairs : List (String × Value)}, (∀ pair ∈ pairs, C.Good w pair.2) →
      C.Corr w (fun _ _ _ => True) (bindAll callScope pairs)
        (bindAll callScope (pairs.map (Prod.map C.rename (Value.rename C.rename))))
  | [], _ => corresponds_pure trivial
  | (name, v) :: rest, h => by
    obtain ⟨hv, hrest⟩ := List.forall_mem_cons.mp h
    refine (C.define name hh hv).bind fun w₁ _ _ hw₁ _ => ?_
    exact corresponds_bindAll (C.home_mono hw₁ hh) fun pair hmem => good_mono hw₁ (hrest pair hmem)

theorem corresponds_callName (name : String) (hrec : C.Recurs recur) (hh : C.Home w scope)
    (hf : ∀ form ∈ operands, C.Form form) :
    C.Corr w C.Renamed (callName setting recur scope name operands)
      (callName setting recur scope (C.rename name) (operands.map (Node.rename C.rename))) := by
  unfold callName
  refine (C.lookup name hh).bind ?_
  rintro w₁ found _ hw₁ ⟨rfl, hfound⟩
  have hh₁ := C.home_mono hw₁ hh
  rcases found with _ | v
  · exact corresponds_fail rfl nofun
  cases v with
  | closure params body captured =>
    obtain ⟨hbody, hcaptured⟩ := hfound _ rfl
    refine (C.permitted (C.home_root w₁)).bind ?_
    rintro w₂ names _ hw₂ ⟨rfl, -⟩
    -- An injective renaming leaves it to the same names whether they may be called.
    have hdenied : names ≠ [] ∧ name ∉ names ↔
        names.map C.rename ≠ [] ∧ C.rename name ∉ names.map C.rename := by
      simp [C.injective.eq_iff]
    have harity : operands.length ≠ params.length ↔
        (operands.map (Node.rename C.rename)).length ≠ (params.map C.rename).length := by
      simp
    refine corresponds_when hdenied (fun _ => corresponds_fail rfl nofun) fun w₃ hw₃ => ?_
    refine corresponds_when harity (fun _ => corresponds_fail rfl nofun) fun w₄ hw₄ => ?_
    have hlater : w₁ ≤ w₄ := le_trans hw₂ (le_trans hw₃ hw₄)
    refine (corresponds_evalArguments hrec (C.home_mono hlater hh₁)
      (C.captured_mono hlater hcaptured) hf).bind ?_
    rintro w₅ ⟨values, callScope⟩ _ hw₅ ⟨rfl, hvalues, hcall⟩
    dsimp only [Prod.map, id]
    rw [List.zip_map]
    refine (corresponds_bindAll hcall fun pair hmem => hvalues _ (List.of_mem_zip hmem).2).bind
      fun w₆ _ _ hw₆ _ => ?_
    have hshown : BothWritten (Value.allShown values)
        (Value.allShown (values.map (Value.rename C.rename))) := by
      refine Value.allShown_alike (List.forall₂_map_right_iff.mpr (List.forall₂_same.mpr ?_))
      exact fun v _ => v.alike_rename C.rename
    refine (C.bond.corresponds_written hshown).bind fun w₇ _ _ hw₇ _ => ?_
    refine (C.log w₇ _ _).bind fun w₈ _ _ hw₈ _ => ?_
    exact hrec hbody (C.home_mono (le_trans hw₆ (le_trans hw₇ hw₈)) hcall)
  | _ => exact corresponds_fail rfl nofun

theorem corresponds_evalCall {head : Node} (hrec : C.Recurs recur) (hh : C.Home w scope)
    (hhead : C.Form head) (hf : ∀ form ∈ operands, C.Form form) :
    C.Corr w C.Renamed (evalCall setting recur scope head operands)
      (evalCall setting recur scope (head.rename C.rename)
        (operands.map (Node.rename C.rename))) := by
  cases head with
  | number n =>
    exact corresponds_failTelling (e := .headNotName) (fun _ _ => rfl) (fun _ => nofun) _
  | ident name => rw [Node.rename_ident]; exact corresponds_callName name hrec hh hf
  | operator symbol =>
    have hcall := corresponds_callName symbol hrec hh hf
    rw [C.form_operator hhead] at hcall
    rw [Node.rename_operator]
    exact hcall
  | list children =>
    exact corresponds_failTelling (e := .headNotName) (fun _ _ => rfl) (fun _ => nofun) _

/-! ## 5. Evaluation -/

/-- A list and the renamed list go by the same rule. -/
theorem ruleOf_rename {head : Node} (hhead : C.Form head) (operands : List Node) :
    ruleOf (head.rename C.rename) (operands.map (Node.rename C.rename)) = ruleOf head operands := by
  cases head with
  | number n => simp [ruleOf, Node.headText]
  | ident name => simpa [ruleOf, Node.headText, Except.map] using C.form_ident hhead
  | operator symbol => simp [ruleOf, Node.headText]
  | list children => simp [ruleOf, Node.headText]

theorem corresponds_evalList {head : Node} (hrec : C.Recurs recur) (hh : C.Home w scope)
    (hhead : C.Form head) (hf : ∀ form ∈ operands, C.Form form) :
    C.Corr w C.Renamed (evalList setting recur scope head operands)
      (evalList setting recur scope (head.rename C.rename)
        (operands.map (Node.rename C.rename))) := by
  have hrows : C.bond.Rows w recur recur scope scope operands
      (operands.map (Node.rename C.rename)) :=
    List.forall₂_map_right_iff.mpr (List.forall₂_same.mpr fun form hmem w' hw =>
      hrec (hf form hmem) (C.home_mono hw hh))
  have hrename := ruleOf_rename hhead operands
  cases hr : ruleOf head operands with
  | error fault =>
    rw [evalList_of_fault hr, evalList_of_fault (hrename.trans hr), (of_ruleOf_error hr).1]
    exact corresponds_throw C.like_tooLong
  | ok rule =>
    rw [evalList_of_rule hr, evalList_of_rule (hrename.trans hr)]
    cases rule with
    | balance => exact corresponds_evalBalance operands
    | provide => exact corresponds_evalProvide hh operands
    | define => exact corresponds_evalDefine hrec hh hf
    | lambda => exact corresponds_evalLambda hh hf
    | call => exact corresponds_evalCall hrec hh hhead hf
    | _ => exact C.bond.corresponds_evalRule hrows (by decide)

theorem corresponds_evalForm {form : Node} (hrec : C.Recurs recur) (hh : C.Home w scope)
    (hf : C.Form form) :
    C.Corr w C.Renamed (evalForm setting recur scope form)
      (evalForm setting recur scope (form.rename C.rename)) := by
  rcases form with n | name | symbol | ⟨_ | ⟨head, operands⟩⟩
  · rw [Node.rename_number]
    exact corresponds_plain rfl
  · rw [Node.rename_ident]
    refine (C.lookup name hh).bind ?_
    rintro w₁ found _ - ⟨rfl, hfound⟩
    rcases found with _ | v
    · exact corresponds_fail rfl nofun
    · exact corresponds_pure ⟨rfl, hfound v rfl⟩
  · rw [Node.rename_operator]
    refine corresponds_ite Iff.rfl (fun _ => corresponds_plain rfl) fun _ => ?_
    exact corresponds_fail rfl nofun
  · rw [Node.rename_list]
    exact corresponds_fail rfl nofun
  · rw [Node.rename_list]
    obtain ⟨hhead, hoperands⟩ := List.forall_mem_cons.mp (C.form_list hf)
    exact corresponds_evalList hrec hh hhead hoperands

end Rules

/-- **Forms and renamed forms are evaluated alike,** at every depth. -/
theorem evaluate (C : Correspondence setting W) : ∀ depth : Nat,
    C.Recurs (Run.evaluate setting depth)
  | 0 => fun _ _ => corresponds_throw C.like_tooDeep
  | depth + 1 => by
    intro hf hh
    refine (C.count _).bind fun w₁ _ _ hw₁ _ => ?_
    exact corresponds_evalForm (C.evaluate depth) (C.home_mono hw₁ hh) hf

/-! ## 6. The forms of a script -/

/-- The scopes are told in both runs or in none. -/
theorem corresponds_logScopes : C.Corr w (fun _ _ _ => True) logScopes logScopes := by
  intro s t hst
  rw [run_logScopes, run_logScopes]
  have htold := C.told_iff hst
  by_cases hs : s.arena.Told
  · rw [Arena.snapshot_of_told hs, Arena.snapshot_of_told (htold.mp hs)]
    exact C.log w _ _ s t hst
  · rw [Arena.snapshot_of_not_told hs, Arena.snapshot_of_not_told (mt htold.mpr hs)]
    exact .fault le_rfl hst C.like_tooLong

theorem corresponds_executeForm {form : Node} (hf : C.Form form) (hw : form.isWritable = true) :
    C.Corr w C.Renamed (executeForm setting form) (executeForm setting (form.rename C.rename)) := by
  unfold executeForm
  refine corresponds_when Iff.rfl (fun _ => ?_) fun w₁ _ => ?_
  · obtain ⟨record, hrecord⟩ := exists_dumpRecord hw
    obtain ⟨record', hrecord'⟩ :=
      exists_dumpRecord ((Node.isWritable_rename C.rename form).trans hw)
    unfold logForm
    rw [hrecord, hrecord']
    exact C.log w record record'
  have hvalue : C.Corr w₁ C.Renamed
      (reportDepth (Run.evaluate setting setting.config.maxDepth form Arena.rootId))
      (reportDepth (Run.evaluate setting setting.config.maxDepth (form.rename C.rename)
        Arena.rootId)) := by
    refine (C.evaluate _ hf (C.home_root w₁)).tryCatch fun w₂ x y _ hl => ?_
    -- Only the depth fault is reported as another, so both are or neither is.
    have hdeep := C.tooDeep_iff hl
    by_cases hx : x = .tooDeep
    · rw [hx, hdeep.mp hx]
      exact corresponds_fail rfl nofun
    · have hy : y ≠ .tooDeep := fun hy => hx (hdeep.mpr hy)
      cases x <;> cases y <;> first | exact absurd rfl hx | exact absurd rfl hy |
        exact corresponds_throw hl
  refine hvalue.bind fun w₂ v v' _ hv => ?_
  refine (C.bond.corresponds_written (C.bond.alike hv).shown).bind fun w₃ _ _ hw₃ _ => ?_
  refine (C.log w₃ _ _).bind fun w₄ _ _ hw₄ _ => ?_
  have hv' := renamed_mono (le_trans hw₃ hw₄) hv
  exact corresponds_when Iff.rfl (fun _ => corresponds_logScopes) fun w₅ hw₅ =>
    corresponds_pure (renamed_mono hw₅ hv')

/-- **The forms of a script and the renamed forms are executed alike.** -/
theorem execute (C : Correspondence setting W) {forms : List Node}
    (hf : ∀ form ∈ forms, C.Form form) (hw : ∀ form ∈ forms, form.isWritable = true) (w : W) :
    C.Corr w C.AllRenamed (Run.execute setting forms)
      (Run.execute setting (forms.map (Node.rename C.rename))) :=
  corresponds_values fun form hmem _ _ => corresponds_executeForm (hf form hmem) (hw form hmem)

end Correspondence

end Run

end LedgerScript
