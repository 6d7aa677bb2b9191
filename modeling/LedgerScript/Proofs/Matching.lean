/-
# Evaluations that match

One form may be evaluated in two arenas, from a scope of each, and the evaluations still do the
same, if every name is looked up alike from both scopes: to the same value, or to two closures that
differ in the scopes they captured only (`Value.Paired`).  They come to such values or to the same
fault, and leave the same ledger and the same output.

Such evaluations have a bond (`matchingBond`), which settles the rules that evaluate their operands
in turn and then work on the values; but for products these do not care for the convention of
calling (`matches_evalList`).  Which arenas are related, and why names are looked up alike in them,
is left to those who use the rules.
-/
import LedgerScript.Proofs.Calls
import LedgerScript.Proofs.Kinship
import Mathlib.Data.Set.BooleanAlgebra
import Mathlib.Order.CompletePartialOrder

namespace LedgerScript

/-! ## 1. Values -/

/-- The scopes that a closure captured in two arenas, and the parameters of the closure. -/
structure Capture where
  left : ScopeId
  right : ScopeId
  params : List String

/-- Two values are the same, or closures that differ in the scopes they captured only; of their body
`F` holds. -/
inductive Value.Paired (F : Node → Prop) (w : Set Capture) : Value → Value → Prop
  | plain {v : Value} (h : v.capture? = none) : Paired F w v v
  | closure {params : List String} {body : Node} {l r : ScopeId} (hc : ⟨l, r, params⟩ ∈ w)
    (hb : F body) : Paired F w (.closure params body l) (.closure params body r)

namespace Value

/-- A value without the scope that it captured. -/
def uncaptured : Value → Value
  | closure params body _ => closure params body Arena.rootId
  | v => v

namespace Paired

variable {F : Node → Prop} {w w' : Set Capture} {a b : Value}

theorem mono (h : Paired F w a b) (hw : w ≤ w') : Paired F w' a b := by
  cases h with
  | plain h => exact .plain h
  | closure hc hb => exact .closure (hw hc) hb

theorem alike (h : Paired F w a b) : a.Alike b := by
  cases h with
  | plain h => exact .plain h
  | closure => exact .closure _ _ _ _ _ _

theorem shown_eq (h : Paired F w a b) : b.shown = a.shown := by
  cases h <;> rfl

theorem toJson_eq (h : Paired F w a b) : b.toJson = a.toJson := by
  cases h <;> rfl

theorem uncaptured_eq (h : Paired F w a b) : b.uncaptured = a.uncaptured := by
  cases h <;> rfl

end Paired

/-- What is the same for paired values is the same for rows of them. -/
theorem map_eq_of_paired {α : Type} {f : Value → α} {F : Node → Prop} {w : Set Capture}
    (hf : ∀ {a b}, Paired F w a b → f b = f a) {values values' : List Value}
    (h : List.Forall₂ (Paired F w) values values') : values'.map f = values.map f := by
  induction h with
  | nil => rfl
  | cons hv _ ih => rw [List.map_cons, List.map_cons, hf hv, ih]

end Value

/-- Every name is looked up alike, from a scope of one arena and from a scope of another. -/
def Arena.Sees (F : Node → Prop) (w : Set Capture) (a : Arena) (l : ScopeId) (b : Arena)
    (r : ScopeId) : Prop :=
  ∀ name, ∃ x y, a.lookup (some l) name = .ok x ∧ b.lookup (some r) name = .ok y ∧
    Option.Rel (Value.Paired F w) x y

namespace Run

open Eval Kinship

/-! ## 2. States that match -/

/-- Two settings that differ in the convention of calling only. -/
def Setting.calling (setting : Setting) (legacy : Bool) : Setting :=
  { setting with config := { setting.config with legacy } }

/-- Two states have the same ledger and output, and arenas that are related. -/
structure State.Matches (R : Arena → Arena → Prop) (s t : State) : Prop where
  arena : R s.arena t.arena
  ledger : t.ledger = s.ledger
  output : t.output = s.output
  sink : t.sink = s.sink

/-- Runs whose states match; they end in the same faults. -/
def matching (R : Set Capture → Arena → Arena → Prop) : Kinship (Set Capture) where
  Rel w := State.Matches (R w)
  Like := Eq

variable {F : Node → Prop} {R : Set Capture → Arena → Arena → Prop} {w : Set Capture}
variable {α β : Type} {setting : Setting}

/-- Two evaluations match: they come to values that are paired, or to the same fault. -/
abbrev Match (F : Node → Prop) (R : Set Capture → Arena → Arena → Prop) (w : Set Capture)
    (m n : Eval Value) : Prop :=
  (matching R).Corresponds w (Value.Paired F) m n

theorem matches_fail {Q : Set Capture → α → β → Prop} (error : ScriptError) :
    (matching R).Corresponds w Q (fail error) (fail error) := corresponds_throw rfl

theorem matches_failTelling {Q : Set Capture → α → β → Prop} (error : String → ScriptError)
    (text : Except HostFault String) :
    (matching R).Corresponds w Q (failTelling error text) (failTelling error text) :=
  corresponds_throw rfl

theorem matches_plain {v : Value} (h : v.capture? = none) : Match F R w (pure v) (pure v) :=
  corresponds_pure (.plain h)

theorem matches_ofHost (x : Except HostFault α) :
    (matching R).Corresponds w (Same fun _ _ => True) (ofHost x) (ofHost x) :=
  corresponds_ofHost (fun a h => ⟨a, h, rfl, trivial⟩) fun fault h => ⟨fault, h, rfl⟩

/-- Without a limit, steps are counted apart. -/
theorem matches_countStep (hlimit : setting.config.maxSteps = none) (legacy legacy' : Bool) :
    (matching R).Corresponds w (fun _ _ _ => True)
      (countStep (setting.calling legacy).config.maxSteps)
      (countStep (setting.calling legacy').config.maxSteps) := by
  have hnone (legacy : Bool) : (setting.calling legacy).config.maxSteps = none := hlimit
  rw [hnone, hnone]
  exact fun _ _ h => .value le_rfl ⟨h.arena, h.ledger, h.output, h.sink⟩ trivial

/-- So is what is logged. -/
theorem matches_log (record record' : Record) :
    (matching R).Corresponds w (fun _ _ _ => True) (log record) (log record') :=
  fun _ _ h => .value le_rfl ⟨h.arena, h.ledger, h.output, h.sink⟩ trivial

theorem matches_writeLine (line : String) :
    (matching R).Corresponds w (fun _ _ _ => True) (writeLine line) (writeLine line) := by
  intro s t h
  refine .value le_rfl ⟨h.arena, h.ledger, ?_, ?_⟩ trivial
  · exact congrArg (· ++ [line]) h.output
  · exact congrArg (Option.map (· ++ [line])) h.sink

theorem matches_lookup? {l r : ScopeId} (hsees : ∀ a b, R w a b → a.Sees F w l b r)
    (name : String) :
    (matching R).Corresponds w (fun w => Option.Rel (Value.Paired F w))
      (lookup? (some l) name) (lookup? (some r) name) := by
  intro s t h
  obtain ⟨x, y, hx, hy, hxy⟩ := hsees _ _ h.arena name
  rw [run_lookup?_of_eq hx, run_lookup?_of_eq hy]
  exact .value le_rfl h hxy

theorem matches_lookup {l r : ScopeId} (hsees : ∀ a b, R w a b → a.Sees F w l b r)
    (name : String) : Match F R w (lookup (some l) name) (lookup (some r) name) := by
  refine (matches_lookup? hsees name).bind ?_
  intro w' x y _ hxy
  cases hxy with
  | none => exact matches_fail _
  | some h => exact corresponds_pure h

theorem matches_setBalance (account : Account) (amount : Int) :
    (matching R).Corresponds w (fun _ _ _ => True) (setBalance account amount)
      (setBalance account amount) :=
  Kinship.corresponds_setBalance (K := matching R) State.Matches.ledger
    (fun _ h => ⟨h.arena, rfl, h.output, h.sink⟩) (fun _ => rfl) account amount

/-- The bond of evaluations that match. -/
def matchingBond (F : Node → Prop) (R : Set Capture → Arena → Arena → Prop) :
    Bond (Set Capture) where
  toKinship := matching R
  Pair := Value.Paired F
  Balance _ := True
  pair_mono hw h := h.mono hw
  pair_plain := .plain
  alike := Value.Paired.alike
  balance_debit _ _ := trivial
  balance_credit _ _ := trivial
  like_error _ := rfl
  like_telling _ _ hab ha hb := by
    rw [hab.shown_eq, ha] at hb
    cases hb
    rfl
  like_tooLong := rfl
  write hab ha hb := by
    rw [hab.shown_eq, ha] at hb
    cases hb
    exact matches_writeLine _
  log _ := matches_log
  balance _ := Kinship.corresponds_balance State.Matches.ledger fun _ _ => trivial
  setBalance _ account _ _ := matches_setBalance account _

/-! ## 3. Rules -/

/-- The rules that do without the scopes of their forms and do the same under both conventions. -/
def steady : List SpecialForm := [.balance, .transfer, .println, .add, .sub, .div]

section Rules

variable {recur recur' : Node → ScopeId → Eval Value} {l r : ScopeId} {operands : List Node}

theorem evalRule_calling (setting : Setting) (legacy : Bool) (recur : Node → ScopeId → Eval Value)
    (scope : ScopeId) (head : Node) (operands : List Node) {rule : SpecialForm}
    (hr : rule ∈ steady) :
    evalRule (setting.calling legacy) recur scope head operands rule =
      evalRule setting recur scope head operands rule := by
  cases rule with
  | mul | call => exact absurd hr (by decide)
  | _ => rfl

-- The operands are evaluated alike in every world, since the world may grow from one to the next.
variable (hrec : ∀ form ∈ operands, ∀ w, Match F R w (recur form l) (recur' form r))

include hrec

theorem matches_evalRule (setting : Setting) (head : Node) {rule : SpecialForm}
    (hr : rule ∈ steady) :
    Match F R w (evalRule setting recur l head operands rule)
      (evalRule setting recur' r head operands rule) := by
  have hrows : (matchingBond F R).Rows w recur recur' l r operands operands :=
    List.forall₂_same.mpr fun form hmem w' _ => hrec form hmem w'
  cases rule with
  | balance => exact (matchingBond F R).corresponds_evalBalance operands
  | transfer | println | add | sub | div => exact Bond.corresponds_evalRule hrows (by decide)
  | provide | define | lambda | mul | call => exact absurd hr (by decide)

/-- **The rules that work on the values of their operands** match, whatever the conventions of
calling are. -/
theorem matches_evalList {head : Node} (legacy legacy' : Bool)
    (hrule : ∀ rule, ruleOf head operands = .ok rule → rule ∈ steady) :
    Match F R w (evalList (setting.calling legacy) recur l head operands)
      (evalList (setting.calling legacy') recur' r head operands) := by
  cases hr : ruleOf head operands with
  | error fault =>
    rw [evalList_of_fault hr, evalList_of_fault hr]
    exact corresponds_throw rfl
  | ok rule =>
    have hsteady := hrule rule hr
    rw [evalList_of_rule hr, evalList_of_rule hr, evalRule_calling _ _ _ _ _ _ hsteady,
      evalRule_calling _ _ _ _ _ _ hsteady]
    exact matches_evalRule hrec setting head hsteady

omit hrec in
/-- A form matches if every name is looked up alike, and lists match. -/
theorem matches_evalForm {legacy legacy' : Bool}
    (hsees : ∀ a b, R w a b → a.Sees F w l b r) {form : Node}
    (hlist : ∀ head operands, form = .list (head :: operands) →
      Match F R w (evalList (setting.calling legacy) recur l head operands)
        (evalList (setting.calling legacy') recur' r head operands)) :
    Match F R w (evalForm (setting.calling legacy) recur l form)
      (evalForm (setting.calling legacy') recur' r form) := by
  rcases form with n | name | symbol | ⟨_ | ⟨head, operands⟩⟩
  · exact matches_plain rfl
  · exact matches_lookup hsees name
  · exact corresponds_ite Iff.rfl (fun _ => matches_plain rfl) fun _ => matches_fail _
  · exact matches_fail _
  · exact hlist head operands rfl

end Rules

end Run

end LedgerScript
