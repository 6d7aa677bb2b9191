/-
# Two computations side by side

Many properties relate two runs of a script: what they come to under settings that differ in one
knob, or from states that differ in something that a script does not see.  A `Lifting` is a
relation between computations that the monad respects: it holds of a value and itself, of a fault
and itself, and of one computation after another.  A `Pairing` of two settings is a lifting that
every operation of an evaluation respects.

Evaluation is written in terms of these alone, so every pairing relates the two evaluations of
every form (`Pairing.evaluate`), if the names of the form are names that the pairing is about.
-/
import LedgerScript.Proofs.Names
import LedgerScript.Proofs.Outcome

namespace LedgerScript.Run

open Eval

variable {α β : Type}

/-! ## 1. Liftings -/

/-- A relation between computations that the monad respects.  `Lifts Q m n` also says that `Q`
holds of the values. -/
structure Lifting where
  Lifts {α : Type} (Q : α → Prop) (m n : Eval α) : Prop
  value {α : Type} {Q : α → Prop} {a : α} (ha : Q a) : Lifts Q (pure a) (pure a)
  fault {α : Type} {Q : α → Prop} (fault : Fault) : Lifts Q (throw fault) (throw fault)
  after {α β : Type} {Q : α → Prop} {Q' : β → Prop} {m n : Eval α} {f g : α → Eval β}
    (h : Lifts Q m n) (hf : ∀ a, Q a → Lifts Q' (f a) (g a)) : Lifts Q' (m >>= f) (n >>= g)

namespace Lifting

variable (L : Lifting) {Q : α → Prop} {Q' : β → Prop} {m n m' n' : Eval α}

/-- One computation after another. -/
theorem Lifts.bind {L : Lifting} {f g : α → Eval β} (h : L.Lifts Q m n)
    (hf : ∀ a, Q a → L.Lifts Q' (f a) (g a)) : L.Lifts Q' (m >>= f) (n >>= g) :=
  L.after h hf

theorem Lifts.mono {L : Lifting} {P : α → Prop} (h : L.Lifts P m n) (hp : ∀ a, P a → Q a) :
    L.Lifts Q m n := by
  have hbind := h.bind fun a ha => L.value (hp a ha)
  rwa [bind_pure, bind_pure] at hbind

theorem fail (error : ScriptError) : L.Lifts Q (Eval.fail error) (Eval.fail error) := L.fault _

theorem ofHost {x : Except HostFault α} (ha : ∀ a, x = .ok a → Q a) :
    L.Lifts Q (Eval.ofHost x) (Eval.ofHost x) := by
  cases x with
  | ok a => exact L.value (ha a rfl)
  | error fault => exact L.fault _

theorem host (x : Except HostFault α) :
    L.Lifts (fun _ => True) (Eval.ofHost x) (Eval.ofHost x) := L.ofHost fun _ _ => trivial

theorem outcome (x : Except Failure α) :
    L.Lifts (fun _ => True) (Eval.ofOutcome x) (Eval.ofOutcome x) := by
  cases x with
  | ok a => exact L.value trivial
  | error failure => exact L.fault _

theorem failTelling (error : String → ScriptError) (text : Except HostFault String) :
    L.Lifts Q (Eval.failTelling error text) (Eval.failTelling error text) := L.fault _

theorem ite {c : Prop} [Decidable c] (h : c → L.Lifts Q m n) (h' : ¬ c → L.Lifts Q m' n') :
    L.Lifts Q (if c then m else m') (if c then n else n') := by
  split
  · next hc => exact h hc
  · next hc => exact h' hc

/-- What is done on a condition, before what is done in any case. -/
theorem when {c : Prop} [Decidable c] {u v : Eval Unit} {k l : Unit → Eval α}
    (h : c → L.Lifts (fun _ => True) u v) (hk : L.Lifts Q (k ()) (l ())) :
    L.Lifts Q (if c then u >>= k else k ()) (if c then v >>= l else l ()) :=
  L.ite (fun hc => (h hc).bind fun _ _ => hk) fun _ => hk

/-- Computations over a list, from left to right. -/
theorem mapM {ι : Type} {f g : ι → Eval α} {xs : List ι}
    (h : ∀ x ∈ xs, L.Lifts Q (f x) (g x)) :
    L.Lifts (fun ys => ∀ y ∈ ys, Q y) (xs.mapM f) (xs.mapM g) := by
  induction xs with
  | nil => exact L.value fun _ h => absurd h List.not_mem_nil
  | cons x rest ih =>
    obtain ⟨hx, hrest⟩ := List.forall_mem_cons.mp h
    rw [List.mapM_cons, List.mapM_cons]
    refine hx.bind fun y hy => ?_
    refine (ih hrest).bind fun ys hys => ?_
    exact L.value (List.forall_mem_cons.mpr ⟨hy, hys⟩)

end Lifting

/-! ## 2. Pairings -/

/-- The records that evaluations log. -/
def Record.OfEvaluation : Record → Prop
  | .transferred .. | .provides .. | .calling .. => True
  | _ => False

/-- A lifting that every operation of an evaluation respects, under one setting on the left and
another on the right. -/
structure Pairing (left right : Setting) extends Lifting where
  /-- The names that the pairing is about. -/
  Name : String → Prop
  me : left.me = right.me
  legacy : left.config.legacy = right.config.legacy
  count : Lifts (fun _ => True)
    (countStep left.config.maxSteps) (countStep right.config.maxSteps)
  write (line : String) : Lifts (fun _ => True) (writeLine line) (writeLine line)
  log (record : Record) (h : record.OfEvaluation) :
    Lifts (fun _ => True) (Eval.log record) (Eval.log record)
  newScope (parent : ScopeId) : Lifts (fun _ => True)
    (Eval.newScope (some parent)) (Eval.newScope (some parent))
  define (scope : ScopeId) (name : String) {v : Value} (hv : v.Within Name) :
    Lifts (fun _ => True) (Eval.define scope name v) (Eval.define scope name v)
  permit (scope : ScopeId) (name : String) :
    Lifts (fun _ => True) (Eval.permit scope name) (Eval.permit scope name)
  permitted (scope : ScopeId) :
    Lifts (fun _ => True) (Eval.permitted scope) (Eval.permitted scope)
  lookup (scope : ScopeId) {name : String} (hn : Name name) :
    Lifts (fun found => ∀ v, found = some v → v.Within Name)
      (lookup? (some scope) name) (lookup? (some scope) name)
  balance : Lifts (fun _ => True) (Eval.balance left.me) (Eval.balance right.me)
  transfer {amount : Int} (h : 0 ≤ amount) (destination : Account) :
    Lifts (fun _ => True)
      (moveFunds left amount destination) (moveFunds right amount destination)

namespace Pairing

variable {left right : Setting} (L : Pairing left right)

/-- Two ways to evaluate forms are related, at forms whose names are names of the pairing. -/
def Recurs (recur recur' : Node → ScopeId → Eval Value) : Prop :=
  ∀ form scope, form.Within L.Name →
    L.Lifts (Value.Within L.Name) (recur form scope) (recur' form scope)

variable {L} {recur recur' : Node → ScopeId → Eval Value} {scope : ScopeId}
variable {operands : List Node}

/-! ## 3. The rules -/

theorem lifts_evalBalance (operands : List Node) :
    L.Lifts (Value.Within L.Name) (evalBalance left operands) (evalBalance right operands) := by
  unfold evalBalance
  split
  · refine L.ite (fun _ => ?_) fun _ => L.fail _
    exact L.balance.bind fun _ _ => L.value trivial
  · exact L.fail _

theorem lifts_amountOf (v : Value) : L.Lifts (fun n => 0 ≤ n) (amountOf v) (amountOf v) := by
  unfold amountOf
  split
  · exact L.ite L.value fun _ => L.failTelling _ _
  · exact L.failTelling _ _

theorem lifts_destinationOf (v : Value) :
    L.Lifts (fun _ => True) (destinationOf v) (destinationOf v) := by
  unfold destinationOf
  split
  · exact L.value trivial
  · exact L.failTelling _ _

theorem lifts_evalTransfer (hrec : L.Recurs recur recur')
    (hw : ∀ form ∈ operands, form.Within L.Name) :
    L.Lifts (Value.Within L.Name) (evalTransfer left recur scope operands)
      (evalTransfer right recur' scope operands) := by
  unfold evalTransfer
  split
  · next amountForm destinationForm =>
    obtain ⟨ha, hd⟩ := List.forall_mem_cons.mp hw
    refine (hrec amountForm scope ha).bind fun v _ => ?_
    refine (hrec destinationForm scope (hd _ List.mem_cons_self)).bind fun v' _ => ?_
    refine (lifts_amountOf v).bind fun amount hamount => ?_
    refine (lifts_destinationOf v').bind fun destination _ => ?_
    refine (L.transfer hamount destination).bind fun _ _ => ?_
    exact L.value trivial
  · exact L.fail _

theorem lifts_permitNames : ∀ names : List Node,
    L.Lifts (fun _ => True) (permitNames scope names) (permitNames scope names)
  | [] => L.value trivial
  | .ident name :: rest => (L.permit scope name).bind fun _ _ => lifts_permitNames rest
  | .number _ :: _ => L.failTelling _ _
  | .operator _ :: _ => L.failTelling _ _
  | .list _ :: _ => L.failTelling _ _

theorem lifts_evalProvide (operands : List Node) :
    L.Lifts (Value.Within L.Name) (evalProvide scope operands) (evalProvide scope operands) := by
  unfold evalProvide
  refine (lifts_permitNames operands).bind fun _ _ => ?_
  refine (L.permitted scope).bind fun names _ => ?_
  refine (L.log (.provides _ _) trivial).bind fun _ _ => ?_
  exact L.value trivial

theorem lifts_evalDefine (hrec : L.Recurs recur recur')
    (hw : ∀ form ∈ operands, form.Within L.Name) :
    L.Lifts (Value.Within L.Name) (evalDefine recur scope operands)
      (evalDefine recur' scope operands) := by
  unfold evalDefine
  split
  · next name form =>
    refine (hrec form scope (hw form (by simp))).bind fun v hv => ?_
    refine (L.define scope name hv).bind fun _ _ => ?_
    exact L.value trivial
  · exact L.failTelling _ _
  · exact L.fail _

theorem lifts_evalLambda (hw : ∀ form ∈ operands, form.Within L.Name) :
    L.Lifts (Value.Within L.Name) (evalLambda scope operands) (evalLambda scope operands) := by
  unfold evalLambda
  split
  · next params body =>
    refine (L.outcome _).bind fun names _ => ?_
    refine (L.newScope scope).bind fun captured _ => ?_
    exact L.value (hw body (by simp))
  · exact L.fail _
  · exact L.fail _

theorem lifts_evalPrintln (hrec : L.Recurs recur recur')
    (hw : ∀ form ∈ operands, form.Within L.Name) :
    L.Lifts (Value.Within L.Name) (evalPrintln recur scope operands)
      (evalPrintln recur' scope operands) := by
  unfold evalPrintln
  split
  · next form =>
    refine (hrec form scope (hw form List.mem_cons_self)).bind fun v _ => ?_
    refine (L.host _).bind fun line _ => ?_
    refine (L.write line).bind fun _ _ => ?_
    exact L.value trivial
  · exact L.fail _

theorem lifts_integerOperand {form : Node} (name : String) (hrec : L.Recurs recur recur')
    (hw : form.Within L.Name) :
    L.Lifts (fun _ => True) (integerOperand recur scope name form)
      (integerOperand recur' scope name form) := by
  unfold integerOperand
  refine (hrec form scope hw).bind fun v _ => ?_
  cases v with
  | integer n => exact L.value trivial
  | _ => exact L.failTelling _ _

theorem lifts_integerOperands (name : String) (hrec : L.Recurs recur recur')
    (hw : ∀ form ∈ operands, form.Within L.Name) :
    L.Lifts (fun _ => True) (integerOperands recur scope name operands)
      (integerOperands recur' scope name operands) := by
  unfold integerOperands
  refine L.ite (fun _ => L.fail _) fun _ => ?_
  have hall : ∀ form ∈ operands, L.Lifts (fun _ => True)
      (integerOperand recur scope name form) (integerOperand recur' scope name form) :=
    fun form hmem => lifts_integerOperand name hrec (hw form hmem)
  exact (L.mapM hall).mono fun _ _ => trivial

theorem lifts_integerPair (name : String) (hrec : L.Recurs recur recur')
    (hw : ∀ form ∈ operands, form.Within L.Name) :
    L.Lifts (fun _ => True) (integerPair recur scope name operands)
      (integerPair recur' scope name operands) := by
  unfold integerPair
  split
  · next first second =>
    refine (lifts_integerOperand name hrec (hw first (by simp))).bind fun a _ => ?_
    refine (lifts_integerOperand name hrec (hw second (by simp))).bind fun b _ => ?_
    exact L.value trivial
  · exact L.fail _

theorem lifts_evalDiv (hrec : L.Recurs recur recur')
    (hw : ∀ form ∈ operands, form.Within L.Name) :
    L.Lifts (Value.Within L.Name) (evalDiv recur scope operands)
      (evalDiv recur' scope operands) := by
  unfold evalDiv
  refine (lifts_integerPair "/" hrec hw).bind ?_
  rintro ⟨a, b⟩ -
  refine L.ite (fun _ => ?_) fun _ => L.value trivial
  refine (L.host _).bind fun shown _ => ?_
  exact (L.fail (Q := fun _ => True) _).bind fun _ _ => L.value trivial

/-! ## 4. Calls -/

theorem lifts_literalArgument (form : Node) :
    L.Lifts (Value.Within L.Name) (literalArgument left form) (literalArgument right form) := by
  unfold literalArgument
  rw [L.me]
  split
  · exact L.value trivial
  · exact L.value trivial
  · exact L.ite (fun _ => L.value trivial) fun _ => L.fail _
  · exact L.failTelling _ _

theorem lifts_evalArguments (captured : ScopeId) (hrec : L.Recurs recur recur')
    (hw : ∀ form ∈ operands, form.Within L.Name) :
    L.Lifts (fun arguments => ∀ v ∈ arguments.1, v.Within L.Name)
      (evalArguments left recur scope captured operands)
      (evalArguments right recur' scope captured operands) := by
  unfold evalArguments
  rw [L.legacy]
  refine L.ite (fun _ => ?_) fun _ => ?_
  · refine (L.mapM fun form _ => lifts_literalArgument form).bind fun values hv => ?_
    exact L.value hv
  · refine (L.mapM fun form hmem => hrec form scope (hw form hmem)).bind
      fun values hv => ?_
    refine (L.newScope captured).bind fun callScope _ => ?_
    exact L.value hv

theorem lifts_bindAll (callScope : ScopeId) : ∀ {pairs : List (String × Value)},
    (∀ pair ∈ pairs, pair.2.Within L.Name) →
      L.Lifts (fun _ => True) (bindAll callScope pairs) (bindAll callScope pairs)
  | [], _ => L.value trivial
  | (name, v) :: rest, h => by
    obtain ⟨hv, hrest⟩ := List.forall_mem_cons.mp h
    exact (L.define callScope name hv).bind fun _ _ => lifts_bindAll callScope hrest

theorem lifts_callName {name : String} (hrec : L.Recurs recur recur') (hn : L.Name name)
    (hw : ∀ form ∈ operands, form.Within L.Name) :
    L.Lifts (Value.Within L.Name) (callName left recur scope name operands)
      (callName right recur' scope name operands) := by
  unfold callName
  refine (L.lookup scope hn).bind fun found hfound => ?_
  split
  · exact L.fail _
  · next params body captured =>
    have hbody : body.Within L.Name := hfound _ rfl
    refine (L.permitted Arena.rootId).bind fun names _ => ?_
    refine L.when (fun _ => L.fail _) ?_
    refine L.when (fun _ => L.fail _) ?_
    refine (lifts_evalArguments captured hrec hw).bind ?_
    rintro ⟨values, callScope⟩ hv
    refine (lifts_bindAll callScope fun pair hmem => hv _ (List.of_mem_zip hmem).2).bind
      fun _ _ => ?_
    refine (L.host _).bind fun shown _ => ?_
    refine (L.log (.calling _ _ _) trivial).bind fun _ _ => ?_
    exact hrec body callScope hbody
  · exact L.fail _

theorem lifts_evalCall {head : Node} (hrec : L.Recurs recur recur') (hh : head.Within L.Name)
    (hw : ∀ form ∈ operands, form.Within L.Name) :
    L.Lifts (Value.Within L.Name) (evalCall left recur scope head operands)
      (evalCall right recur' scope head operands) := by
  unfold evalCall
  split
  · exact lifts_callName hrec hh hw
  · exact lifts_callName hrec hh hw
  · exact L.failTelling _ _

/-! ## 5. Evaluation -/

theorem lifts_evalList {head : Node} (hrec : L.Recurs recur recur') (hh : head.Within L.Name)
    (hw : ∀ form ∈ operands, form.Within L.Name) :
    L.Lifts (Value.Within L.Name) (evalList left recur scope head operands)
      (evalList right recur' scope head operands) := by
  unfold evalList
  refine (L.host _).bind fun rule _ => ?_
  cases rule with
  | balance => exact lifts_evalBalance operands
  | transfer => exact lifts_evalTransfer hrec hw
  | provide => exact lifts_evalProvide operands
  | define => exact lifts_evalDefine hrec hw
  | lambda => exact lifts_evalLambda hw
  | println => exact lifts_evalPrintln hrec hw
  | add => exact (lifts_integerOperands "+" hrec hw).bind fun _ _ => L.value trivial
  | sub => exact (lifts_integerPair "-" hrec hw).bind fun _ _ => L.value trivial
  | mul =>
    unfold evalRule evalMul
    rw [L.legacy]
    exact (lifts_integerOperands "*" hrec hw).bind fun _ _ => L.value trivial
  | div => exact lifts_evalDiv hrec hw
  | call => exact lifts_evalCall hrec hh hw

theorem lifts_evalForm {form : Node} (hrec : L.Recurs recur recur') (hw : form.Within L.Name) :
    L.Lifts (Value.Within L.Name) (evalForm left recur scope form)
      (evalForm right recur' scope form) := by
  unfold evalForm
  split
  · exact L.value trivial
  · next name =>
    refine (L.lookup scope (show L.Name name from hw)).bind fun found hfound => ?_
    cases found with
    | none => exact L.fail _
    | some v => exact L.value (hfound v rfl)
  · rw [L.me]
    exact L.ite (fun _ => L.value trivial) fun _ => L.fail _
  · exact L.fail _
  · obtain ⟨hh, hw⟩ := List.forall_mem_cons.mp (Node.within_list.mp hw)
    exact lifts_evalList hrec hh hw

/-- **Every pairing relates the evaluations** of a form whose names are its names.  The evaluation
on the left may have a smaller depth to spare, if running out of it is related to every evaluation
on the right. -/
theorem evaluate (L : Pairing left right) : ∀ {depth depth' : Nat},
    depth = depth' ∨ depth ≤ depth' ∧
        (∀ d form scope, L.Lifts (Value.Within L.Name) (throw .tooDeep)
          (Run.evaluate right d form scope)) →
      L.Recurs (Run.evaluate left depth) (Run.evaluate right depth')
  | 0, 0, _ => fun _ _ _ => L.fault _
  | 0, depth' + 1, .inr h => fun form scope _ => h.2 (depth' + 1) form scope
  | _ + 1, 0, h => by omega
  | depth + 1, depth' + 1, h => by
    intro form scope hw
    have hrec : L.Recurs (Run.evaluate left depth) (Run.evaluate right depth') :=
      L.evaluate (h.imp Nat.succ.inj fun h => ⟨Nat.le_of_succ_le_succ h.1, h.2⟩)
    exact L.count.bind fun _ _ => lifts_evalForm hrec hw

end Pairing

end LedgerScript.Run
