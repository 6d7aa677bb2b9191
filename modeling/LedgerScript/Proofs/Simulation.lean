/-
# Two runs side by side

Two computations that start from related states often end alike: in the same value or the same
fault, with states that are related again (`Alike`).  A `Coupling` is a relation between the
states of two runs together with what it needs of the operations of an evaluation; its settings
may differ in what the operations hide.  `Coupling.evaluate` concludes that the two runs evaluate
every form alike, if all its names are names that the relation is about: ending alike is a lifting,
and a coupling makes it a pairing.  `Coupling.execute` says the same of the forms of a script.

Where one run may be cut short, by a limit that the other does not have, its fault is matched by
whatever the other run does (`Alike.cut`).
-/
import LedgerScript.Proofs.Lifting
import LedgerScript.Proofs.Scopes

namespace LedgerScript.Run

open Eval

variable {α β : Type}

/-! ## 1. Ending alike -/

/-- Two ends are alike: the same value or the same fault in related states, unless the first is a
fault that cuts its run short. -/
inductive Alike (R : State → State → Prop) (Cut : Fault → Prop) (Q : α → Prop) :
    EStateM.Result Fault State α → EStateM.Result Fault State α → Prop
  | value {a : α} {s t : State} (h : R s t) (ha : Q a) : Alike R Cut Q (.ok a s) (.ok a t)
  | fault {f : Fault} {s t : State} (h : R s t) : Alike R Cut Q (.error f s) (.error f t)
  | cut {f : Fault} {s : State} {r : EStateM.Result Fault State α} (h : Cut f) :
    Alike R Cut Q (.error f s) r

/-- What ends like a value is that value. -/
theorem Alike.of_ok {R : State → State → Prop} {Cut : Fault → Prop} {Q : α → Prop} {a : α}
    {s : State} {r : EStateM.Result Fault State α} (h : Alike R Cut Q (.ok a s) r) :
    ∃ t, r = .ok a t ∧ R s t := by
  cases h with
  | value h _ => exact ⟨_, rfl, h⟩

/-- What ends like a fault is that fault, if it does not cut short. -/
theorem Alike.of_error {R : State → State → Prop} {Cut : Fault → Prop} {Q : α → Prop} {f : Fault}
    {s : State} {r : EStateM.Result Fault State α} (h : Alike R Cut Q (.error f s) r)
    (hcut : ¬ Cut f) : ∃ t, r = .error f t ∧ R s t := by
  cases h with
  | fault h => exact ⟨_, rfl, h⟩
  | cut h => exact absurd h hcut

/-- Ends that are alike are so for weaker relations. -/
theorem Alike.mono {R R' : State → State → Prop} {Cut : Fault → Prop} {P Q : α → Prop}
    {r r' : EStateM.Result Fault State α} (h : Alike R Cut P r r') (hr : ∀ s t, R s t → R' s t)
    (hp : ∀ a, P a → Q a) : Alike R' Cut Q r r' := by
  cases h with
  | value h ha => exact .value (hr _ _ h) (hp _ ha)
  | fault h => exact .fault (hr _ _ h)
  | cut h => exact .cut h

/-- From related states, two computations end alike. -/
def Simulates (R : State → State → Prop) (Cut : Fault → Prop) (Q : α → Prop) (m n : Eval α) :
    Prop :=
  ∀ s t, R s t → Alike R Cut Q (m.run s) (n.run t)

section Simulates

variable {R : State → State → Prop} {Cut : Fault → Prop} {Q : α → Prop} {Q' : β → Prop}
variable {m n m' n' : Eval α}

theorem Simulates.mono {P : α → Prop} (h : Simulates R Cut P m n) (hp : ∀ a, P a → Q a) :
    Simulates R Cut Q m n :=
  fun s t hst => (h s t hst).mono (fun _ _ h => h) hp

theorem simulates_pure {a : α} (ha : Q a) : Simulates R Cut Q (pure a) (pure a) :=
  fun _ _ h => .value h ha

theorem simulates_throw (fault : Fault) : Simulates R Cut Q (throw fault) (throw fault) :=
  fun _ _ h => .fault h

/-- One computation after another. -/
theorem Simulates.bind {f g : α → Eval β} (h : Simulates R Cut Q m n)
    (hf : ∀ a, Q a → Simulates R Cut Q' (f a) (g a)) :
    Simulates R Cut Q' (m >>= f) (n >>= g) := by
  intro s t hst
  have h := h s t hst
  rw [EStateM.run_bind, EStateM.run_bind]
  generalize m.run s = r, n.run t = r' at h ⊢
  cases h with
  | value h ha => exact hf _ ha _ _ h
  | fault h => exact .fault h
  | cut h => exact .cut h

/-- Ending alike as a lifting. -/
def simulation (R : State → State → Prop) (Cut : Fault → Prop) : Lifting where
  Lifts := Simulates R Cut
  value := simulates_pure
  fault := simulates_throw
  after := Simulates.bind

theorem simulates_fail (error : ScriptError) : Simulates R Cut Q (fail error) (fail error) :=
  (simulation R Cut).fail error

theorem simulates_ofHost {x : Except HostFault α} (ha : ∀ a, x = .ok a → Q a) :
    Simulates R Cut Q (ofHost x) (ofHost x) :=
  (simulation R Cut).ofHost ha

theorem simulates_host (x : Except HostFault α) :
    Simulates R Cut (fun _ => True) (ofHost x) (ofHost x) := (simulation R Cut).host x

theorem simulates_ite {c : Prop} [Decidable c] (h : c → Simulates R Cut Q m n)
    (h' : ¬ c → Simulates R Cut Q m' n') :
    Simulates R Cut Q (if c then m else m') (if c then n else n') :=
  (simulation R Cut).ite h h'

/-- What is done on a condition, before what is done in any case. -/
theorem simulates_when {c : Prop} [Decidable c] {u v : Eval Unit} {k l : Unit → Eval α}
    (h : c → Simulates R Cut (fun _ => True) u v) (hk : Simulates R Cut Q (k ()) (l ())) :
    Simulates R Cut Q (if c then u >>= k else k ()) (if c then v >>= l else l ()) :=
  (simulation R Cut).when h hk

/-- Computations over a list, from left to right. -/
theorem simulates_mapM {ι : Type} {f g : ι → Eval α} {xs : List ι}
    (h : ∀ x ∈ xs, Simulates R Cut Q (f x) (g x)) :
    Simulates R Cut (fun ys => ∀ y ∈ ys, Q y) (xs.mapM f) (xs.mapM g) :=
  (simulation R Cut).mapM h

/-- A fault is handled alike, if the handler does and nothing is cut short. -/
theorem Simulates.tryCatch {f g : Fault → Eval α}
    (h : Simulates R (fun _ => False) Q m n)
    (hf : ∀ fault, Simulates R Cut Q (f fault) (g fault)) :
    Simulates R Cut Q (tryCatch m f) (tryCatch n g) := by
  intro s t hst
  have h := h s t hst
  rw [run_tryCatch, run_tryCatch]
  generalize m.run s = r, n.run t = r' at h ⊢
  cases h with
  | value h ha => exact .value h ha
  | fault h => exact hf _ _ _ h
  | cut h => exact h.elim

/-- Where no fault cuts short, none need be allowed for. -/
theorem Simulates.uncut (h : Simulates R Cut Q m n) (hcut : ∀ fault, ¬ Cut fault) :
    Simulates R (fun _ => False) Q m n := by
  intro s t hst
  have h := h s t hst
  generalize m.run s = r, n.run t = r' at h ⊢
  cases h with
  | value h ha => exact .value h ha
  | fault h => exact .fault h
  | cut h => exact absurd h (hcut _)

/-- The depth fault is reported alike. -/
theorem Simulates.reportDepth (h : Simulates R (fun _ => False) Q m n) :
    Simulates R Cut Q (Run.reportDepth m) (Run.reportDepth n) := by
  refine h.tryCatch fun fault => ?_
  cases fault <;> exact simulates_throw _

/-- The scopes are logged alike, if they can be told in both states or in neither. -/
theorem simulates_logScopes
    (hlog : ∀ record other, Simulates R Cut (fun _ => True) (Eval.log record) (Eval.log other))
    (htold : ∀ s t, R s t → (s.arena.Told ↔ t.arena.Told)) :
    Simulates R Cut (fun _ => True) logScopes logScopes := by
  intro s t hst
  rw [run_logScopes, run_logScopes]
  by_cases hs : s.arena.Told
  · rw [Arena.snapshot_of_told hs, Arena.snapshot_of_told ((htold s t hst).mp hs)]
    exact hlog _ _ s t hst
  · rw [Arena.snapshot_of_not_told hs,
      Arena.snapshot_of_not_told (mt (htold s t hst).mpr hs)]
    exact .fault hst

end Simulates

/-! ## 2. Couplings -/

/-- A relation between the states of two runs, and what it needs of the operations of an
evaluation. -/
structure Coupling (left right : Setting) where
  Rel : State → State → Prop
  /-- The names that the relation is about. -/
  Name : String → Prop
  /-- The faults that cut the first run short. -/
  Cut : Fault → Prop
  me : left.me = right.me
  legacy : left.config.legacy = right.config.legacy
  count : Simulates Rel Cut (fun _ => True)
    (countStep left.config.maxSteps) (countStep right.config.maxSteps)
  write (line : String) : Simulates Rel Cut (fun _ => True) (writeLine line) (writeLine line)
  log (record : Record) : Simulates Rel Cut (fun _ => True) (Eval.log record) (Eval.log record)
  newScope (parent : ScopeId) : Simulates Rel Cut (fun _ => True)
    (Eval.newScope (some parent)) (Eval.newScope (some parent))
  define (scope : ScopeId) (name : String) {v : Value} (hv : v.Within Name) :
    Simulates Rel Cut (fun _ => True) (Eval.define scope name v) (Eval.define scope name v)
  permit (scope : ScopeId) (name : String) :
    Simulates Rel Cut (fun _ => True) (Eval.permit scope name) (Eval.permit scope name)
  permitted (scope : ScopeId) :
    Simulates Rel Cut (fun _ => True) (Eval.permitted scope) (Eval.permitted scope)
  lookup (scope : ScopeId) {name : String} (hn : Name name) :
    Simulates Rel Cut (fun found => ∀ v, found = some v → v.Within Name)
      (lookup? (some scope) name) (lookup? (some scope) name)
  balance : Simulates Rel Cut (fun _ => True) (Eval.balance left.me) (Eval.balance right.me)
  transfer {amount : Int} (h : 0 ≤ amount) (destination : Account) :
    Simulates Rel Cut (fun _ => True)
      (moveFunds left amount destination) (moveFunds right amount destination)

namespace Coupling

variable {left right : Setting} (C : Coupling left right)

/-- From related states of the two runs, two computations end alike. -/
abbrev Sim (Q : α → Prop) (m n : Eval α) : Prop := Simulates C.Rel C.Cut Q m n

/-- Two ways to evaluate forms do so alike, if the names of the form are names of the relation. -/
def Recurs (recur recur' : Node → ScopeId → Eval Value) : Prop :=
  ∀ form scope, form.Within C.Name →
    C.Sim (Value.Within C.Name) (recur form scope) (recur' form scope)

variable {C}

/-- A coupling as a pairing of its settings. -/
def pairing (C : Coupling left right) : Pairing left right :=
  { simulation C.Rel C.Cut with
    Name := C.Name
    me := C.me
    legacy := C.legacy
    count := C.count
    write := C.write
    log := fun record _ => C.log record
    newScope := C.newScope
    define := C.define
    permit := C.permit
    permitted := C.permitted
    lookup := C.lookup
    balance := C.balance
    transfer := C.transfer }

/-- **The two runs evaluate alike** every form whose names are names of the relation; the first
run may have a smaller depth to spare, if running out of it cuts that run short. -/
theorem evaluate (C : Coupling left right) {depth depth' : Nat}
    (h : depth = depth' ∨ C.Cut .tooDeep ∧ depth ≤ depth') :
    C.Recurs (Run.evaluate left depth) (Run.evaluate right depth') := by
  have hcut (hc : C.Cut .tooDeep) (d : Nat) (form : Node) (scope : ScopeId) :
      C.Sim (Value.Within C.Name) (throw .tooDeep) (Run.evaluate right d form scope) :=
    fun _ _ _ => .cut hc
  exact C.pairing.evaluate (h.imp_right fun h => ⟨h.2, hcut h.1⟩)

/-! ## 3. The forms of a script -/

section Scripts

variable {setting : Setting} {C : Coupling setting setting}

/-- A form of a script is executed alike, if nothing is cut short and the snapshots of the scopes
may be logged. -/
theorem executeForm (hcut : ∀ fault, ¬ C.Cut fault)
    (hscopes : C.Sim (fun _ => True) logScopes logScopes) {form : Node}
    (hw : form.Within C.Name) :
    C.Sim (Value.Within C.Name) (Run.executeForm setting form) (Run.executeForm setting form) := by
  have hevaluate : C.Sim (Value.Within C.Name)
      (Run.evaluate setting setting.config.maxDepth form Arena.rootId)
      (Run.evaluate setting setting.config.maxDepth form Arena.rootId) :=
    C.evaluate (.inl rfl) form Arena.rootId hw
  unfold Run.executeForm
  refine simulates_when (fun _ => (simulates_host _).bind fun record _ => C.log record) ?_
  refine (hevaluate.uncut hcut).reportDepth.bind fun v hv => ?_
  refine (simulates_host _).bind fun shown _ => ?_
  refine (C.log _).bind fun _ _ => ?_
  refine simulates_ite (fun _ => ?_) fun _ => simulates_pure hv
  exact hscopes.bind fun _ _ => simulates_pure hv

/-- The forms of a script are executed alike. -/
theorem execute (hcut : ∀ fault, ¬ C.Cut fault)
    (hscopes : C.Sim (fun _ => True) logScopes logScopes) {forms : List Node}
    (hw : ∀ form ∈ forms, form.Within C.Name) :
    C.Sim (fun values => ∀ v ∈ values, v.Within C.Name)
      (Run.execute setting forms) (Run.execute setting forms) :=
  simulates_mapM fun form hmem => executeForm hcut hscopes (hw form hmem)

end Scripts

end Coupling

end LedgerScript.Run
