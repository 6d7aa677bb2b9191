/-
# What evaluation does to the scopes

Many properties of runs are about the arena alone: they say which scopes forms are evaluated in,
which scopes closures capture, and how scopes may change.  For these only three operations of an
evaluation matter, the binding of a name and the making of a scope for a closure or for a call;
that every closure bound anywhere captures a scope of the right sort comes for free
(`ArenaDiscipline.toDiscipline`).

The first of them is the frame of an evaluation.  A form that is evaluated in one scope leaves
another as it is (`evaluate_frame`): calls evaluate bodies in new scopes, or, under the legacy
rules, in captured ones, so it only has to be excluded there that a closure captured the scope in
question.
-/
import LedgerScript.Proofs.Discipline
import LedgerScript.Proofs.Funds

namespace LedgerScript.Run

open Eval

variable {setting : Setting} {s : State}

/-! ## 1. Disciplines of the arena -/

/-- Moving funds leaves the arena as it is. -/
theorem Moved.arena {amount : Int} {destination : Account}
    {r : EStateM.Result Fault State Unit} (hm : Moved setting amount destination s r) :
    Ends (fun _ t => t.arena = s.arena) (fun _ t => t.arena = s.arena) r := by
  cases hm with
  | refused => exact .fault rfl
  | restored => exact .fault rfl
  | done => exact .value rfl
  | untold => exact .fault rfl

/-- A property of arenas, and what it needs of the operations of an evaluation. -/
structure ArenaDiscipline (setting : Setting) where
  Inv : Arena → Prop
  /-- The scopes that forms are evaluated in. -/
  Home : Arena → ScopeId → Prop
  /-- The scopes that closures capture. -/
  Captured : Arena → ScopeId → Prop
  Step : Arena → Arena → Prop
  refl (a : Arena) : Step a a
  trans {a b c : Arena} : Step a b → Step b c → Step a c
  home_mono {a b : Arena} {id : ScopeId} : Step a b → Home a id → Home b id
  captured_mono {a b : Arena} {id : ScopeId} : Step a b → Captured a id → Captured b id
  define {a b : Arena} {id : ScopeId} {name : String} {v : Value} :
    Inv a → Home a id → a.define id name v = .ok b → Inv b ∧ Step a b
  capture {a : Arena} {id : ScopeId} : Inv a → Home a id →
    Inv (a.newScope (some id)).2 ∧ Step a (a.newScope (some id)).2 ∧
      Captured (a.newScope (some id)).2 a.scopes.size
  enter {a : Arena} {id : ScopeId} : setting.config.legacy = false → Inv a → Captured a id →
    Inv (a.newScope (some id)).2 ∧ Step a (a.newScope (some id)).2 ∧
      Home (a.newScope (some id)).2 a.scopes.size
  share {a : Arena} {id : ScopeId} :
    setting.config.legacy = true → Inv a → Captured a id → Home a id

namespace ArenaDiscipline

variable (A : ArenaDiscipline setting)

/-- A value that captured a scope of the right sort, or none. -/
def Good (a : Arena) (v : Value) : Prop := ∀ id, v.capture? = some id → A.Captured a id

/-- The invariant, and that every value bound in a scope is good. -/
structure Holds (a : Arena) : Prop where
  inv : A.Inv a
  bound {id : ScopeId} {name : String} {v : Value} : a.Binds id name v → A.Good a v

variable {A} {a b : Arena}

theorem good_mono (hs : A.Step a b) {v : Value} (h : A.Good a v) : A.Good b v :=
  fun id hid => A.captured_mono hs (h id hid)

theorem Holds.define (h : A.Holds a) {id : ScopeId} {name : String} {v : Value}
    (hh : A.Home a id) (hv : A.Good a v) (hd : a.define id name v = .ok b) :
    A.Holds b ∧ A.Step a b := by
  obtain ⟨hi, hs⟩ := A.define h.inv hh hd
  refine ⟨⟨hi, fun hb => ?_⟩, hs⟩
  rcases Arena.binds_define hd hb with ⟨-, -, rfl⟩ | hb
  · exact good_mono hs hv
  · exact good_mono hs (h.bound hb)

theorem Holds.newScope (h : A.Holds a) {parent : Option ScopeId}
    (hi : A.Inv (a.newScope parent).2) (hs : A.Step a (a.newScope parent).2) :
    A.Holds (a.newScope parent).2 :=
  ⟨hi, fun hb => good_mono hs (h.bound (Arena.binds_newScope hb))⟩

theorem Holds.permit (h : A.Holds a) {id : ScopeId} {name : String}
    (hp : a.permit id name = .ok b) (hi : A.Inv b) (hs : A.Step a b) : A.Holds b :=
  ⟨hi, fun hb => good_mono hs (h.bound (Arena.binds_permit hp hb))⟩

variable (A)

/-- A discipline of the arena is one of the whole state. -/
def toDiscipline : Discipline setting where
  Inv s := A.Holds s.arena
  Home s := A.Home s.arena
  Good s := A.Good s.arena
  Step s t := A.Step s.arena t.arena
  refl s := A.refl s.arena
  trans := A.trans
  home_mono := A.home_mono
  good_mono hs hv := ArenaDiscipline.good_mono hs hv
  plain hv id hid := by rw [hv] at hid; cases hid
  found h _ hl := by
    obtain ⟨id, hb⟩ := Arena.binds_of_lookup hl
    exact h.bound hb
  count h := ⟨h, A.refl _⟩
  write _ h := ⟨h, A.refl _⟩
  log _ h := ⟨h, A.refl _⟩
  define h hh hv hd := h.define hh hv hd
  capture _ h hh _ := by
    obtain ⟨hi, hs, hc⟩ := A.capture h.inv hh
    exact ⟨h.newScope hi hs, hs, fun _ hid => Option.some.inj hid ▸ hc⟩
  enter hm h hg := by
    obtain ⟨hi, hs, hh⟩ := A.enter hm h.inv (hg _ rfl)
    exact ⟨h.newScope hi hs, hs, hh⟩
  share hm h hg := A.share hm h.inv (hg _ rfl)
  transfer _ h hn := by
    refine Ends.mono (moved hn).arena ?_ ?_
    · intro _ t ht
      exact ⟨ht ▸ h, ht ▸ A.refl _⟩
    · intro _ t ht
      exact ⟨ht ▸ h, ht ▸ A.refl _⟩

/-- Permitting a name in a scope is a step. -/
def PermitsIn (id : ScopeId) : Prop :=
  ∀ {a b : Arena} {name : String}, A.Inv a → A.Home a id → a.permit id name = .ok b →
    A.Inv b ∧ A.Step a b

variable {A}

theorem PermitsIn.toDiscipline {id : ScopeId} (hp : A.PermitsIn id) :
    A.toDiscipline.PermitsIn id := by
  intro s name arena h hh hd
  obtain ⟨hi, hs⟩ := hp h.inv hh hd
  exact ⟨h.permit hd hi hs, hs⟩

end ArenaDiscipline

/-! ## 2. The start of a run -/

/-- Bindings without closures, such as a host may give a run. -/
def ClosureFree (bindings : Table String Value) : Prop :=
  ∀ binding ∈ bindings, binding.2.capture? = none

/-- A name that is bound to an account is bound to no closure. -/
theorem closureFree_account (name : String) (account : Account) :
    ClosureFree [(name, .account account)] := by
  intro binding hmem
  rw [List.mem_singleton.mp hmem]
  rfl

theorem get?_ofPairs_mem {α : Type} {name : String} {v : α} : ∀ (pairs start : Table String α),
    Table.get? (pairs.foldl (fun t p => t.put p.1 p.2) start) name = some v →
      start.get? name = some v ∨ (name, v) ∈ pairs
  | [], _, h => Or.inl h
  | pair :: rest, start, h => by
    rcases get?_ofPairs_mem rest (start.put pair.1 pair.2) h with h | h
    · rw [Table.get?_put] at h
      split at h
      · next hk =>
        cases h
        exact Or.inr (hk ▸ List.mem_cons_self)
      · exact Or.inl h
    · exact Or.inr (List.mem_cons_of_mem _ h)

/-- The root is the one scope that a run starts with. -/
theorem scope?_initial (ledger : Ledger) (bindings : Table String Value) (listener : Bool)
    (id : Int) : (State.initial ledger bindings listener).arena.scope? id =
      if id = Arena.rootId then some { parent := none, bindings := Table.ofPairs bindings }
      else none := by
  rcases Int.lt_or_le id 0 with h | h
  · have hne : id ≠ Arena.rootId := Int.ne_of_lt h
    rw [if_neg hne]
    exact if_pos h
  · obtain ⟨n, rfl⟩ := Int.eq_ofNat_of_zero_le h
    rw [Arena.scope?_natCast]
    cases n with
    | zero => rfl
    | succ n =>
      have hne : ((n + 1 : Nat) : Int) ≠ Arena.rootId := fun h => nomatch h
      rw [if_neg hne]
      rfl

/-- A run starts with what the host bound. -/
theorem mem_of_binds_initial {ledger : Ledger} {bindings : Table String Value} {listener : Bool}
    {id : ScopeId} {name : String} {v : Value}
    (h : (State.initial ledger bindings listener).arena.Binds id name v) :
    (name, v) ∈ bindings := by
  obtain ⟨scope, hs, hv⟩ := h
  rw [scope?_initial] at hs
  split at hs
  case isFalse => cases hs
  cases hs
  exact (get?_ofPairs_mem bindings [] hv).resolve_left nofun

/-- A run starts without closures. -/
theorem capture?_of_binds_initial {ledger : Ledger} {bindings : Table String Value}
    {listener : Bool} (hf : ClosureFree bindings) {id : ScopeId} {name : String} {v : Value}
    (h : (State.initial ledger bindings listener).arena.Binds id name v) :
    v.capture? = none := hf _ (mem_of_binds_initial h)

theorem ArenaDiscipline.holds_initial {A : ArenaDiscipline setting} {ledger : Ledger}
    {bindings : Table String Value} {listener : Bool} (hf : ClosureFree bindings)
    (hi : A.Inv (State.initial ledger bindings listener).arena) :
    A.toDiscipline.Inv (.initial ledger bindings listener) := by
  refine ⟨hi, fun hb id hid => ?_⟩
  rw [capture?_of_binds_initial hf hb] at hid
  cases hid

/-! ## 3. The frame of an evaluation -/

/-- One scope that stays as it is, while forms are evaluated in others. -/
def framing (setting : Setting) (target : Int) : ArenaDiscipline setting where
  Inv a := target < a.scopes.size
  Home _ id := id ≠ target
  -- only under the legacy rules is anything evaluated in a captured scope
  Captured _ id := setting.config.legacy = true → id ≠ target
  Step a b := b.scope? target = a.scope? target
  refl _ := rfl
  trans h₁ h₂ := h₂.trans h₁
  home_mono _ h := h
  captured_mono _ h := h
  define hi hh hd := by
    refine ⟨by rwa [Arena.size_modify hd], ?_⟩
    rw [Arena.scope?_define hd, if_neg (Ne.symm hh)]
  capture hi _ := by
    refine ⟨by rw [Arena.size_newScope]; omega, ?_, fun _ => (Int.ne_of_lt hi).symm⟩
    rw [Arena.scope?_newScope, if_neg (by omega)]
  enter _ hi _ := by
    refine ⟨by rw [Arena.size_newScope]; omega, ?_, (Int.ne_of_lt hi).symm⟩
    rw [Arena.scope?_newScope, if_neg (by omega)]
  share hm _ hc := hc hm

theorem framing_permits (setting : Setting) (target : Int) :
    (framing setting target).toDiscipline.Permits := by
  intro scope
  refine ArenaDiscipline.PermitsIn.toDiscipline ?_
  intro a b name hi hh hp
  have hi : target < b.scopes.size := by rwa [Arena.size_modify hp]
  refine ⟨hi, ?_⟩
  show b.scope? target = a.scope? target
  rw [Arena.scope?_permit hp, if_neg (Ne.symm hh)]

/-- **The frame.**  A form that is evaluated in one scope leaves every other scope that there is
as it is, whatever it comes to; under the legacy rules, if no closure has captured it. -/
theorem evaluate_frame {target scope : ScopeId} (ht : target < s.arena.scopes.size)
    (hc : setting.config.legacy = true → ∀ id name v, s.arena.Binds id name v →
      v.capture? ≠ some target)
    (hs : scope ≠ target) (depth : Nat) (form : Node) :
    (stateOf ((evaluate setting depth form scope).run s)).arena.scope? target =
      s.arena.scope? target := by
  have hi : (framing setting target).toDiscipline.Inv s :=
    ⟨ht, fun hb id hid hm h => hc hm _ _ _ hb (h ▸ hid)⟩
  exact (Discipline.evaluate (framing_permits setting target) hi hs depth form).state.2

end LedgerScript.Run
