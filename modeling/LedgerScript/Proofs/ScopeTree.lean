/-
# The scopes of a run form a tree

Scopes refer to each other by bare ids, closures carry such ids along wherever values go, and a
look-up follows parents until there is none.  That this goes well rests on one invariant of the
arena: the root has no parent, and the parent of every other scope was made before it (`Tree`).

For look-ups it is enough that parents were made before their children (`Ordered`).  The chain of a
scope then climbs to smaller and smaller ids, so it ends after no more scopes than there are, and a
look-up visits the part of it up to the first binding of the name (`Chain.exists_walk`).  `Walk`
says which scopes a look-up visits; the number of scopes, which bounds the look-up in its
definition, is never what ends it (`Walk.lookupWithin_eq`).
-/
import LedgerScript.Proofs.Frame

namespace LedgerScript

/-! ## 1. Trees -/

namespace Arena

variable {arena arena' : Arena} {id : Int} {name : String}

/-- There is a scope with an id. -/
def Has (arena : Arena) (id : Int) : Prop := ∃ scope, arena.scope? id = some scope

/-- Ids are given out in order, beginning with `0`. -/
theorem has_iff : arena.Has id ↔ 0 ≤ id ∧ id < arena.scopes.size := by
  constructor
  · rintro ⟨scope, hs⟩
    obtain ⟨n, rfl, hn⟩ := scope?_eq_some_iff.mp hs
    exact ⟨Int.natCast_nonneg n, lt_size_of_scope? hs⟩
  · rintro ⟨h0, hlt⟩
    obtain ⟨n, rfl⟩ := Int.eq_ofNat_of_zero_le h0
    have hn : n < arena.scopes.size := Int.ofNat_lt.mp hlt
    exact ⟨arena.scopes[n], by rw [scope?_natCast, Array.getElem?_eq_getElem hn]⟩

/-- Scopes are never removed. -/
theorem Has.mono (hsize : arena.Grown arena') (h : arena.Has id) : arena'.Has id := by
  unfold Grown at hsize
  rw [has_iff] at h ⊢
  omega

theorem has_newScope (arena : Arena) (parent : Option ScopeId) :
    (arena.newScope parent).2.Has arena.scopes.size := by
  rw [has_iff, size_newScope]
  omega

/-- The scopes form a tree: the root has no parent, and every other scope has one that was made
before it. -/
structure Tree (arena : Arena) : Prop where
  root : ∃ scope, arena.scope? rootId = some scope ∧ scope.parent = none
  parent {id : Int} {scope : Scope} : arena.scope? id = some scope → id ≠ rootId →
    ∃ parent, scope.parent = some parent ∧ 0 ≤ parent ∧ parent < id

theorem Tree.has_root (h : arena.Tree) : arena.Has rootId := by
  obtain ⟨scope, hs, -⟩ := h.root
  exact ⟨scope, hs⟩

theorem Tree.eq_root (h : arena.Tree) {scope : Scope} (hs : arena.scope? id = some scope)
    (hp : scope.parent = none) : id = rootId := by
  refine Decidable.byContradiction fun hne => ?_
  obtain ⟨parent, hp', -⟩ := h.parent hs hne
  rw [hp] at hp'
  cases hp'

theorem Tree.ne_root (h : arena.Tree) {scope : Scope} {parent : Int}
    (hs : arena.scope? id = some scope) (hp : scope.parent = some parent) : id ≠ rootId := by
  rintro rfl
  obtain ⟨root, hroot, hnone⟩ := h.root
  rw [hs] at hroot
  cases hroot
  rw [hp] at hnone
  cases hnone

theorem Tree.parent_lt (h : arena.Tree) {scope : Scope} {parent : Int}
    (hs : arena.scope? id = some scope) (hp : scope.parent = some parent) :
    0 ≤ parent ∧ parent < id := by
  obtain ⟨parent', hp', hlt⟩ := h.parent hs (h.ne_root hs hp)
  rw [hp] at hp'
  cases hp'
  exact hlt

theorem Tree.root_ne_size (h : arena.Tree) : (arena.scopes.size : Int) ≠ rootId := by
  have hroot := has_iff.mp h.has_root
  omega

/-- A new scope below another is a new leaf. -/
theorem Tree.newScope (h : arena.Tree) {parent : ScopeId} (hp : arena.Has parent) :
    (arena.newScope (some parent)).2.Tree := by
  have hlt := has_iff.mp hp
  constructor
  · obtain ⟨scope, hs, hnone⟩ := h.root
    exact ⟨scope, by rw [scope?_newScope, if_neg h.root_ne_size.symm, hs], hnone⟩
  · intro id scope hs hne
    rw [scope?_newScope] at hs
    split at hs
    · next hid =>
      cases hs
      exact ⟨parent, rfl, hlt.1, hid ▸ hlt.2⟩
    · exact h.parent hs hne

/-- A change that leaves parents alone leaves the tree. -/
theorem Tree.modify {change : Scope → Scope}
    (hc : ∀ scope, (change scope).parent = scope.parent) (h : arena.Tree)
    (hm : arena.modify id change = .ok arena') : arena'.Tree := by
  constructor
  · obtain ⟨scope, hs, hnone⟩ := h.root
    rw [scope?_modify hm]
    split
    · next hid =>
      rw [← hid, hs]
      exact ⟨change scope, rfl, (hc scope).trans hnone⟩
    · exact ⟨scope, hs, hnone⟩
  · intro other scope hs hne
    rw [scope?_modify hm] at hs
    split at hs
    · next hid =>
      subst hid
      obtain ⟨old, ho, rfl⟩ := Option.map_eq_some_iff.mp hs
      rw [hc]
      exact h.parent ho hne
    · exact h.parent hs hne

/-! ## 2. Chains -/

/-- Every parent is a scope that was made before its child. -/
structure Ordered (arena : Arena) : Prop where
  parent {id parent : Int} {scope : Scope} (hs : arena.scope? id = some scope)
    (hp : scope.parent = some parent) : arena.Has parent ∧ parent < id

/-- A parent that is there can be told. -/
theorem Ordered.told (h : arena.Ordered) : arena.Told := by
  intro id scope parent hs hp
  obtain ⟨⟨outer, houter⟩, -⟩ := h.parent hs hp
  rw [tells, houter]
  rfl

theorem Tree.ordered (h : arena.Tree) : arena.Ordered where
  parent hs hp := by
    obtain ⟨h0, hlt⟩ := h.parent_lt hs hp
    have hsize := lt_size_of_scope? hs
    exact ⟨has_iff.mpr ⟨h0, by omega⟩, hlt⟩

/-- The chain of a scope: the scope itself, its parent, the parent of that, and so on up to a scope
without one. -/
inductive Chain (arena : Arena) : Int → List Int → Prop
  | last {id : Int} {scope : Scope} (hs : arena.scope? id = some scope)
    (hp : scope.parent = none) : Chain arena id [id]
  | outward {id parent : Int} {scope : Scope} {outer : List Int}
    (hs : arena.scope? id = some scope) (hp : scope.parent = some parent)
    (h : Chain arena parent outer) : Chain arena id (id :: outer)

variable {chain : List Int}

theorem Chain.has (h : arena.Chain id chain) : arena.Has id := by
  cases h with
  | last hs => exact ⟨_, hs⟩
  | outward hs => exact ⟨_, hs⟩

/-- A chain goes to smaller and smaller ids. -/
theorem Ordered.length_chain_le (ho : arena.Ordered) (h : arena.Chain id chain) :
    (chain.length : Int) ≤ id + 1 := by
  induction h with
  | last hs =>
    have := has_iff.mp ⟨_, hs⟩
    simp
    omega
  | outward hs hp _ ih =>
    have hlt := (ho.parent hs hp).2
    rw [List.length_cons, Int.natCast_succ]
    omega

/-- A chain has at most as many scopes as there are. -/
theorem Ordered.length_chain_le_size (ho : arena.Ordered) (h : arena.Chain id chain) :
    chain.length ≤ arena.scopes.size := by
  have hid := has_iff.mp h.has
  have hle := ho.length_chain_le h
  omega

/-- Every scope has a chain. -/
theorem Ordered.exists_chain (ho : arena.Ordered) (h : arena.Has id) :
    ∃ chain, arena.Chain id chain := by
  obtain ⟨n, rfl⟩ := Int.eq_ofNat_of_zero_le (has_iff.mp h).1
  induction n using Nat.strongRecOn with
  | ind n ih =>
    obtain ⟨scope, hs⟩ := h
    cases hp : scope.parent with
    | none => exact ⟨[n], .last hs hp⟩
    | some parent =>
      obtain ⟨hparent, hlt⟩ := ho.parent hs hp
      obtain ⟨m, rfl⟩ := Int.eq_ofNat_of_zero_le (has_iff.mp hparent).1
      obtain ⟨outer, hc⟩ := ih m (Int.ofNat_lt.mp hlt) hparent
      exact ⟨n :: outer, .outward hs hp hc⟩

/-! ## 3. Look-ups -/

/-- The value that a scope itself binds a name to. -/
def bound? (arena : Arena) (name : String) (id : Int) : Option Value :=
  (arena.scope? id).bind fun scope => scope.bindings.get? name

theorem bound?_of_scope? {scope : Scope} (hs : arena.scope? id = some scope) (name : String) :
    arena.bound? name id = scope.bindings.get? name := by rw [bound?, hs, Option.bind_some]

/-- The scopes that a look-up of a name visits from a scope on, and what it finds: the walk ends at
the first scope that binds the name, or at a scope without a parent. -/
inductive Walk (arena : Arena) (name : String) : Int → List Int → Option Value → Prop
  | found {id : Int} {scope : Scope} {v : Value} (hs : arena.scope? id = some scope)
    (hv : scope.bindings.get? name = some v) : Walk arena name id [id] (some v)
  | unbound {id : Int} {scope : Scope} (hs : arena.scope? id = some scope)
    (hv : scope.bindings.get? name = none) (hp : scope.parent = none) :
    Walk arena name id [id] none
  | outward {id parent : Int} {scope : Scope} {visited : List Int} {r : Option Value}
    (hs : arena.scope? id = some scope) (hv : scope.bindings.get? name = none)
    (hp : scope.parent = some parent) (h : Walk arena name parent visited r) :
    Walk arena name id (id :: visited) r

variable {visited : List Int} {r : Option Value}

theorem Walk.has (h : arena.Walk name id visited r) : arena.Has id := by
  cases h with
  | found hs => exact ⟨_, hs⟩
  | unbound hs => exact ⟨_, hs⟩
  | outward hs => exact ⟨_, hs⟩

/-- A look-up that may visit enough scopes finds what the walk finds. -/
theorem Walk.lookupWithin_eq (h : arena.Walk name id visited r) {bound : Nat}
    (hb : visited.length ≤ bound) : arena.lookupWithin name bound (some id) = .ok r := by
  induction h generalizing bound with
  | found hs hv =>
    obtain ⟨bound, rfl⟩ := Nat.exists_eq_add_of_le' hb
    simp [lookupWithin, hs, hv]
  | unbound hs hv hp =>
    obtain ⟨bound, rfl⟩ := Nat.exists_eq_add_of_le' hb
    simp [lookupWithin, hs, hv, hp]
  | outward hs hv hp _ ih =>
    rw [List.length_cons] at hb
    obtain ⟨bound, rfl⟩ := Nat.exists_eq_add_of_le' (Nat.le_of_add_left_le hb)
    have hrest := @ih bound (by omega)
    simp [lookupWithin, hs, hv, hp, hrest]

/-- A look-up visits a chain up to the first scope that binds the name, and finds what that scope
binds it to. -/
theorem Chain.exists_walk (h : arena.Chain id chain) (name : String) :
    ∃ visited, visited <+: chain ∧
      arena.Walk name id visited (chain.findSome? (arena.bound? name)) := by
  induction h with
  | @last id scope hs hp =>
    rw [List.findSome?_singleton, bound?_of_scope? hs]
    cases hv : scope.bindings.get? name with
    | some v => exact ⟨[id], List.prefix_refl _, .found hs hv⟩
    | none => exact ⟨[id], List.prefix_refl _, .unbound hs hv hp⟩
  | @outward id parent scope outer hs hp _ ih =>
    rw [List.findSome?_cons, bound?_of_scope? hs]
    cases hv : scope.bindings.get? name with
    | some v => exact ⟨[id], (List.prefix_cons_inj id).mpr outer.nil_prefix, .found hs hv⟩
    | none =>
      obtain ⟨visited, hpre, hw⟩ := ih
      exact ⟨id :: visited, (List.prefix_cons_inj id).mpr hpre, .outward hs hv hp hw⟩

/-- From every scope there is a walk, over at most as many scopes as there are. -/
theorem Ordered.exists_walk (ho : arena.Ordered) (name : String) (h : arena.Has id) :
    ∃ visited r, arena.Walk name id visited r ∧ visited.length ≤ arena.scopes.size := by
  obtain ⟨chain, hc⟩ := ho.exists_chain h
  obtain ⟨visited, hpre, hw⟩ := hc.exists_walk name
  exact ⟨visited, _, hw, Nat.le_trans hpre.length_le (ho.length_chain_le_size hc)⟩

/-- A name that is not found was looked for up to the root. -/
theorem Tree.last_of_walk (ht : arena.Tree) (h : arena.Walk name id visited none) :
    visited.getLast? = some rootId := by
  generalize hr : (none : Option Value) = r at h
  induction h with
  | found => cases hr
  | unbound hs _ hp => rw [ht.eq_root hs hp]; rfl
  | outward _ _ _ _ ih => rw [List.getLast?_cons, ih hr]; rfl

/-- **A look-up in a tree** ends at a binding or at the root, after at most as many scopes as there
are. -/
theorem Tree.lookup_eq (ht : arena.Tree) (name : String) (h : arena.Has id) :
    ∃ visited r, arena.Walk name id visited r ∧ arena.lookup (some id) name = .ok r ∧
      (r = none → visited.getLast? = some rootId) ∧ visited.length ≤ arena.scopes.size := by
  obtain ⟨visited, r, hw, hlength⟩ := ht.ordered.exists_walk name h
  refine ⟨visited, r, hw, hw.lookupWithin_eq (by omega), ?_, hlength⟩
  rintro rfl
  exact ht.last_of_walk hw

end Arena

/-! ## 4. Parameters -/

/-- The parameters of a closure have different names. -/
def Value.Distinct : Value → Prop
  | .closure params _ _ => params.Nodup
  | _ => True

namespace Run

variable {setting : Setting}

theorem nodup_parametersOf : ∀ {forms : List Node} {earlier names : List String},
    earlier.Nodup → parametersOf earlier forms = .ok names → names.Nodup
  | [], _, _, hn, h => by cases h; exact hn
  | .ident name :: rest, earlier, names, hn, h => by
    unfold parametersOf at h
    split at h
    · cases h
    · next hmem =>
      refine nodup_parametersOf ?_ h
      rw [List.nodup_append]
      simpa [hn] using fun a ha => ne_of_mem_of_not_mem ha hmem
  | .number _ :: _, _, _, _, h | .operator _ :: _, _, _, _, h | .list _ :: _, _, _, _, h => by
    cases h

/-- Every closure that is bound or handled has different parameters. -/
def distinct (setting : Setting) : Discipline setting where
  Inv s := ∀ id name v, s.arena.Binds id name v → v.Distinct
  Home _ _ := True
  Good _ v := v.Distinct
  Step _ _ := True
  refl _ := trivial
  trans _ _ := trivial
  home_mono _ h := h
  good_mono _ h := h
  plain {_ v} h := by cases v <;> trivial
  found hi _ hl := by
    obtain ⟨id, hb⟩ := Arena.binds_of_lookup hl
    exact hi _ _ _ hb
  count h := ⟨h, trivial⟩
  write _ h := ⟨h, trivial⟩
  log _ h := ⟨h, trivial⟩
  define hi _ hv hd := by
    refine ⟨fun id name w hb => ?_, trivial⟩
    rcases Arena.binds_define hd hb with ⟨-, -, rfl⟩ | hb
    · exact hv
    · exact hi _ _ _ hb
  capture _ hi _ hn :=
    ⟨fun _ _ _ hb => hi _ _ _ (Arena.binds_newScope hb), trivial,
      nodup_parametersOf List.nodup_nil hn⟩
  enter _ hi _ := ⟨fun _ _ _ hb => hi _ _ _ (Arena.binds_newScope hb), trivial, trivial⟩
  share _ _ _ := trivial
  transfer _ hi hn := by
    refine Ends.mono (moved hn).arena ?_ ?_
    · intro _ t ht
      exact ⟨ht ▸ hi, trivial⟩
    · intro _ t ht
      exact ⟨ht ▸ hi, trivial⟩

theorem distinct_permits (setting : Setting) : (distinct setting).Permits :=
  fun _ _ _ _ hi _ hp => ⟨fun _ _ _ hb => hi _ _ _ (Arena.binds_permit hp hb), trivial⟩

/-! ## 5. Runs -/

/-- **The tree of a run.**  Forms are evaluated in scopes of the tree, and closures capture scopes
other than the root. -/
def growing (setting : Setting) : ArenaDiscipline setting where
  Inv a := a.Tree
  Home a id := a.Has id
  Captured a id := a.Has id ∧ id ≠ Arena.rootId
  Step := Arena.Grown
  refl := Arena.Grown.refl
  trans := Arena.Grown.trans
  home_mono hs h := h.mono hs
  captured_mono hs h := ⟨h.1.mono hs, h.2⟩
  define {a b id name v} hi _ hd := by
    have hc : ∀ scope : Scope,
        { scope with bindings := scope.bindings.put name v }.parent = scope.parent := fun _ => rfl
    exact ⟨hi.modify hc hd, Arena.grown_modify hd⟩
  capture hi hh :=
    ⟨hi.newScope hh, Arena.grown_newScope _ _, Arena.has_newScope _ _, hi.root_ne_size⟩
  enter _ hi hc := ⟨hi.newScope hc.1, Arena.grown_newScope _ _, Arena.has_newScope _ _⟩
  share _ _ hc := hc.1

theorem growing_permits (setting : Setting) : (growing setting).toDiscipline.Permits := by
  intro scope
  refine ArenaDiscipline.PermitsIn.toDiscipline ?_
  intro a b name hi _ hp
  exact ⟨hi.modify (Arena.parent_permit name) hp, Arena.grown_modify hp⟩

/-- A run starts with a root alone. -/
theorem tree_initial (ledger : Ledger) (bindings : Table String Value) (listener : Bool) :
    (State.initial ledger bindings listener).arena.Tree := by
  constructor
  · exact ⟨_, (scope?_initial ledger bindings listener _).trans (if_pos rfl), rfl⟩
  · intro id scope hs hne
    rw [scope?_initial, if_neg hne] at hs
    cases hs

theorem distinct_initial {bindings : Table String Value} (hf : ClosureFree bindings)
    (ledger : Ledger) (listener : Bool) :
    (distinct setting).Inv (.initial ledger bindings listener) := by
  intro id name v hb
  have hplain := capture?_of_binds_initial hf hb
  cases v with
  | closure => cases hplain
  | _ => trivial

/-- **The scopes of a run form a tree.**  Let a run start from bindings without closures.  In every
state that it reaches the ids of scopes are the numbers below the number of scopes, the root is the
one scope without a parent, and every parent was made before its child; each closure that is bound
anywhere or held captures a scope that exists and is not the root, and its parameters are
different; and a look-up from any scope ends at a binding or at the root after at most as many
scopes as there are.  Every form is evaluated in a scope that exists. -/
theorem scopes_form_tree (setting : Setting) (ledger : Ledger) {bindings : Table String Value}
    (hf : ClosureFree bindings) (listener : Bool) :
    (∀ s held, Reaches setting (.initial ledger bindings listener) s held →
      (∀ id, s.arena.Has id ↔ 0 ≤ id ∧ id < s.arena.scopes.size) ∧ s.arena.Tree ∧
      (∀ params body captured,
        (.closure params body captured ∈ held ∨
          ∃ id name, s.arena.Binds id name (.closure params body captured)) →
        s.arena.Has captured ∧ captured ≠ Arena.rootId ∧ params.Nodup) ∧
      ∀ id name, s.arena.Has id → ∃ visited found, s.arena.Walk name id visited found ∧
        s.arena.lookup (some id) name = .ok found ∧
        (found = none → visited.getLast? = some Arena.rootId) ∧
        visited.length ≤ s.arena.scopes.size) ∧
    ∀ q, Passes setting (.initial ledger bindings listener) q → q.state.arena.Has q.scope := by
  have ht : (growing setting).toDiscipline.Inv (.initial ledger bindings listener) :=
    ArenaDiscipline.holds_initial hf (tree_initial ledger bindings listener)
  have hroot : (growing setting).toDiscipline.Home (.initial ledger bindings listener)
      Arena.rootId := ht.inv.has_root
  constructor
  · intro s held hs
    obtain ⟨htree, hcaptured⟩ := Discipline.reaches (growing_permits setting) ht hroot hs
    obtain ⟨hdistinct, hheld⟩ := Discipline.reaches (distinct_permits setting)
      (distinct_initial hf ledger listener) trivial hs
    refine ⟨fun _ => Arena.has_iff, htree.inv, ?_, ?_⟩
    · rintro params body captured (hmem | ⟨id, name, hb⟩)
      · obtain ⟨hhas, hne⟩ := hcaptured _ hmem captured rfl
        exact ⟨hhas, hne, hheld _ hmem⟩
      · obtain ⟨hhas, hne⟩ := htree.bound hb captured rfl
        exact ⟨hhas, hne, hdistinct _ _ _ hb⟩
    · exact fun id name hid => htree.inv.lookup_eq name hid
  · intro q hq
    exact (Discipline.passes (growing_permits setting) ht hroot hq).home

/-- A contract without a step limit. -/
def currying : Setting := { bank with config := { bank.config with maxSteps := none } }

/-- A closure that returns another. -/
def curriedScript : String := "(define k (lambda (x) (lambda (y) x))) (define f (k 1))"

/-- The state that its run ends in. -/
def curriedState : State :=
  stateOf (trial currying curriedScript {} [("till", .account ⟨"till"⟩)])

/-- The scope that the closure of a name captured, as the root binds it. -/
def capturedBy? (s : State) (name : String) : Option ScopeId :=
  (s.arena.scope? Arena.rootId).bind fun scope => (scope.bindings.get? name).bind Value.capture?

theorem binds_of_capturedBy? {s : State} {name : String} {captured : ScopeId}
    (h : capturedBy? s name = some captured) :
    ∃ params body, s.arena.Binds Arena.rootId name (.closure params body captured) := by
  obtain ⟨scope, hs, h⟩ := Option.bind_eq_some_iff.mp h
  obtain ⟨v, hv, hc⟩ := Option.bind_eq_some_iff.mp h
  cases v with
  | closure params body id => cases hc; exact ⟨params, body, scope, hs, hv⟩
  | _ => cases hc

/-- The returned closure captures a scope below the scope of a call.  The look-up of a name from
there has an answer after at most four scopes, which is all there are. -/
theorem scopes_form_tree_curried : ∃ held,
    Reaches currying (.initial {} [("till", .account ⟨"till"⟩)] false) curriedState held ∧
    capturedBy? curriedState "f" = some 3 ∧ curriedState.arena.Has 3 ∧ 3 ≠ Arena.rootId ∧
    ∃ visited found, curriedState.arena.Walk "z" 3 visited found ∧
      curriedState.arena.lookup (some 3) "z" = .ok found ∧ visited.length ≤ 4 := by
  obtain ⟨held, hb⟩ := between_run currying curriedScript {} [("till", .account ⟨"till"⟩)] false
  rw [run_eq_trial] at hb
  have hf : ClosureFree [("till", .account ⟨"till"⟩)] := by
    intro binding hmem
    rw [List.mem_singleton.mp hmem]
    rfl
  obtain ⟨hc, hsize⟩ : capturedBy? curriedState "f" = some 3 ∧
      curriedState.arena.scopes.size = 4 := by decide +kernel
  obtain ⟨params, body, hbinds⟩ := binds_of_capturedBy? hc
  obtain ⟨-, -, hclosures, hlookups⟩ :=
    (scopes_form_tree currying {} hf false).1 curriedState held hb.reaches
  obtain ⟨hhas, hne, -⟩ := hclosures params body 3 (.inr ⟨_, _, hbinds⟩)
  obtain ⟨visited, found, hw, hl, -, hlength⟩ := hlookups 3 "z" hhas
  exact ⟨held, hb.reaches, hc, hhas, hne, visited, found, hw, hl, hsize ▸ hlength⟩

end Run

end LedgerScript
