/-
# What the operations of the arena change

One equation for each operation says what every scope is afterwards: a new scope is empty and
leaves the others alone, `define` and `permit` change one scope and keep its parent.  From them,
`Binds` is read off after every change.

A look-up that finds a value has found it in some scope (`binds_of_lookup`); so whatever holds of
all values that are bound holds of all values that are looked up.  Whether a snapshot can be made
depends on the parents of the scopes alone (`told_iff_of_parents`).
-/
import LedgerScript.Arena

namespace LedgerScript

/-- The scope that a closure captured; no other value has one. -/
def Value.capture? : Value → Option ScopeId
  | .closure _ _ scope => some scope
  | _ => none

namespace Arena

variable {arena arena' : Arena} {id : Int} {name : String} {value : Value}

/-! ## 1. Scopes -/

theorem scope?_natCast (arena : Arena) (n : Nat) : arena.scope? n = arena.scopes[n]? := by
  unfold scope?
  exact if_neg (Int.not_lt.mpr (Int.natCast_nonneg n))

theorem scope?_eq_some_iff {scope : Scope} :
    arena.scope? id = some scope ↔ ∃ n : Nat, id = n ∧ arena.scopes[n]? = some scope := by
  constructor
  · intro h
    rcases Int.lt_or_le id 0 with h0 | h0
    · unfold scope? at h
      rw [if_pos h0] at h
      cases h
    · obtain ⟨n, rfl⟩ := Int.eq_ofNat_of_zero_le h0
      exact ⟨n, rfl, scope?_natCast arena n ▸ h⟩
  · rintro ⟨n, rfl, h⟩
    rw [scope?_natCast, h]

theorem lt_size_of_scope? {scope : Scope} (h : arena.scope? id = some scope) :
    id < arena.scopes.size := by
  obtain ⟨n, rfl, hn⟩ := scope?_eq_some_iff.mp h
  exact Int.ofNat_lt.mpr (Array.getElem?_eq_some_iff.mp hn).1

/-- **A new scope** comes last, is empty, and changes no other. -/
theorem scope?_newScope (arena : Arena) (parent : Option ScopeId) (id : Int) :
    (arena.newScope parent).2.scope? id =
      if id = arena.scopes.size then some { parent := parent } else arena.scope? id := by
  rcases Int.lt_or_le id 0 with h0 | h0
  · rw [if_neg (by omega)]
    unfold scope?
    rw [if_pos h0, if_pos h0]
  · obtain ⟨n, rfl⟩ := Int.eq_ofNat_of_zero_le h0
    simp only [scope?_natCast, newScope, Array.getElem?_push, Int.natCast_inj]

/-- A new scope leaves the scopes that there are as they are. -/
theorem scope?_newScope_of_some (parent : Option ScopeId) {scope : Scope}
    (hs : arena.scope? id = some scope) : (arena.newScope parent).2.scope? id = some scope := by
  rw [scope?_newScope, if_neg (Int.ne_of_lt (lt_size_of_scope? hs)), hs]

theorem size_newScope (arena : Arena) (parent : Option ScopeId) :
    (arena.newScope parent).2.scopes.size = arena.scopes.size + 1 := Array.size_push _

/-- **A change of one scope** is that change and no other. -/
theorem scope?_modify {change : Scope → Scope} (h : arena.modify id change = .ok arena')
    (other : Int) : arena'.scope? other =
      if other = id then (arena.scope? id).map change else arena.scope? other := by
  unfold modify at h
  split at h
  · cases h
  · rename_i scope hs
    cases h
    obtain ⟨n, rfl, hn⟩ := scope?_eq_some_iff.mp hs
    rcases Int.lt_or_le other 0 with h0 | h0
    · rw [if_neg (by omega)]
      unfold scope?
      rw [if_pos h0, if_pos h0]
    · obtain ⟨k, rfl⟩ := Int.eq_ofNat_of_zero_le h0
      simp only [scope?_natCast, Int.toNat_natCast, Array.getElem?_modify, Int.natCast_inj]
      by_cases hk : k = n
      · subst hk; rw [if_pos rfl]
      · rw [if_neg hk, if_neg (Ne.symm hk)]

/-- After a change of one scope, every scope is as it was or changed. -/
theorem exists_scope?_modify {R : Scope → Scope → Prop} (hr : ∀ scope, R scope scope)
    {change : Scope → Scope} (hc : ∀ scope, R scope (change scope))
    (h : arena.modify id change = .ok arena') {other : Int} {scope : Scope}
    (hs : arena.scope? other = some scope) :
    ∃ new, arena'.scope? other = some new ∧ R scope new := by
  rw [scope?_modify h]
  split
  · next hid =>
    subst hid
    exact ⟨change scope, by rw [hs]; rfl, hc scope⟩
  · exact ⟨scope, hs, hr scope⟩

theorem size_modify {change : Scope → Scope} (h : arena.modify id change = .ok arena') :
    arena'.scopes.size = arena.scopes.size := by
  unfold modify at h
  split at h
  · cases h
  · cases h; exact Array.size_modify

/-- An arena holds as many scopes as another, or more of them. -/
def Grown (a b : Arena) : Prop := a.scopes.size ≤ b.scopes.size

theorem Grown.refl (a : Arena) : a.Grown a := Nat.le_refl _

theorem Grown.trans {a b c : Arena} (h : a.Grown b) (h' : b.Grown c) : a.Grown c :=
  Nat.le_trans h h'

theorem grown_newScope (a : Arena) (parent : Option ScopeId) : a.Grown (a.newScope parent).2 :=
  Nat.le_of_lt (Nat.lt_of_succ_le (Nat.le_of_eq (size_newScope a parent).symm))

theorem grown_modify {change : Scope → Scope} (h : arena.modify id change = .ok arena') :
    arena.Grown arena' := Nat.le_of_eq (size_modify h).symm

theorem scope?_define (h : arena.define id name value = .ok arena') (other : Int) :
    arena'.scope? other =
      if other = id then
        (arena.scope? id).map fun scope =>
          { scope with bindings := scope.bindings.put name value }
      else arena.scope? other := scope?_modify h other

theorem scope?_permit (h : arena.permit id name = .ok arena') (other : Int) :
    arena'.scope? other =
      if other = id then
        (arena.scope? id).map fun scope =>
          if name ∈ scope.permitted then scope
          else { scope with permitted := scope.permitted ++ [name] }
      else arena.scope? other := scope?_modify h other

/-- Permitting a name leaves the scope where it is. -/
theorem parent_permit (name : String) (scope : Scope) :
    (if name ∈ scope.permitted then scope
      else { scope with permitted := scope.permitted ++ [name] }).parent = scope.parent := by
  split <;> rfl

theorem permitted_congr (h : arena'.scope? id = arena.scope? id) :
    arena'.permitted id = arena.permitted id := by
  unfold permitted
  rw [h]

/-- A definition permits nothing. -/
theorem permitted_define (h : arena.define id name value = .ok arena') (other : ScopeId) :
    arena'.permitted other = arena.permitted other := by
  unfold permitted
  rw [scope?_define h]
  by_cases hid : other = id
  · subst hid
    rw [if_pos rfl]
    cases arena.scope? other <;> rfl
  · rw [if_neg hid]

/-- Permitting a name takes none away, there or elsewhere. -/
theorem permitted_permit (h : arena.permit id name = .ok arena') {other : ScopeId}
    {names : List String} (hp : arena.permitted other = .ok names) :
    ∃ more, arena'.permitted other = .ok more ∧ names ⊆ more := by
  by_cases hid : other = id
  · subst hid
    unfold permitted at hp ⊢
    rw [scope?_permit h, if_pos rfl]
    cases hs : arena.scope? other with
    | none => rw [hs] at hp; cases hp
    | some scope =>
      rw [hs] at hp
      cases hp
      refine ⟨_, rfl, ?_⟩
      dsimp only
      split
      · exact List.Subset.refl _
      · exact List.subset_append_left _ _
  · refine ⟨names, ?_, List.Subset.refl _⟩
    rw [← hp]
    exact permitted_congr (by rw [scope?_permit h, if_neg hid])

/-! ## 2. Bindings -/

/-- A scope binds a name to a value. -/
def Binds (arena : Arena) (id : ScopeId) (name : String) (value : Value) : Prop :=
  ∃ scope, arena.scope? id = some scope ∧ scope.bindings.get? name = some value

/-- A new scope binds nothing. -/
theorem binds_newScope {parent : Option ScopeId}
    (h : (arena.newScope parent).2.Binds id name value) : arena.Binds id name value := by
  obtain ⟨scope, hs, hv⟩ := h
  rw [scope?_newScope] at hs
  split at hs
  · cases hs; simp [Table.get?] at hv
  · exact ⟨scope, hs, hv⟩

/-- What is bound after a definition was bound before or is what was defined. -/
theorem binds_define {target : ScopeId} {key : String} {new : Value}
    (h : arena.define target key new = .ok arena') (hb : arena'.Binds id name value) :
    (id = target ∧ name = key ∧ value = new) ∨ arena.Binds id name value := by
  obtain ⟨scope, hs, hv⟩ := hb
  rw [scope?_define h] at hs
  split at hs
  · next hid =>
    subst hid
    obtain ⟨old, ho, rfl⟩ := Option.map_eq_some_iff.mp hs
    rw [Table.get?_put] at hv
    split at hv
    · next hk => exact Or.inl ⟨rfl, hk.symm, (Option.some.inj hv).symm⟩
    · exact Or.inr ⟨old, ho, hv⟩
  · exact Or.inr ⟨scope, hs, hv⟩

/-- Permitting a name binds nothing. -/
theorem binds_permit {target : ScopeId} {key : String}
    (h : arena.permit target key = .ok arena') (hb : arena'.Binds id name value) :
    arena.Binds id name value := by
  obtain ⟨scope, hs, hv⟩ := hb
  rw [scope?_permit h] at hs
  split at hs
  · next hid =>
    subst hid
    obtain ⟨old, ho, rfl⟩ := Option.map_eq_some_iff.mp hs
    refine ⟨old, ho, ?_⟩
    split at hv <;> exact hv
  · exact ⟨scope, hs, hv⟩

/-! ## 3. Looking up -/

/-- A value that is found is bound in some scope. -/
theorem binds_of_lookupWithin : ∀ (bound : Nat) (at? : Option ScopeId),
    arena.lookupWithin name bound at? = .ok (some value) → ∃ id, arena.Binds id name value
  | 0, none, h | _ + 1, none, h => by simp [lookupWithin] at h
  | 0, some _, h => by simp [lookupWithin] at h
  | bound + 1, some id, h => by
    rw [lookupWithin] at h
    split at h
    · cases h
    · rename_i scope hs
      split at h
      · rename_i found hf
        cases h
        exact ⟨id, scope, hs, hf⟩
      · exact binds_of_lookupWithin bound scope.parent h

theorem binds_of_lookup {at? : Option ScopeId} (h : arena.lookup at? name = .ok (some value)) :
    ∃ id, arena.Binds id name value := binds_of_lookupWithin _ _ h

/-! ## 4. Snapshots -/

/-- Every parent can be told: it is a scope of the arena, or has few digits. -/
def Told (arena : Arena) : Prop :=
  ∀ id scope parent, arena.scope? id = some scope → scope.parent = some parent →
    arena.tells parent = true

theorem told_iff : arena.Told ↔
    (arena.scopes.all fun scope => scope.parent.all arena.tells) = true := by
  simp only [Array.all_eq_true, Option.all_eq_true]
  constructor
  · intro h n hn parent hp
    refine h n _ parent ?_ hp
    rw [scope?_natCast]
    exact Array.getElem?_eq_getElem hn
  · intro h id scope parent hs hp
    obtain ⟨n, rfl, hn⟩ := scope?_eq_some_iff.mp hs
    obtain ⟨hlt, rfl⟩ := Array.getElem?_eq_some_iff.mp hn
    exact h n hlt parent hp

theorem snapshot_of_told (h : arena.Told) : arena.snapshot = .ok arena.toJson := by
  rw [snapshot, if_pos (told_iff.mp h)]

theorem snapshot_of_not_told (h : ¬ arena.Told) : arena.snapshot = .error .integerTooLong := by
  rw [snapshot, if_neg (mt told_iff.mpr h)]

theorem Told.of_parents (h : arena.Told)
    (hp : ∀ id, (arena'.scope? id).map Scope.parent = (arena.scope? id).map Scope.parent) :
    arena'.Told := by
  intro id scope parent hs hparent
  have hscope := hp id
  rw [hs] at hscope
  obtain ⟨other, hother, heq⟩ := Option.map_eq_some_iff.mp hscope.symm
  have htells := h id other parent hother (heq.trans hparent)
  have hsome : (arena'.scope? parent).isSome = (arena.scope? parent).isSome := by
    rw [← Option.isSome_map (f := Scope.parent), hp parent, Option.isSome_map]
  rwa [tells, hsome]

/-- Whether an arena is told depends on the parents of its scopes alone. -/
theorem told_iff_of_parents
    (hp : ∀ id, (arena'.scope? id).map Scope.parent = (arena.scope? id).map Scope.parent) :
    arena'.Told ↔ arena.Told :=
  ⟨fun h => h.of_parents fun id => (hp id).symm, fun h => h.of_parents hp⟩

end Arena

end LedgerScript
