/-
# Arenas of the two conventions

A script is run once with a new scope for every call and once under the legacy rules, which bind
the arguments in the scope that the closure captured.  The arenas then have different scopes, and
those of the second hold what earlier calls left there.  `Aligned` says what they still have in
common: the roots bind the same names to paired values and permit the same names, and every closure
captured a scope right below the root, which is empty in the first arena and in the second binds
nothing but parameters of that closure.

So a name that is no parameter is looked up from both captured scopes as from the roots
(`Arena.Below.lookup`), and a parameter has just been bound when the body looks it up.  The steps
that a run takes at the root, the making of closures, and the binding of parameters in either of
the two ways all keep this.
-/
import LedgerScript.Proofs.Matching

namespace LedgerScript

namespace Arena

variable {a b a' b' : Arena} {id target : ScopeId} {name : String} {names : List String} {v : Value}

/-! ## 1. Scopes right below the root -/

theorem Tree.define (ht : a.Tree) (hd : a.define id name v = .ok b) : b.Tree := by
  have hparent : ∀ scope : Scope,
      { scope with bindings := scope.bindings.put name v }.parent = scope.parent := fun _ => rfl
  exact ht.modify hparent hd

/-- A scope lies right below the root and binds nothing but some names. -/
def Below (a : Arena) (id : ScopeId) (names : List String) : Prop :=
  ∃ scope, a.scope? id = some scope ∧ scope.parent = some rootId ∧
    ∀ name, name ∉ names → scope.bindings.get? name = none

theorem Below.has (h : a.Below id names) : a.Has id := by
  obtain ⟨scope, hs, -⟩ := h
  exact ⟨scope, hs⟩

theorem Below.ne_root (h : a.Below id names) (ht : a.Tree) : id ≠ rootId := by
  obtain ⟨scope, hs, hp, -⟩ := h
  exact ht.ne_root hs hp

theorem Below.ne_size (h : a.Below id names) : id ≠ a.scopes.size :=
  Int.ne_of_lt (has_iff.mp h.has).2

/-- **Other names are looked up as from the root.** -/
theorem Below.lookup (h : a.Below id names) (ht : a.Tree) (hn : name ∉ names) :
    a.lookup (some id) name = a.lookup (some rootId) name := by
  obtain ⟨scope, hs, hp, hunbound⟩ := h
  obtain ⟨visited, r, hw, hl, -, hlength⟩ := ht.lookup_eq name ht.has_root
  have hwalk := Walk.outward hs (hunbound name hn) hp hw
  rw [hl]
  refine hwalk.lookupWithin_eq ?_
  rw [List.length_cons]
  omega

/-- A new scope below the root binds nothing. -/
theorem below_newScope (a : Arena) (names : List String) :
    (a.newScope (some rootId)).2.Below a.scopes.size names :=
  ⟨_, (scope?_newScope a (some rootId) _).trans (if_pos rfl), rfl, fun _ _ => rfl⟩

theorem Below.newScope (h : a.Below id names) (parent : Option ScopeId) :
    (a.newScope parent).2.Below id names := by
  obtain ⟨scope, hs, hrest⟩ := h
  exact ⟨scope, scope?_newScope_of_some parent hs, hrest⟩

theorem Below.define (h : a.Below id names) (hn : id = target → name ∈ names)
    (hd : a.define target name v = .ok a') : a'.Below id names := by
  obtain ⟨scope, hs, hp, hunbound⟩ := h
  by_cases hid : id = target
  · subst hid
    refine ⟨{ scope with bindings := scope.bindings.put name v }, ?_, hp, ?_⟩
    · rw [scope?_define hd, if_pos rfl, hs]
      rfl
    · intro other hother
      rw [Table.get?_put, if_neg fun (heq : name = other) => hother (heq ▸ hn rfl)]
      exact hunbound other hother
  · exact ⟨scope, by rw [scope?_define hd, if_neg hid, hs], hp, hunbound⟩

theorem Below.permit (h : a.Below id names) (hne : id ≠ target)
    (hp : a.permit target name = .ok a') : a'.Below id names := by
  obtain ⟨scope, hs, hrest⟩ := h
  exact ⟨scope, by rw [scope?_permit hp, if_neg hne, hs], hrest⟩

/-- After a call has bound its arguments, the parameters are looked up to them from the scope of
the call, and other names as they were from the scope that the closure captured. -/
structure Bound (a : Arena) (captured : ScopeId) (params : List String) (values : List Value)
    (b : Arena) (callScope : ScopeId) : Prop where
  parameter : ∀ pair ∈ params.zip values, b.lookup (some callScope) pair.1 = .ok (some pair.2)
  other (name : String) : name ∉ params →
    b.lookup (some callScope) name = a.lookup (some captured) name

/-! ## 2. One arena -/

/-- The scopes form a tree, in which those that closures captured lie right below the root and bind
nothing but some names. -/
structure Flat (w : Set Capture) (scopeOf : Capture → ScopeId) (namesOf : Capture → List String)
    (a : Arena) : Prop where
  tree : a.Tree
  below {c : Capture} : c ∈ w → a.Below (scopeOf c) (namesOf c)

variable {w : Set Capture} {scopeOf : Capture → ScopeId} {namesOf : Capture → List String}

theorem Flat.define (h : Flat w scopeOf namesOf a)
    (hn : ∀ c ∈ w, scopeOf c = target → name ∈ namesOf c)
    (hd : a.define target name v = .ok a') : Flat w scopeOf namesOf a' where
  tree := h.tree.define hd
  below hc := (h.below hc).define (hn _ hc) hd

/-- The root may bind any name. -/
theorem Flat.define_root (h : Flat w scopeOf namesOf a) (hd : a.define rootId name v = .ok a') :
    Flat w scopeOf namesOf a' :=
  h.define (fun _ hc hroot => absurd hroot ((h.below hc).ne_root h.tree)) hd

theorem Flat.permit_root (h : Flat w scopeOf namesOf a) (hp : a.permit rootId name = .ok a') :
    Flat w scopeOf namesOf a' where
  tree := h.tree.modify (parent_permit name) hp
  below hc := (h.below hc).permit ((h.below hc).ne_root h.tree) hp

theorem Flat.newScope (h : Flat w scopeOf namesOf a) {parent : ScopeId} (hp : a.Has parent) :
    Flat w scopeOf namesOf (a.newScope (some parent)).2 where
  tree := h.tree.newScope hp
  below hc := (h.below hc).newScope _

/-- A closure that is made at the root captures a scope of its own. -/
theorem Flat.capture (h : Flat w scopeOf namesOf a) {c : Capture}
    (hc : scopeOf c = a.scopes.size) :
    Flat (insert c w) scopeOf namesOf (a.newScope (some rootId)).2 where
  tree := h.tree.newScope h.tree.has_root
  below := by
    rintro c' (rfl | hmem)
    · rw [hc]
      exact below_newScope a _
    · exact (h.below hmem).newScope _

end Arena

/-! ## 3. Two arenas -/

/-- Two root scopes permit the same names and bind the same names, to paired values. -/
structure Scope.Paired (F : Node → Prop) (w : Set Capture) (s t : Scope) : Prop where
  permitted : t.permitted = s.permitted
  bindings (name : String) :
    Option.Rel (Value.Paired F w) (s.bindings.get? name) (t.bindings.get? name)

/-- **What the arenas of the two conventions have in common**, the legacy one second. -/
structure Aligned (F : Node → Prop) (w : Set Capture) (a b : Arena) : Prop where
  left : a.Flat w Capture.left fun _ => []
  right : b.Flat w Capture.right Capture.params
  roots {s t : Scope} : a.scope? Arena.rootId = some s → b.scope? Arena.rootId = some t →
    s.Paired F w t
  params {c : Capture} : c ∈ w → c.params.Nodup
  /-- No two closures share a scope, so the parameters of others are not bound there. -/
  own {c c' : Capture} : c ∈ w → c' ∈ w → c.right = c'.right → c.params = c'.params

section

variable {F : Node → Prop} {w w' : Set Capture} {s t : Scope} {v v' : Value}

theorem Scope.Paired.mono (h : s.Paired F w t) (hw : w ≤ w') : s.Paired F w' t where
  permitted := h.permitted
  bindings name := by
    have hname := h.bindings name
    generalize s.bindings.get? name = x, t.bindings.get? name = y at hname ⊢
    cases hname with
    | none => exact .none
    | some hv => exact .some (hv.mono hw)

theorem Scope.Paired.put (h : s.Paired F w t) (name : String) (hv : v.Paired F w v') :
    Scope.Paired F w { s with bindings := s.bindings.put name v }
      { t with bindings := t.bindings.put name v' } where
  permitted := h.permitted
  bindings other := by
    rw [Table.get?_put, Table.get?_put]
    split
    · exact .some hv
    · exact h.bindings other

end

namespace Aligned

open Arena

variable {F : Node → Prop} {w : Set Capture} {a b a' b' : Arena} {c : Capture} {id : ScopeId}
variable {name : String} {v v' : Value}

/-! ## 4. What the root sees -/

theorem sees_root (h : Aligned F w a b) : a.Sees F w rootId b rootId := by
  intro name
  obtain ⟨s, hs, -⟩ := h.left.tree.root
  obtain ⟨t, ht, -⟩ := h.right.tree.root
  exact ⟨_, _, h.left.tree.lookup_root hs name, h.right.tree.lookup_root ht name,
    (h.roots hs ht).bindings name⟩

theorem permitted (h : Aligned F w a b) :
    ∃ names, a.permitted rootId = .ok names ∧ b.permitted rootId = .ok names := by
  obtain ⟨s, hs, -⟩ := h.left.tree.root
  obtain ⟨t, ht, -⟩ := h.right.tree.root
  refine ⟨s.permitted, ?_, ?_⟩
  · rw [Arena.permitted, hs]
  · rw [Arena.permitted, ht, ← (h.roots hs ht).permitted]

/-- **From the scopes of a call** every name is looked up alike: the parameters are bound to the
arguments in both, and no other name is bound below the root. -/
theorem sees_call (h : Aligned F w a b) (hc : c ∈ w) {l : ScopeId} {values : List Value}
    (hplain : ∀ v ∈ values, v.capture? = none) (hlength : values.length = c.params.length)
    (hl : a.Bound c.left c.params values a' l) (hr : b.Bound c.right c.params values b' c.right) :
    a'.Sees F w l b' c.right := by
  intro name
  by_cases hname : name ∈ c.params
  · have hzip : name ∈ (c.params.zip values).map Prod.fst := by
      rwa [List.map_fst_zip (Nat.le_of_eq hlength.symm)]
    obtain ⟨pair, hmem, rfl⟩ := List.mem_map.mp hzip
    have hpair : pair.2 ∈ values := (List.of_mem_zip hmem).2
    exact ⟨_, _, hl.parameter pair hmem, hr.parameter pair hmem, .some (.plain (hplain _ hpair))⟩
  · rw [hl.other name hname, hr.other name hname,
      (h.left.below hc).lookup h.left.tree List.not_mem_nil,
      (h.right.below hc).lookup h.right.tree hname]
    exact h.sees_root name

/-! ## 5. Steps at the root -/

theorem define (h : Aligned F w a b) (hv : v.Paired F w v')
    (ha : a.define rootId name v = .ok a') (hb : b.define rootId name v' = .ok b') :
    Aligned F w a' b' where
  left := h.left.define_root ha
  right := h.right.define_root hb
  roots hs ht := by
    rw [scope?_define ha, if_pos rfl] at hs
    rw [scope?_define hb, if_pos rfl] at ht
    obtain ⟨s, ha, rfl⟩ := Option.map_eq_some_iff.mp hs
    obtain ⟨t, hb, rfl⟩ := Option.map_eq_some_iff.mp ht
    exact (h.roots ha hb).put name hv
  params := h.params
  own := h.own

theorem permit (h : Aligned F w a b) (ha : a.permit rootId name = .ok a')
    (hb : b.permit rootId name = .ok b') : Aligned F w a' b' where
  left := h.left.permit_root ha
  right := h.right.permit_root hb
  roots hs ht := by
    rw [scope?_permit ha, if_pos rfl] at hs
    rw [scope?_permit hb, if_pos rfl] at ht
    obtain ⟨s, ha, rfl⟩ := Option.map_eq_some_iff.mp hs
    obtain ⟨t, hb, rfl⟩ := Option.map_eq_some_iff.mp ht
    have hroots := h.roots ha hb
    rw [hroots.permitted]
    split
    · exact hroots
    · exact ⟨rfl, hroots.bindings⟩
  params := h.params
  own := h.own

/-- A closure that is made in both runs captures a new scope in each. -/
theorem capture (h : Aligned F w a b) {params : List String} (hn : params.Nodup) :
    Aligned F (insert ⟨a.scopes.size, b.scopes.size, params⟩ w)
      (a.newScope (some rootId)).2 (b.newScope (some rootId)).2 where
  left := h.left.capture rfl
  right := h.right.capture rfl
  roots hs ht := by
    rw [scope?_newScope, if_neg h.left.tree.root_ne_size.symm] at hs
    rw [scope?_newScope, if_neg h.right.tree.root_ne_size.symm] at ht
    exact (h.roots hs ht).mono (Set.subset_insert _ _)
  params := by
    rintro c (rfl | hc)
    · exact hn
    · exact h.params hc
  own := by
    rintro c c' (rfl | hc) (rfl | hc') heq
    · rfl
    · exact absurd heq.symm (h.right.below hc').ne_size
    · exact absurd heq (h.right.below hc).ne_size
    · exact h.own hc hc' heq

/-! ## 6. Steps of a call -/

/-- Without the legacy rules a call makes a scope. -/
theorem newScope_left (h : Aligned F w a b) {parent : ScopeId} (hp : a.Has parent) :
    Aligned F w (a.newScope (some parent)).2 b where
  left := h.left.newScope hp
  right := h.right
  roots hs ht := by
    rw [scope?_newScope, if_neg h.left.tree.root_ne_size.symm] at hs
    exact h.roots hs ht
  params := h.params
  own := h.own

/-- It binds in that scope, which is neither the root nor one that a closure captured. -/
theorem define_left (h : Aligned F w a b) (hid : id ≠ rootId) (hc : ∀ c ∈ w, c.left ≠ id)
    (ha : a.define id name v = .ok a') : Aligned F w a' b where
  left := h.left.define (fun c hmem heq => absurd heq (hc c hmem)) ha
  right := h.right
  roots hs ht := by
    rw [scope?_define ha, if_neg hid.symm] at hs
    exact h.roots hs ht
  params := h.params
  own := h.own

/-- Under the legacy rules it binds parameters of the closure in the scope that the closure
captured. -/
theorem define_right (h : Aligned F w a b) (hc : c ∈ w) (hn : name ∈ c.params)
    (hb : b.define c.right name v = .ok b') : Aligned F w a b' where
  left := h.left
  right := h.right.define (fun _ hc' heq => h.own hc hc' heq.symm ▸ hn) hb
  roots hs ht := by
    rw [scope?_define hb, if_neg ((h.right.below hc).ne_root h.right.tree).symm] at ht
    exact h.roots hs ht
  params := h.params
  own := h.own

end Aligned

end LedgerScript
