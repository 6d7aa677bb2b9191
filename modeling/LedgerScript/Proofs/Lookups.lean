/-
# Look-ups after a change of the arena

A definition is seen by the look-ups of its own name only, and from the scope that it was made in
before all others; a new scope is empty, so what is looked up from it is what is looked up from
the scope below which it was made.  The second needs that parents are older than their children: a
walk from an old scope visits old scopes, so it does not meet the new one.  Nothing is around the
root, so what is looked up from there is what the root itself binds.
-/
import LedgerScript.Proofs.ScopeTree

namespace LedgerScript.Arena

variable {a b : Arena} {id : Int} {name other : String} {v : Value}

/-! ## 1. Definitions -/

/-- What a scope shows to the look-up of a name: its binding, and where else to look. -/
def view (name : String) (scope : Scope) : Option Value × Option ScopeId :=
  (scope.bindings.get? name, scope.parent)

/-- A look-up comes to the same, however far it may go, if every scope shows it the same. -/
theorem lookupWithin_congr
    (h : ∀ id, (b.scope? id).map (view name) = (a.scope? id).map (view name)) :
    ∀ (bound : Nat) (at? : Option ScopeId),
      b.lookupWithin name bound at? = a.lookupWithin name bound at?
  | 0, none | _ + 1, none => by simp only [lookupWithin]
  | 0, some _ => by simp only [lookupWithin]
  | bound + 1, some here => by
    have hview := h here
    rw [lookupWithin, lookupWithin]
    cases ha : a.scope? here with
    | none =>
      rw [ha, Option.map_none, Option.map_eq_none_iff] at hview
      rw [hview]
    | some scope =>
      rw [ha, Option.map_some, Option.map_eq_some_iff] at hview
      obtain ⟨seen, hb, hview⟩ := hview
      obtain ⟨hget, hparent⟩ := Prod.mk.inj hview
      rw [hb]
      dsimp only
      rw [hget, hparent]
      cases scope.bindings.get? name with
      | some found => rfl
      | none => exact lookupWithin_congr h bound scope.parent

/-- **A definition changes no look-up of another name.** -/
theorem lookup_define_of_ne (h : a.define id name v = .ok b) (hne : name ≠ other)
    (at? : Option ScopeId) : b.lookup at? other = a.lookup at? other := by
  have hview : ∀ here, (b.scope? here).map (view other) = (a.scope? here).map (view other) := by
    intro here
    rw [scope?_define h]
    by_cases hid : here = id
    · rw [if_pos hid, hid, Option.map_map]
      congr 1
      funext scope
      simp only [Function.comp_apply, view, Table.get?_put, if_neg hne]
    · rw [if_neg hid]
  have hsize : b.scopes.size = a.scopes.size := size_modify h
  rw [lookup, lookup, hsize]
  exact lookupWithin_congr hview _ at?

/-- **What was defined is found** from the scope that it was defined in. -/
theorem lookup_define_self (h : a.define id name v = .ok b) :
    b.lookup (some id) name = .ok (some v) := by
  have hs := scope?_define h id
  rw [if_pos rfl] at hs
  cases ha : a.scope? id with
  | none =>
    rw [define, modify, ha] at h
    cases h
  | some scope =>
    rw [ha] at hs
    simp [lookup, lookupWithin, hs, Table.get?_put]

/-- A scope that exists can be written to. -/
theorem Has.define (h : a.Has id) (name : String) (v : Value) :
    ∃ b, a.define id name v = .ok b := by
  obtain ⟨scope, hs⟩ := h
  exact ⟨_, by rw [Arena.define, modify, hs]⟩

theorem Has.permit (h : a.Has id) (name : String) : ∃ b, a.permit id name = .ok b := by
  obtain ⟨scope, hs⟩ := h
  exact ⟨_, by rw [Arena.permit, modify, hs]⟩

/-! ## 2. New scopes -/

/-- A walk is the same where the scopes that it may visit are the same. -/
theorem Walk.mono {visited : List Int} {r : Option Value} (h : a.Walk name id visited r)
    (hsame : ∀ id scope, a.scope? id = some scope → b.scope? id = some scope) :
    b.Walk name id visited r := by
  induction h with
  | found hs hv => exact .found (hsame _ _ hs) hv
  | unbound hs hv hp => exact .unbound (hsame _ _ hs) hv hp
  | outward hs hv hp _ ih => exact .outward (hsame _ _ hs) hv hp ih

/-- **A new scope changes no look-up** from a scope that there was. -/
theorem Ordered.lookup_newScope_of_has (ho : a.Ordered) (parent : Option ScopeId) (h : a.Has id)
    (name : String) : (a.newScope parent).2.lookup (some id) name = a.lookup (some id) name := by
  obtain ⟨visited, r, hw, hlength⟩ := ho.exists_walk name h
  have hold := hw.mono fun _ _ hs => scope?_newScope_of_some parent hs
  rw [lookup, lookup, hw.lookupWithin_eq (by omega), hold.lookupWithin_eq]
  rw [size_newScope]
  omega

/-- **A new scope sees what its parent sees.** -/
theorem Ordered.lookup_newScope (ho : a.Ordered) {parent : ScopeId} (hp : a.Has parent)
    (name : String) :
    (a.newScope (some parent)).2.lookup (some (a.newScope (some parent)).1) name =
      a.lookup (some parent) name := by
  obtain ⟨visited, r, hw, hlength⟩ := ho.exists_walk name hp
  have hold := hw.mono fun _ _ hs => scope?_newScope_of_some (some parent) hs
  have hnew : (a.newScope (some parent)).2.scope? a.scopes.size =
      some { parent := some parent } := by rw [scope?_newScope, if_pos rfl]
  have hwalk := Walk.outward hnew (show Table.get? [] name = none from rfl) rfl hold
  rw [lookup, lookup, hw.lookupWithin_eq (by omega)]
  refine hwalk.lookupWithin_eq ?_
  rw [List.length_cons, size_newScope]
  omega

/-! ## 3. The root -/

/-- What is looked up from the root is what the root binds. -/
theorem Tree.lookup_root (ht : a.Tree) {scope : Scope} (hs : a.scope? rootId = some scope)
    (name : String) : a.lookup (some rootId) name = .ok (scope.bindings.get? name) := by
  obtain ⟨root, hroot, hp⟩ := ht.root
  rw [hs] at hroot
  cases hroot
  cases hv : scope.bindings.get? name with
  | some v => exact (Walk.found hs hv).lookupWithin_eq (Nat.le_add_left _ _)
  | none => exact (Walk.unbound hs hv hp).lookupWithin_eq (Nat.le_add_left _ _)

end LedgerScript.Arena

namespace LedgerScript.Run

/-- What is looked up at the start of a run is what the host bound. -/
theorem lookup_initial (ledger : Ledger) (bindings : Table String Value) (listener : Bool)
    (name : String) :
    (State.initial ledger bindings listener).arena.lookup (some Arena.rootId) name =
      .ok ((Table.ofPairs bindings).get? name) :=
  (tree_initial ledger bindings listener).lookup_root
    ((scope?_initial ledger bindings listener _).trans (if_pos rfl)) name

end LedgerScript.Run
