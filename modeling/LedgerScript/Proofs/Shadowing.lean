/-
# What a definition hides

A look-up finds the first binding of its name on the chain of the scope that it starts from
(`Chain.lookup_eq`).  So a definition is seen from a scope if the scope that was written stands on
the chain and nothing in front of it binds the name (`Unhidden`), and every other look-up comes to
what it came to before.  Neither a definition nor a new scope changes the chain of a scope that
there was.

Nothing is asked of the arena but that parents are older than their children: there may be several
scopes without a parent, and the values may be anything.
-/
import LedgerScript.Proofs.Lookups

namespace LedgerScript.Arena

variable {a b : Arena} {id target : Int} {name key : String} {v : Value} {chain : List Int}

/-! ## 1. Changes that keep the order -/

theorem Ordered.newScope (ho : a.Ordered) {parent : ScopeId} (hp : a.Has parent) :
    (a.newScope (some parent)).2.Ordered where
  parent hs houter := by
    have hsize := grown_newScope a (some parent)
    rw [scope?_newScope] at hs
    split at hs
    · next hid =>
      cases hs
      cases houter
      exact ⟨hp.mono hsize, hid ▸ (has_iff.mp hp).2⟩
    · obtain ⟨hhas, hlt⟩ := ho.parent hs houter
      exact ⟨hhas.mono hsize, hlt⟩

/-- A definition leaves every scope below its parent. -/
theorem parent_define (h : a.define target key v = .ok b) (id : Int) :
    (b.scope? id).map Scope.parent = (a.scope? id).map Scope.parent := by
  rw [scope?_define h]
  split
  · next hid =>
    subst hid
    rw [Option.map_map]
    rfl
  · rfl

theorem exists_scope?_of_parent_eq {scope : Scope}
    (h : (b.scope? id).map Scope.parent = (a.scope? id).map Scope.parent)
    (hs : a.scope? id = some scope) :
    ∃ new, b.scope? id = some new ∧ new.parent = scope.parent := by
  rw [hs] at h
  exact Option.map_eq_some_iff.mp h

theorem Ordered.define (ho : a.Ordered) (h : a.define target key v = .ok b) : b.Ordered where
  parent {id parent scope} hs hp := by
    obtain ⟨old, hold, hparent⟩ := exists_scope?_of_parent_eq (parent_define h id).symm hs
    obtain ⟨hhas, hlt⟩ := ho.parent hold (hparent.trans hp)
    exact ⟨hhas.mono (Nat.le_of_eq (size_modify h).symm), hlt⟩

/-- A definition leaves every chain as it is. -/
theorem Chain.define (hc : a.Chain id chain) (h : a.define target key v = .ok b) :
    b.Chain id chain := by
  induction hc with
  | @last id scope hs hp =>
    obtain ⟨new, hnew, hparent⟩ := exists_scope?_of_parent_eq (parent_define h id) hs
    exact .last hnew (hparent.trans hp)
  | @outward id parent scope outer hs hp _ ih =>
    obtain ⟨new, hnew, hparent⟩ := exists_scope?_of_parent_eq (parent_define h id) hs
    exact .outward hnew (hparent.trans hp) ih

/-! ## 2. The first binding on a chain -/

theorem bound?_eq_some_iff : a.bound? name id = some v ↔ a.Binds id name v :=
  Option.bind_eq_some_iff

theorem bound?_eq_none_iff : a.bound? name id = none ↔ ∀ v, ¬ a.Binds id name v := by
  rw [Option.eq_none_iff_forall_ne_some]
  exact forall_congr' fun v => not_congr bound?_eq_some_iff

/-- **A look-up finds the first binding on the chain.** -/
theorem Chain.lookup_eq (ho : a.Ordered) (hc : a.Chain id chain) (name : String) :
    a.lookup (some id) name = .ok (chain.findSome? (a.bound? name)) := by
  obtain ⟨visited, hpre, hw⟩ := hc.exists_walk name
  have hsize := ho.length_chain_le_size hc
  have hle := hpre.length_le
  exact hw.lookupWithin_eq (by omega)

/-- A definition binds its name in the scope that it is made in, and nothing else. -/
theorem bound?_define (h : a.define target key v = .ok b) (name : String) (id : Int) :
    b.bound? name id = if id = target ∧ name = key then some v else a.bound? name id := by
  rw [bound?, bound?, scope?_define h]
  by_cases hid : id = target
  · subst hid
    obtain ⟨scope, hs⟩ : a.Has id := by
      cases hs : a.scope? id with
      | some scope => exact ⟨scope, hs⟩
      | none => rw [Arena.define, modify, hs] at h; cases h
    simp [hs, Table.get?_put, eq_comm]
  · simp [hid]

/-- A scope on a chain is not hidden for a name: no scope in front of it binds the name. -/
def Unhidden (a : Arena) (name : String) (target : Int) (chain : List Int) : Prop :=
  ∃ nearer farther, chain = nearer ++ target :: farther ∧
    ∀ other ∈ nearer, ∀ v, ¬ a.Binds other name v

/-- Behind a scope that does not bind the name, as much is hidden as without it. -/
theorem Unhidden.cons (h : a.Unhidden name target chain) (hid : a.bound? name id = none) :
    a.Unhidden name target (id :: chain) := by
  obtain ⟨nearer, farther, rfl, hnearer⟩ := h
  have hunbound := bound?_eq_none_iff.mp hid
  exact ⟨id :: nearer, farther, rfl, List.forall_mem_cons.mpr ⟨hunbound, hnearer⟩⟩

/-- What is defined where it is not hidden is the first binding. -/
theorem Unhidden.findSome?_define (h : a.define target key v = .ok b)
    (hc : a.Unhidden key target chain) : chain.findSome? (b.bound? key) = some v := by
  obtain ⟨nearer, farther, rfl, hnearer⟩ := hc
  induction nearer with
  | nil => simp [bound?_define h]
  | cons id nearer ih =>
    obtain ⟨hid, hrest⟩ := List.forall_mem_cons.mp hnearer
    rw [List.cons_append, List.findSome?_cons, bound?_define h]
    by_cases htarget : id = target
    · simp [htarget]
    · simp [htarget, bound?_eq_none_iff.mpr hid, ih hrest]

/-- What is defined elsewhere, or under another name, or where it is hidden, changes no first
binding. -/
theorem findSome?_define (h : a.define target key v = .ok b) :
    ∀ {chain : List Int}, ¬ (name = key ∧ a.Unhidden name target chain) →
      chain.findSome? (b.bound? name) = chain.findSome? (a.bound? name)
  | [], _ => rfl
  | id :: rest, hc => by
    have hnot : ¬ (id = target ∧ name = key) := by
      rintro ⟨rfl, hname⟩
      exact hc ⟨hname, [], rest, rfl, by simp⟩
    rw [List.findSome?_cons, List.findSome?_cons, bound?_define h, if_neg hnot]
    cases hid : a.bound? name id with
    | some w => rfl
    | none => exact findSome?_define h fun hrest => hc ⟨hrest.1, hrest.2.cons hid⟩

/-! ## 3. Look-ups after each change -/

/-- A look-up sees a definition of its name that is not hidden. -/
theorem Ordered.lookup_define_unhidden (ho : a.Ordered) (h : a.define target key v = .ok b)
    (hc : a.Chain id chain) (hu : a.Unhidden key target chain) :
    b.lookup (some id) key = .ok (some v) := by
  rw [(hc.define h).lookup_eq (ho.define h), hu.findSome?_define h]

/-- Every other look-up comes to what it came to before. -/
theorem Ordered.lookup_define_hidden (ho : a.Ordered) (h : a.define target key v = .ok b)
    (hc : a.Chain id chain) (hu : ¬ (name = key ∧ a.Unhidden name target chain)) :
    b.lookup (some id) name = a.lookup (some id) name := by
  rw [(hc.define h).lookup_eq (ho.define h), hc.lookup_eq ho, findSome?_define h hu]

/-- **Look-ups after a definition and after a new scope.**  Let every parent be a scope that was
made before its child.  A definition in a scope is made, and keeps this so.  From any scope, a
look-up of the name then finds the value that was defined, if the scope that was written is on its
chain and no scope in front of that binds the name; every other look-up finds what it found before,
or nothing if it found nothing.  A new scope below another keeps the order as well; what is looked
up from there is what is looked up from the other, and what is looked up from any old scope is what
it was.  A look-up visits at most as many scopes as there are, and what it finds does not depend on
how many more it may visit. -/
theorem lookup_changes (ho : a.Ordered) :
    (∀ target key v, a.Has target → ∃ b, a.define target key v = .ok b ∧ b.Ordered ∧
      ∀ id name, a.Has id → (∃ chain, a.Chain id chain) ∧ ∀ chain, a.Chain id chain →
        (name = key ∧ a.Unhidden name target chain → b.lookup (some id) name = .ok (some v)) ∧
        (¬ (name = key ∧ a.Unhidden name target chain) →
          b.lookup (some id) name = a.lookup (some id) name)) ∧
    (∀ parent, a.Has parent →
      let (child, b) := a.newScope (some parent)
      b.Ordered ∧ (∀ name, b.lookup (some child) name = a.lookup (some parent) name) ∧
        ∀ id name, a.Has id → b.lookup (some id) name = a.lookup (some id) name) ∧
    ∀ id name, a.Has id → ∃ visited found, a.Walk name id visited found ∧
      visited.length ≤ a.scopes.size ∧
      ∀ bound, a.scopes.size ≤ bound → a.lookupWithin name bound (some id) = .ok found := by
  refine ⟨fun target key v htarget => ?_, fun parent hp => ?_, fun id name hid => ?_⟩
  · obtain ⟨b, h⟩ := htarget.define key v
    refine ⟨b, h, ho.define h, fun id name hid => ⟨ho.exists_chain hid, fun chain hc => ?_⟩⟩
    refine ⟨?_, ho.lookup_define_hidden h hc⟩
    rintro ⟨rfl, hu⟩
    exact ho.lookup_define_unhidden h hc hu
  · exact ⟨ho.newScope hp, ho.lookup_newScope hp,
      fun id name hid => ho.lookup_newScope_of_has (some parent) hid name⟩
  · obtain ⟨visited, found, hw, hlength⟩ := ho.exists_walk name hid
    exact ⟨visited, found, hw, hlength, fun bound hb => hw.lookupWithin_eq (by omega)⟩

/-- Four scopes: a root with a scope inside a scope, and another scope without a parent. -/
def grove : Arena :=
  ⟨#[{ parent := none, bindings := [("x", .integer 1)] }, { parent := some 0 },
    { parent := some 1, bindings := [("x", .integer 2)] }, { parent := none }]⟩

/-- `x` is defined in the scope in the middle.  That scope sees it in place of what the root binds;
the scope inside hides it, and the scope that stands apart still sees nothing.  Below the scope
inside, a new scope sees what that one sees. -/
theorem lookup_changes_grove :
    (∃ b, grove.define 1 "x" (.integer 5) = .ok b ∧
      grove.lookup (some 1) "x" = .ok (some (.integer 1)) ∧
      b.lookup (some 1) "x" = .ok (some (.integer 5)) ∧
      b.lookup (some 2) "x" = .ok (some (.integer 2)) ∧ b.lookup (some 3) "x" = .ok none) ∧
    (grove.newScope (some 2)).2.lookup (some 4) "x" = .ok (some (.integer 2)) ∧
    (grove.newScope (some 2)).2.lookup (some 1) "x" = .ok (some (.integer 1)) ∧
    ∃ visited found, grove.Walk "y" 2 visited found ∧ visited.length ≤ 4 := by
  have ho : grove.Ordered := by
    constructor
    intro id parent scope hs hp
    obtain ⟨n, rfl, hn⟩ := scope?_eq_some_iff.mp hs
    match n with
    | 0 | 3 => cases hn; cases hp
    | 1 | 2 =>
      cases hn
      cases hp
      exact ⟨⟨_, rfl⟩, by decide⟩
    | n + 4 => simp [grove] at hn
  obtain ⟨hdefine, hnew, hwalk⟩ := lookup_changes ho
  obtain ⟨b, h, -, hlookup⟩ := hdefine 1 "x" (.integer 5) ⟨_, rfl⟩
  obtain ⟨-, hchild, hold⟩ := hnew 2 ⟨_, rfl⟩
  have hroot : grove.Chain 0 [0] := .last rfl rfl
  have hmiddle : grove.Chain 1 [1, 0] := .outward rfl rfl hroot
  have hinside : grove.Chain 2 [2, 1, 0] := .outward rfl rfl hmiddle
  have hapart : grove.Chain 3 [3] := .last rfl rfl
  refine ⟨⟨b, h, rfl, ?_, ?_, ?_⟩, hchild "x", hold 1 "x" ⟨_, rfl⟩, ?_⟩
  · exact ((hlookup 1 "x" ⟨_, rfl⟩).2 _ hmiddle).1 ⟨rfl, [], [0], rfl, by simp⟩
  · refine ((hlookup 2 "x" ⟨_, rfl⟩).2 _ hinside).2 ?_
    rintro ⟨-, nearer, farther, hchain, hnearer⟩
    cases nearer with
    | nil => simp at hchain
    | cons id nearer =>
      obtain ⟨rfl, -⟩ := List.cons.inj hchain
      exact hnearer 2 List.mem_cons_self (.integer 2) ⟨_, rfl, rfl⟩
  · refine ((hlookup 3 "x" ⟨_, rfl⟩).2 _ hapart).2 ?_
    rintro ⟨-, nearer, farther, hchain, -⟩
    have hmem : (1 : Int) ∈ [3] := by simp [hchain]
    simp at hmem
  · obtain ⟨visited, found, hw, hlength, -⟩ := hwalk 2 "y" ⟨_, rfl⟩
    exact ⟨visited, found, hw, hlength⟩

end LedgerScript.Arena
