/-
# Renaming

Names stand in forms, in the parameters and bodies of closures, in the bindings of scopes and among
the names that scopes permit.  A map of names is applied to all of these; operators and host texts
are no names and stay.

If the map is injective, the arena cannot tell the difference: each of its operations, done on the
renamed arena with the renamed name and value, gives what it gave before, renamed
(`Arena.define_rename`, `Arena.permit_rename`, `Arena.lookup_rename`).
-/
import LedgerScript.Proofs.Scopes
import Mathlib.Data.List.Basic

namespace LedgerScript

variable {f : String → String}

/-! ## 1. Forms and values -/

namespace Node

mutual

/-- A form with its identifiers renamed. -/
def rename (f : String → String) : Node → Node
  | number value => number value
  | ident name => ident (f name)
  | operator symbol => operator symbol
  | list children => list (renameAll f children)

/-- A forest with its identifiers renamed. -/
def renameAll (f : String → String) : List Node → List Node
  | [] => []
  | node :: rest => rename f node :: renameAll f rest

end

theorem renameAll_eq_map (f : String → String) (forms : List Node) :
    renameAll f forms = forms.map (rename f) := by
  induction forms with
  | nil => rfl
  | cons node rest ih => simp [renameAll, ih]

@[simp] theorem rename_number (f : String → String) (value : Int) :
    (number value).rename f = number value := by simp [rename]

@[simp] theorem rename_ident (f : String → String) (name : String) :
    (ident name).rename f = ident (f name) := by simp [rename]

@[simp] theorem rename_operator (f : String → String) (symbol : String) :
    (operator symbol).rename f = operator symbol := by simp [rename]

@[simp] theorem rename_list (f : String → String) (children : List Node) :
    (list children).rename f = list (children.map (rename f)) := by
  simp [rename, renameAll_eq_map]

mutual

theorem rename_id : ∀ node : Node, node.rename id = node
  | number _ | ident _ | operator _ => by simp
  | list children => by rw [rename_list, map_rename_id children]

theorem map_rename_id : ∀ forms : List Node, forms.map (rename id) = forms
  | [] => rfl
  | node :: rest => by rw [List.map_cons, rename_id node, map_rename_id rest]

end

end Node

namespace Value

/-- A value with the names of a closure renamed. -/
def rename (f : String → String) : Value → Value
  | closure params body scope => closure (params.map f) (body.rename f) scope
  | value => value

/-- Values other than closures hold no names. -/
theorem rename_of_plain {v : Value} (h : v.capture? = none) : v.rename f = v := by
  cases v with
  | closure => cases h
  | _ => rfl

theorem rename_id (v : Value) : v.rename id = v := by
  cases v with
  | closure params body scope => simp [rename, Node.rename_id]
  | _ => rfl

end Value

/-! ## 2. Scopes -/

/-- Bindings with their keys and values renamed. -/
def Table.rename (f : String → String) (bindings : Table String Value) : Table String Value :=
  bindings.map fun binding => (f binding.1, binding.2.rename f)

namespace Table

theorem get?_rename (hf : f.Injective) (bindings : Table String Value) (name : String) :
    (bindings.rename f).get? (f name) = (bindings.get? name).map (Value.rename f) := by
  induction bindings with
  | nil => rfl
  | cons binding rest ih =>
    obtain ⟨key, v⟩ := binding
    have ih : get? (rest.map fun binding => (f binding.1, binding.2.rename f)) (f name) = _ := ih
    simp only [rename, List.map_cons, get?, hf.eq_iff, ih]
    split <;> rfl

theorem put_rename (hf : f.Injective) (bindings : Table String Value) (name : String) (v : Value) :
    (bindings.rename f).put (f name) (v.rename f) = (bindings.put name v).rename f := by
  induction bindings with
  | nil => rfl
  | cons binding rest ih =>
    obtain ⟨key, w⟩ := binding
    simp only [rename] at ih
    simp only [rename, List.map_cons, put, hf.eq_iff]
    split
    · rfl
    · rw [ih]; rfl

/-- Bindings that are written one after another may be renamed before or after. -/
theorem ofPairs_rename (hf : f.Injective) (pairs : Table String Value) :
    ofPairs (pairs.rename f) = (ofPairs pairs).rename f := by
  have hfrom (start : Table String Value) :
      (pairs.rename f).foldl (fun t p => t.put p.1 p.2) (start.rename f) =
        (pairs.foldl (fun t p => t.put p.1 p.2) start).rename f := by
    induction pairs generalizing start with
    | nil => rfl
    | cons pair rest ih =>
      simp only [rename, List.map_cons, List.foldl_cons] at ih ⊢
      rw [← ih (start.put pair.1 pair.2)]
      have hput := put_rename hf start pair.1 pair.2
      simp only [rename] at hput
      rw [hput]
  exact hfrom []

end Table

/-- A scope with its names renamed. -/
def Scope.rename (f : String → String) (scope : Scope) : Scope where
  parent := scope.parent
  bindings := scope.bindings.rename f
  permitted := scope.permitted.map f

namespace Arena

/-- An arena with the names of its scopes renamed. -/
def rename (f : String → String) (arena : Arena) : Arena := ⟨arena.scopes.map (Scope.rename f)⟩

variable {arena : Arena} {id : ScopeId} {name : String}

theorem size_rename (f : String → String) (arena : Arena) :
    (arena.rename f).scopes.size = arena.scopes.size := by simp [rename]

theorem scope?_rename (f : String → String) (arena : Arena) (id : ScopeId) :
    (arena.rename f).scope? id = (arena.scope? id).map (Scope.rename f) := by
  unfold scope?
  split
  · rfl
  · simp [rename]

theorem newScope_rename (f : String → String) (arena : Arena) (parent : Option ScopeId) :
    (arena.rename f).newScope parent =
      ((arena.newScope parent).1, (arena.newScope parent).2.rename f) := by
  simp [newScope, rename, Scope.rename, Table.rename]

/-- A change of one scope may be made before or after renaming. -/
theorem modify_rename {change change' : Scope → Scope} (arena : Arena) (id : ScopeId)
    (h : ∀ scope, change' (scope.rename f) = (change scope).rename f) :
    (arena.rename f).modify id change' = (arena.modify id change).map (rename f) := by
  unfold modify
  rw [scope?_rename]
  cases arena.scope? id with
  | none => rfl
  | some scope =>
    simp only [Option.map_some, Except.map, rename]
    congr 2
    apply Array.ext
    · simp
    · intro i hi hi'
      simp only [Array.getElem_modify, Array.getElem_map]
      split
      · exact h _
      · rfl

/-- **A definition** of a renamed name as a renamed value. -/
theorem define_rename (hf : f.Injective) (arena : Arena) (id : ScopeId) (name : String)
    (v : Value) : (arena.rename f).define id (f name) (v.rename f) =
      (arena.define id name v).map (rename f) := by
  refine modify_rename arena id fun scope => ?_
  simp [Scope.rename, Table.put_rename hf]

/-- **A permission** of a renamed name. -/
theorem permit_rename (hf : f.Injective) (arena : Arena) (id : ScopeId) (name : String) :
    (arena.rename f).permit id (f name) = (arena.permit id name).map (rename f) := by
  refine modify_rename arena id fun scope => ?_
  have hmem : f name ∈ scope.permitted.map f ↔ name ∈ scope.permitted :=
    List.mem_map_of_injective hf
  simp only [Scope.rename, hmem]
  split
  · rfl
  · simp

theorem permitted_rename (f : String → String) (arena : Arena) (id : ScopeId) :
    (arena.rename f).permitted id = (arena.permitted id).map (List.map f) := by
  unfold permitted
  rw [scope?_rename]
  cases arena.scope? id <;> rfl

theorem lookupWithin_rename (hf : f.Injective) (arena : Arena) (name : String) :
    ∀ (bound : Nat) (at? : Option ScopeId), (arena.rename f).lookupWithin (f name) bound at? =
      (arena.lookupWithin name bound at?).map (Option.map (Value.rename f))
  | 0, none | 0, some _ | _ + 1, none => by simp [lookupWithin, Except.map]
  | bound + 1, some id => by
    rw [lookupWithin, lookupWithin, scope?_rename]
    cases arena.scope? id with
    | none => rfl
    | some scope =>
      simp only [Option.map_some, Scope.rename, Table.get?_rename hf]
      cases scope.bindings.get? name with
      | none => exact lookupWithin_rename hf arena name bound scope.parent
      | some v => rfl

/-- **A look-up** of a renamed name. -/
theorem lookup_rename (hf : f.Injective) (arena : Arena) (at? : Option ScopeId) (name : String) :
    (arena.rename f).lookup at? (f name) =
      (arena.lookup at? name).map (Option.map (Value.rename f)) := by
  unfold lookup
  rw [size_rename, lookupWithin_rename hf]

end Arena

end LedgerScript
