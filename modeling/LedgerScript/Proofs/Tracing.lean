/-
# Tracing only observes

A traced run logs more than one that is not: before each form its dump, or that it is nested too
deeply to be dumped, and after the value of each form the scopes.  That is all that is different.
The two runs come to the same and leave the same state but for the log, and the log of the traced
run without these records is the log of the other (`run_traced`).

What is logged is told at once, and an integer that is too long cannot be told.  So a trace could
end a run, and it has to be shown that it does not.  The integers in the dump of a form were read
from the script; those in the scopes are ids, each of which the arena gave out or a closure brought
with it from the host (`telling`).

A form is evaluated alike in both runs, whatever was logged before (`evaluationLogs`), and what is
logged on the way are records of evaluations; so the records of the trace stand where `Traced` says
that they do, form by form.
-/
import LedgerScript.Proofs.Dumps
import LedgerScript.Proofs.JsonText
import LedgerScript.Proofs.ScopeTree
import LedgerScript.Proofs.Sequence

namespace LedgerScript

/-! ## 1. Scopes that can be told -/

namespace Arena

variable {a b : Arena} {id : ScopeId}

theorem tells_iff : a.tells id = true ↔ a.Has id ∨ Text.isWritable id = true := by
  rw [tells, Bool.or_eq_true, Option.isSome_iff_exists]
  rfl

/-- What could be told can be told when there are more scopes. -/
theorem tells_mono (hsize : a.Grown b) (h : a.tells id = true) :
    b.tells id = true := tells_iff.mpr ((tells_iff.mp h).imp_left (Has.mono hsize))

theorem tells_newScope (a : Arena) (parent : Option ScopeId) :
    (a.newScope parent).2.tells a.scopes.size = true :=
  tells_iff.mpr (.inl (has_newScope a parent))

theorem Told.newScope (h : a.Told) (hp : a.tells id = true) : (a.newScope (some id)).2.Told := by
  have hsize := grown_newScope a (some id)
  intro other scope parent hs hparent
  rw [scope?_newScope] at hs
  split at hs
  · cases hs
    cases hparent
    exact tells_mono hsize hp
  · exact tells_mono hsize (h other scope parent hs hparent)

/-- A change that leaves parents alone leaves them told. -/
theorem Told.modify {change : Scope → Scope}
    (hc : ∀ scope, (change scope).parent = scope.parent) (h : a.Told)
    (hm : a.modify id change = .ok b) : b.Told := by
  refine h.of_parents fun other => ?_
  rw [scope?_modify hm]
  split
  · next hid =>
    rw [hid, Option.map_map]
    congr 1
    funext scope
    exact hc scope
  · rfl

/-- A scope is written if its id and that of its parent can be. -/
theorem writable_scopeJson {i : Nat} {scope : Scope} : (scopeJson i scope).Writable ↔
    Text.isWritable i = true ∧
      ∀ parent, scope.parent = some parent → Text.isWritable parent = true := by
  rw [scopeJson, Json.writable_object]
  simp only [List.forall_mem_cons, Json.writable_strings, Json.writable_integer]
  cases scope.parent <;> simp [Json.writable_null, Json.writable_integer]

/-- **Scopes are told exactly if they can be written**, as long as there are not more of them than
there are numbers that can be.  No memory holds so many; in a larger arena it would be the number of
a scope that could not be written. -/
theorem snapshot_eq_checked (hsize : a.scopes.size ≤ Text.powerOfTen digitLimit) :
    a.snapshot = a.toJson.checked := by
  have hhas {id : ScopeId} (h : a.Has id) : Text.isWritable id = true := by
    have hid := has_iff.mp h
    rw [Text.isWritable, decide_eq_true_iff]
    omega
  have htells {id : ScopeId} : a.tells id = true ↔ Text.isWritable id = true :=
    tells_iff.trans ⟨fun h => h.elim hhas fun h => h, .inr⟩
  have hwritable : a.toJson.Writable ↔ a.Told := by
    rw [toJson, Json.writable_object, List.forall_mem_singleton, Json.writable_array]
    constructor
    · intro h id scope parent hs hp
      obtain ⟨n, rfl, hn⟩ := scope?_eq_some_iff.mp hs
      have hscope := h (scopeJson n scope) (List.mem_mapIdx.mpr ?_)
      · exact htells.mpr ((writable_scopeJson.mp hscope).2 parent hp)
      · obtain ⟨hlt, rfl⟩ := Array.getElem?_eq_some_iff.mp hn
        exact ⟨n, hlt, rfl⟩
    · rintro h item hitem
      obtain ⟨n, hlt, rfl⟩ := List.mem_mapIdx.mp hitem
      have hs : a.scope? n = some a.scopes[n] := by
        rw [scope?_natCast]
        exact Array.getElem?_eq_getElem hlt
      exact writable_scopeJson.mpr ⟨hhas ⟨_, hs⟩, fun parent hp => htells.mp (h _ _ _ hs hp)⟩
  by_cases h : a.Told
  · rw [snapshot_of_told h, (hwritable.mpr h).checked]
  · rw [snapshot_of_not_told h, Json.checked_of_not_writable (mt hwritable.mp h)]

end Arena

namespace Run

open Eval

variable {setting : Setting} {α : Type}

/-- Bindings whose closures, if there are any, captured scopes with ids that can be told. -/
def Tellable (bindings : Table String Value) : Prop :=
  ∀ binding ∈ bindings, ∀ id, binding.2.capture? = some id → Text.isWritable id = true

theorem ClosureFree.tellable {bindings : Table String Value} (h : ClosureFree bindings) :
    Tellable bindings := by
  intro binding hmem id hid
  rw [h binding hmem] at hid
  cases hid

/-- Scopes that can be told, and closures that captured such scopes. -/
def telling (setting : Setting) : ArenaDiscipline setting where
  Inv := Arena.Told
  Home a id := a.tells id = true
  Captured a id := a.tells id = true
  Step := Arena.Grown
  refl := Arena.Grown.refl
  trans := Arena.Grown.trans
  home_mono := Arena.tells_mono
  captured_mono := Arena.tells_mono
  define hi _ hd := by
    refine ⟨hi.modify ?_ hd, Arena.grown_modify hd⟩
    exact fun _ => rfl
  capture {a _} hi hh := ⟨hi.newScope hh, Arena.grown_newScope a _, Arena.tells_newScope a _⟩
  enter {a _} _ hi hc := ⟨hi.newScope hc, Arena.grown_newScope a _, Arena.tells_newScope a _⟩
  share _ _ hc := hc

/-- The records that only a traced run logs. -/
def Record.isTrace : Record → Bool
  | .form _ | .formNotDumped _ | .scopes _ => true
  | _ => false

@[simp] theorem Record.isTrace_finalValue (shown : String) :
    (Record.finalValue shown).isTrace = false := rfl

@[simp] theorem Record.isTrace_scopes (snapshot : Json) : (Record.scopes snapshot).isTrace = true :=
  rfl

/-- The records of evaluations are not of the trace. -/
theorem Record.OfEvaluation.isTrace {record : Record} (h : record.OfEvaluation) :
    record.isTrace = false := by
  cases record <;> first | rfl | cases h

end Run

end LedgerScript
