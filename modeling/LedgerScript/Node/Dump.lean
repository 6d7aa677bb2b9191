/-
# Forms as tagged JSON

A form is dumped as an object with its type, and its value or its children.  Dumps are for readers
that recurse on every level, so a list nested deeper than a given depth is refused; atoms have no
depth.

The dump of a list is built without recursion.  Every list has a child list, which is made empty,
attached to the entry of its list at once, and filled when its turn comes; the list that was put on
the work stack last is the next one.  Until then its child list is shared between the entry and the
stack, so child lists are held by their places in a heap.
-/
import LedgerScript.Json
import LedgerScript.Node
import LedgerScript.ScriptError

namespace LedgerScript.Node

/-! ## 1. Objects -/

/-- The dump of a form that is no list. -/
def dumpAtom (type : String) (value : Json) : Json :=
  .object [("type", .string type), ("value", value)]

/-- The dump of a list, given its children's. -/
def dumpList (children : List Json) : Json :=
  .object [("type", .string "LIST"), ("children", .array children)]

/-! ## 2. Child lists -/

/-- An entry of a child list: the dump of an atom, or a list, which refers to its own child list. -/
inductive Entry where
  | atom (dump : Json)
  | list (place : Nat)

/-- The child lists made so far, filled or not, each at its place. -/
abbrev Heap := Array (Array Entry)

/-- Adds an entry to the child list at a place. -/
def Heap.attach (heap : Heap) (place : Nat) (entry : Entry) : Heap :=
  heap.modify place (·.push entry)

/-- The dumps in the child list at a place, unfolded so many levels deep. -/
def Heap.unfold (heap : Heap) : (levels place : Nat) → List Json
  | 0, _ => []
  | levels + 1, place => (heap[place]?.getD #[]).toList.map fun
    | .atom dump => dump
    | .list inner => dumpList (heap.unfold levels inner)

/-! ## 3. The work stack -/

/-- A list whose child list is still to be filled. -/
structure Waiting where
  children : List Node
  /-- The place of its child list. -/
  place : Nat
  level : Nat

/-- The child lists, and the lists that wait for theirs to be filled, the next one first. -/
structure Work where
  heap : Heap
  stack : List Waiting

/-- Fills the child list at a place.  A child that is a list gets an empty child list, waits, and is
attached. -/
def fill (place level : Nat) : List Node → Work → Work
  | [], work => work
  | .number value :: rest, ⟨heap, stack⟩ =>
    fill place level rest ⟨heap.attach place (.atom (dumpAtom "NUM" (.integer value))), stack⟩
  | .ident name :: rest, ⟨heap, stack⟩ =>
    fill place level rest ⟨heap.attach place (.atom (dumpAtom "VAR" (.string name))), stack⟩
  | .operator symbol :: rest, ⟨heap, stack⟩ =>
    fill place level rest ⟨heap.attach place (.atom (dumpAtom "OP" (.string symbol))), stack⟩
  | .list children :: rest, ⟨heap, stack⟩ =>
    fill place level rest
      ⟨Heap.attach (heap.push #[]) place (.list heap.size),
        ⟨children, heap.size, level + 1⟩ :: stack⟩

/-- The most forms that are still to be looked at. -/
def Waiting.costs : List Waiting → Nat
  | [] => 0
  | next :: rest => sizes next.children + 1 + costs rest

theorem costs_fill (place level : Nat) (children : List Node) (work : Work) :
    Waiting.costs (fill place level children work).stack ≤
      sizes children + Waiting.costs work.stack := by
  fun_induction fill place level children work with
  | case1 => simp [sizes]
  | case2 | case3 | case4 =>
    simp only [sizes, size] at *
    omega
  | case5 =>
    simp only [sizes, size, Waiting.costs] at *
    omega

/-- Fills the child lists of the lists that wait, and of those inside; `limit` is the deepest level
that a list may be on, which the failure tells. -/
def fillAll (limit : Int) (heap : Heap) : List Waiting → Except Failure Heap
  | [] => .ok heap
  | next :: rest =>
    if limit < next.level then .error (.telling .dumpDepth (Text.writeInteger limit))
    else
      let work := fill next.place next.level next.children ⟨heap, rest⟩
      fillAll limit work.heap work.stack
termination_by stack => Waiting.costs stack
decreasing_by
  have := costs_fill next.place next.level next.children ⟨heap, rest⟩
  simp only [Waiting.costs] at *
  omega

/-! ## 4. Dumps -/

/-- The depth that dumps are limited to unless told otherwise. -/
def dumpDepth : Int := 100

/-- The dump of one form.  An entry refers to a child list that was made later than its own, so
there are no more levels than child lists. -/
def dump (limit : Int) : Node → Except Failure Json
  | .number value => .ok (dumpAtom "NUM" (.integer value))
  | .ident name => .ok (dumpAtom "VAR" (.string name))
  | .operator symbol => .ok (dumpAtom "OP" (.string symbol))
  | .list children => do
    let heap ← fillAll limit #[#[]] [⟨children, 0, 1⟩]
    return dumpList (heap.unfold heap.size 0)

/-- The dumps of a forest. -/
def dumpForest (limit : Int) (forms : List Node) : Except Failure (List Json) :=
  forms.mapM (dump limit)

end LedgerScript.Node
