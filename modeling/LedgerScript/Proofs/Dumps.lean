/-
# What a dump shows

A dump is built out of order: a list is attached to its parent while its child list is still empty,
and its children are looked at when its turn on the work stack comes.  What comes out can be told
without stack and heap: the dump of a list is its tag with the dumps of its children in order
(`dumped`), and the only thing that keeps a forest from being dumped is a list at a deeper level
than the limit.

Whether a dump fails is seen from the levels of the lists that wait (`fits_fill`).  For what it
shows, every place of the heap is given its goal, the children that it is to hold.  All the time a
place shows the front of its goal, and the rest of the goal waits (`Work.Builds`); a list is shown
by a place that was made later, so the finished heap unfolds to the goals (`unfold_of_builds`).

A dump loses nothing: `ofDumps?` reads the forest back.
-/
import Mathlib.Data.List.Forall2
import LedgerScript.Node.Dump
import LedgerScript.Proofs.JsonText
import LedgerScript.Proofs.Rendering

namespace LedgerScript.Node

variable {limit : Int} {forms : List Node}

/-! ## 1. The dump of a form by its parts -/

mutual

/-- The tag of a form with its value, or with the dumps of its children. -/
def dumped : Node → Json
  | number value => dumpAtom "NUM" (.integer value)
  | ident name => dumpAtom "VAR" (.string name)
  | operator symbol => dumpAtom "OP" (.string symbol)
  | list children => dumpList (allDumped children)

/-- The dumps of a forest, in order. -/
def allDumped : List Node → List Json
  | [] => []
  | node :: rest => dumped node :: allDumped rest

end

mutual

/-- The form that a dump shows. -/
def ofDump? : Json → Option Node
  | .object [("type", .string "NUM"), ("value", .integer value)] => some (number value)
  | .object [("type", .string "VAR"), ("value", .string name)] => some (ident name)
  | .object [("type", .string "OP"), ("value", .string symbol)] => some (operator symbol)
  | .object [("type", .string "LIST"), ("children", .array dumps)] => (ofDumps? dumps).map list
  | _ => none

/-- The forest that some dumps show. -/
def ofDumps? : List Json → Option (List Node)
  | [] => some []
  | dump :: rest => do
    let node ← ofDump? dump
    let nodes ← ofDumps? rest
    pure (node :: nodes)

end

mutual

theorem ofDump?_dumped : ∀ form : Node, ofDump? form.dumped = some form
  | number _ | ident _ | operator _ => by simp [dumped, dumpAtom, ofDump?]
  | list children => by simp [dumped, dumpList, ofDump?, ofDumps?_allDumped children]

theorem ofDumps?_allDumped (forms : List Node) : ofDumps? (allDumped forms) = some forms := by
  cases forms with
  | nil => simp [allDumped, ofDumps?]
  | cons form rest =>
    simp [allDumped, ofDumps?, ofDump?_dumped form, ofDumps?_allDumped rest]

end

/-- The dump of an atom can be written if its value can. -/
theorem writable_dumpAtom {type : String} {value : Json} (h : value.Writable) :
    (dumpAtom type value).Writable :=
  Json.writable_object.mpr (List.forall_mem_cons.mpr
    ⟨Json.writable_string type, List.forall_mem_singleton.mpr h⟩)

theorem writable_dumpList {dumps : List Json} (h : ∀ dump ∈ dumps, dump.Writable) :
    (dumpList dumps).Writable :=
  Json.writable_object.mpr (List.forall_mem_cons.mpr
    ⟨Json.writable_string "LIST", List.forall_mem_singleton.mpr (Json.writable_array.mpr h)⟩)

mutual

/-- A dump can be written if the numbers of the form can. -/
theorem writable_dumped : ∀ form : Node, form.isWritable = true → form.dumped.Writable
  | number _, h => writable_dumpAtom (Json.writable_integer.mpr h)
  | ident name, _ => writable_dumpAtom (Json.writable_string name)
  | operator symbol, _ => writable_dumpAtom (Json.writable_string symbol)
  | list children, h => writable_dumpList (writable_allDumped children h)

theorem writable_allDumped : ∀ forms : List Node, allWritable forms = true →
    ∀ dump ∈ allDumped forms, dump.Writable
  | [], _ => fun _ hdump => absurd hdump List.not_mem_nil
  | form :: rest, h => by
    obtain ⟨hform, hrest⟩ := Bool.and_eq_true_iff.mp h
    exact List.forall_mem_cons.mpr ⟨writable_dumped form hform, writable_allDumped rest hrest⟩

end

/-! ## 2. Levels -/

/-- A forest has a list at some level.  The lists that stand in the forest itself are at level one,
the lists among their children at level two, and so on. -/
inductive HasList : List Node → Nat → Prop
  | here {forms children : List Node} (h : list children ∈ forms) : HasList forms 1
  | inside {forms children : List Node} {level : Nat} (h : list children ∈ forms)
    (hl : HasList children level) : HasList forms (level + 1)

theorem not_hasList_nil {level : Nat} : ¬ HasList [] level := by
  intro h
  cases h with
  | here h => exact List.not_mem_nil h
  | inside h => exact List.not_mem_nil h

theorem hasList_cons {form : Node} {rest : List Node} {level : Nat} :
    HasList (form :: rest) level ↔ HasList [form] level ∨ HasList rest level := by
  constructor
  · rintro (⟨h⟩ | ⟨h, hl⟩) <;> rcases List.mem_cons.mp h with h | h
    · exact .inl (.here (List.mem_singleton.mpr h))
    · exact .inr (.here h)
    · exact .inl (.inside (List.mem_singleton.mpr h) hl)
    · exact .inr (.inside h hl)
  · rintro ((⟨h⟩ | ⟨h, hl⟩) | (⟨h⟩ | ⟨h, hl⟩))
    · exact .here (List.mem_cons.mpr (.inl (List.mem_singleton.mp h)))
    · exact .inside (List.mem_cons.mpr (.inl (List.mem_singleton.mp h))) hl
    · exact .here (List.mem_cons_of_mem _ h)
    · exact .inside (List.mem_cons_of_mem _ h) hl

/-- Inside so many open lists, no list of a forest is at a deeper level than the limit. -/
def Shallow (limit : Int) (opened : Nat) (forms : List Node) : Prop :=
  ∀ level, HasList forms level → (opened + level : Nat) ≤ limit

theorem shallow_nil {opened : Nat} : Shallow limit opened [] :=
  fun _ hl => absurd hl not_hasList_nil

theorem shallow_cons {opened : Nat} {form : Node} {rest : List Node} :
    Shallow limit opened (form :: rest) ↔
      Shallow limit opened [form] ∧ Shallow limit opened rest := by
  constructor
  · intro h
    exact ⟨fun level hl => h level (hasList_cons.mpr (.inl hl)),
      fun level hl => h level (hasList_cons.mpr (.inr hl))⟩
  · rintro ⟨hform, hrest⟩ level hl
    exact (hasList_cons.mp hl).elim (hform level) (hrest level)

/-- Atoms have no level. -/
theorem shallow_atom {opened : Nat} {form : Node} (h : ∀ children, form ≠ list children) :
    Shallow limit opened [form] := by
  rintro level (⟨hmem⟩ | ⟨hmem, -⟩)
  · exact absurd (List.mem_singleton.mp hmem).symm (h _)
  · exact absurd (List.mem_singleton.mp hmem).symm (h _)

/-- A list is shallow if it is not itself too deep and its children are shallow inside it. -/
theorem shallow_list {opened : Nat} {children : List Node} :
    Shallow limit opened [list children] ↔
      (opened + 1 : Nat) ≤ limit ∧ Shallow limit (opened + 1) children := by
  constructor
  · intro h
    refine ⟨h 1 (.here List.mem_cons_self), fun level hl => ?_⟩
    have hdeeper := h _ (.inside List.mem_cons_self hl)
    omega
  · rintro ⟨hhere, hinside⟩ level (⟨hmem⟩ | ⟨hmem, hl⟩)
    · exact hhere
    · cases List.mem_singleton.mp hmem
      have hdeeper := hinside _ hl
      omega

/-- The lists that wait and those inside them are at levels that the limit allows. -/
def Fits (limit : Int) (stack : List Waiting) : Prop :=
  ∀ next ∈ stack, (next.level : Int) ≤ limit ∧ Shallow limit next.level next.children

theorem fits_cons {next : Waiting} {stack : List Waiting} :
    Fits limit (next :: stack) ↔
      ((next.level : Int) ≤ limit ∧ Shallow limit next.level next.children) ∧
        Fits limit stack :=
  List.forall_mem_cons

/-- What the children of a list leave to wait fits if they are shallow. -/
theorem fits_fill (place level : Nat) (children : List Node) (work : Work) :
    Fits limit (fill place level children work).stack ↔
      Shallow limit level children ∧ Fits limit work.stack := by
  fun_induction fill place level children work with
  | case1 => exact ⟨fun h => ⟨shallow_nil, h⟩, And.right⟩
  | case2 | case3 | case4 =>
    next ih =>
    rw [ih, shallow_cons]
    exact ⟨fun h => ⟨⟨shallow_atom (by simp), h.1⟩, h.2⟩, fun h => ⟨h.1.2, h.2⟩⟩
  | case5 children rest heap stack ih =>
    rw [ih, fits_cons, shallow_cons, shallow_list]
    exact and_left_comm.trans and_assoc.symm

theorem fillAll_of_fits (heap : Heap) {stack : List Waiting} (h : Fits limit stack) :
    ∃ filled, fillAll limit heap stack = .ok filled := by
  fun_induction fillAll limit heap stack with
  | case1 heap => exact ⟨heap, rfl⟩
  | case2 heap next rest hdeep =>
    exact absurd hdeep (Int.not_lt.mpr (fits_cons.mp h).1.1)
  | case3 heap next rest _ work ih =>
    obtain ⟨⟨-, hchildren⟩, hrest⟩ := fits_cons.mp h
    exact ih ((fits_fill _ _ _ _).mpr ⟨hchildren, hrest⟩)

/-- A list that is too deep ends the dump, wherever it waits. -/
theorem fillAll_of_not_fits {heap : Heap} {stack : List Waiting} (h : ¬ Fits limit stack) :
    fillAll limit heap stack = .error (.telling .dumpDepth (Text.writeInteger limit)) := by
  fun_induction fillAll limit heap stack with
  | case1 heap => exact absurd (fun _ hnext => nomatch hnext) h
  | case2 => rfl
  | case3 heap next rest hlevel work ih =>
    refine ih fun hwork => h ?_
    obtain ⟨hchildren, hrest⟩ := (fits_fill _ _ _ _).mp hwork
    exact fits_cons.mpr ⟨⟨Int.not_lt.mp hlevel, hchildren⟩, hrest⟩

/-! ## 4. The child lists -/

section Building

variable {goals : List (List Node)} {heap : Heap} {stack : List Waiting} {place level : Nat}

/-- An entry of the child list at a place shows a form.  A list is shown by a place that was made
later and is to hold the children of the list. -/
inductive Entry.Shows (goals : List (List Node)) (place : Nat) : Entry → Node → Prop
  | atom {dump : Json} {form : Node} (h : ∀ children, form ≠ .list children)
    (hdump : form.dumped = dump) : Shows goals place (.atom dump) form
  | list {inner : Nat} {children : List Node} (hlater : place < inner)
    (h : goals[inner]? = some children) : Shows goals place (.list inner) (.list children)

theorem Entry.Shows.append {entry : Entry} {form : Node} (h : entry.Shows goals place form)
    (more : List (List Node)) : entry.Shows (goals ++ more) place form := by
  cases h with
  | atom h hdump => exact .atom h hdump
  | list hlater h =>
    have hinner := (List.getElem?_eq_some_iff.mp h).1
    exact .list hlater (by rwa [List.getElem?_append_left hinner])

/-- What a place still misses: the children that wait for it, or nothing. -/
inductive Missing (stack : List Waiting) (place : Nat) : List Node → Prop
  | waiting {next : Waiting} (h : next ∈ stack) (hp : next.place = place) :
    Missing stack place next.children
  | finished (h : ∀ next ∈ stack, next.place ≠ place) : Missing stack place []

/-- A list that waits elsewhere has no bearing on a place. -/
theorem missing_cons_of_ne {next : Waiting} {rest : List Node} (h : next.place ≠ place) :
    Missing (next :: stack) place rest ↔ Missing stack place rest := by
  constructor
  · rintro (⟨hnext, hp⟩ | hnone)
    · rcases List.mem_cons.mp hnext with rfl | hnext
      · exact absurd hp h
      · exact .waiting hnext hp
    · exact .finished (List.forall_mem_cons.mp hnone).2
  · rintro (⟨hnext, hp⟩ | hnone)
    · exact .waiting (List.mem_cons_of_mem _ hnext) hp
    · exact .finished (List.forall_mem_cons.mpr ⟨h, hnone⟩)

/-- The place of the next list misses the children of that list, if no other waits for it. -/
theorem missing_cons_self {next : Waiting} {rest : List Node}
    (h : ∀ other ∈ stack, other.place ≠ next.place) :
    Missing (next :: stack) next.place rest ↔ rest = next.children := by
  constructor
  · rintro (⟨hnext, hp⟩ | hnone)
    · rcases List.mem_cons.mp hnext with rfl | hnext
      · rfl
      · exact absurd hp (h _ hnext)
    · exact absurd rfl (List.forall_mem_cons.mp hnone).1
  · rintro rfl
    exact .waiting List.mem_cons_self rfl

/-- The child list at a place shows the front of some children, and the rest is missing. -/
def Work.Holds (goals : List (List Node)) (work : Work) (place : Nat) (goal : List Node) : Prop :=
  ∃ entries shown rest, work.heap[place]? = some entries ∧ goal = shown ++ rest ∧
    List.Forall₂ (Entry.Shows goals place) entries.toList shown ∧ Missing work.stack place rest

/-- The child lists are on the way to their goals, one for each place. -/
structure Work.Builds (goals : List (List Node)) (work : Work) : Prop where
  size : goals.length = work.heap.size
  within : ∀ next ∈ work.stack, next.place < work.heap.size
  apart : (work.stack.map Waiting.place).Nodup
  holds : ∀ place goal, goals[place]? = some goal → work.Holds goals place goal

/-- No other list waits for the place of the one whose turn it is. -/
theorem Work.Builds.alone {next : Waiting} (h : Work.Builds goals ⟨heap, next :: stack⟩) :
    ∀ other ∈ stack, other.place ≠ next.place := fun other hother heq =>
  (List.nodup_cons.mp h.apart).1 (List.mem_map.mpr ⟨other, hother, heq⟩)

/-- The next child of the list whose turn it is: an entry that shows it is attached. -/
theorem Work.Builds.attach {entry : Entry} {child : Node} {rest : List Node}
    (h : Work.Builds goals ⟨heap, ⟨child :: rest, place, level⟩ :: stack⟩)
    (he : entry.Shows goals place child) :
    Work.Builds goals ⟨heap.attach place entry, ⟨rest, place, level⟩ :: stack⟩ where
  size := by simpa [Heap.attach] using h.size
  within := by simpa [Heap.attach] using h.within
  apart := h.apart
  holds other goal hgoal := by
    obtain ⟨entries, shown, remaining, hentries, rfl, hshown, hmissing⟩ := h.holds other goal hgoal
    by_cases hplace : place = other
    · subst hplace
      have hremaining : remaining = child :: rest := (missing_cons_self h.alone).mp hmissing
      refine ⟨entries.push entry, shown ++ [child], rest, ?_, by simp [hremaining], ?_,
        .waiting List.mem_cons_self rfl⟩
      · simp [Heap.attach, Array.getElem?_modify, hentries]
      · simpa using List.rel_append hshown (.cons he .nil)
    · refine ⟨entries, shown, remaining, ?_, rfl, hshown, ?_⟩
      · simpa [Heap.attach, Array.getElem?_modify, hplace] using hentries
      · exact (missing_cons_of_ne hplace).mpr ((missing_cons_of_ne hplace).mp hmissing)

/-- A list with an empty child list of its own waits; what waited before still does. -/
theorem Work.Builds.enlist (h : Work.Builds goals ⟨heap, stack⟩) (children : List Node)
    (level : Nat) :
    Work.Builds (goals ++ [children]) ⟨heap.push #[], ⟨children, heap.size, level⟩ :: stack⟩ where
  size := by simpa using h.size
  within := by
    have hsize : (heap.push (#[] : Array Entry)).size = heap.size + 1 := Array.size_push _
    refine List.forall_mem_cons.mpr ⟨?_, fun other hother => ?_⟩
    · show heap.size < (heap.push #[]).size
      omega
    · have hstack : other.place < heap.size := h.within other hother
      show other.place < (heap.push #[]).size
      omega
  apart := by
    refine List.nodup_cons.mpr ⟨fun hmem => ?_, h.apart⟩
    obtain ⟨other, hother, heq⟩ := List.mem_map.mp hmem
    exact absurd heq (Nat.ne_of_lt (h.within other hother))
  holds place goal hgoal := by
    have hsize : goals.length = heap.size := h.size
    by_cases hplace : place < heap.size
    · rw [List.getElem?_append_left (by omega)] at hgoal
      obtain ⟨entries, shown, rest, hentries, rfl, hshown, hmissing⟩ := h.holds place goal hgoal
      refine ⟨entries, shown, rest, ?_, rfl, hshown.imp fun _ _ he => he.append _, ?_⟩
      · rw [Array.getElem?_push_lt hplace]
        rwa [Array.getElem?_eq_getElem hplace] at hentries
      · exact (missing_cons_of_ne (Nat.ne_of_gt hplace)).mpr hmissing
    · have hlast : place = heap.size := by
        have := (List.getElem?_eq_some_iff.mp hgoal).1
        simp only [List.length_append, List.length_singleton] at this
        omega
      subst hlast
      rw [← hsize, List.getElem?_concat_length] at hgoal
      cases hgoal
      exact ⟨#[], [], children, Array.getElem?_push_size, rfl, .nil,
        .waiting List.mem_cons_self rfl⟩

/-- The order in which lists wait is of no account for what they wait for. -/
theorem Work.Builds.perm {reordered : List Waiting} (h : Work.Builds goals ⟨heap, stack⟩)
    (hperm : stack.Perm reordered) : Work.Builds goals ⟨heap, reordered⟩ where
  size := h.size
  within next hnext := h.within next (hperm.mem_iff.mpr hnext)
  apart := (hperm.map _).nodup_iff.mp h.apart
  holds place goal hgoal := by
    obtain ⟨entries, shown, rest, hentries, hsplit, hshown, hmissing⟩ := h.holds place goal hgoal
    refine ⟨entries, shown, rest, hentries, hsplit, hshown, ?_⟩
    cases hmissing with
    | waiting hnext hp => exact .waiting (hperm.mem_iff.mp hnext) hp
    | finished hnone => exact .finished fun next hnext => hnone next (hperm.mem_iff.mpr hnext)

/-- A list whose children have all been looked at does not wait any more. -/
theorem Work.Builds.finish (h : Work.Builds goals ⟨heap, ⟨[], place, level⟩ :: stack⟩) :
    Work.Builds goals ⟨heap, stack⟩ where
  size := h.size
  within next hnext := h.within next (List.mem_cons_of_mem _ hnext)
  apart := (List.nodup_cons.mp h.apart).2
  holds other goal hgoal := by
    obtain ⟨entries, shown, rest, hentries, rfl, hshown, hmissing⟩ := h.holds other goal hgoal
    refine ⟨entries, shown, rest, hentries, rfl, hshown, ?_⟩
    by_cases hplace : place = other
    · subst hplace
      rw [(missing_cons_self h.alone).mp hmissing]
      exact .finished h.alone
    · exact (missing_cons_of_ne hplace).mp hmissing

/-- Filling one child list, child by child. -/
theorem Work.Builds.fill {children : List Node} {work : Work}
    (h : Work.Builds goals ⟨work.heap, ⟨children, place, level⟩ :: work.stack⟩) :
    ∃ more, Work.Builds (goals ++ more) (Node.fill place level children work) := by
  fun_induction Node.fill place level children work generalizing goals with
  | case1 => exact ⟨[], by simpa using h.finish⟩
  | case2 | case3 | case4 =>
    next ih => exact ih (h.attach (.atom (by simp) rfl))
  | case5 children rest heap stack ih =>
    have hplace : place < heap.size := h.within _ List.mem_cons_self
    have hgoal : (goals ++ [children])[heap.size]? = some children := by
      rw [← show goals.length = heap.size from h.size, List.getElem?_concat_length]
    have henlisted := (h.enlist children (level + 1)).perm (.swap _ _ _)
    obtain ⟨more, hmore⟩ := ih (henlisted.attach (.list hplace hgoal))
    exact ⟨[children] ++ more, by rwa [← List.append_assoc]⟩

/-- Filling the child lists one after another until none waits. -/
theorem Work.Builds.fillAll {filled : Heap} (h : Work.Builds goals ⟨heap, stack⟩)
    (hf : Node.fillAll limit heap stack = .ok filled) :
    ∃ more, Work.Builds (goals ++ more) ⟨filled, []⟩ := by
  fun_induction Node.fillAll limit heap stack generalizing goals with
  | case1 heap =>
    cases hf
    exact ⟨[], by rwa [List.append_nil]⟩
  | case2 => cases hf
  | case3 heap next rest _ work =>
    rename_i ih
    obtain ⟨more, hmore⟩ : ∃ more, Work.Builds (goals ++ more) work := Work.Builds.fill h
    obtain ⟨later, hlater⟩ := ih hmore hf
    exact ⟨more ++ later, by rwa [← List.append_assoc]⟩

/-- **The finished heap unfolds to its goals**, given levels enough to reach the last place. -/
theorem unfold_of_builds (h : Work.Builds goals ⟨heap, []⟩) :
    ∀ (levels place : Nat) (goal : List Node), goals[place]? = some goal →
      heap.size ≤ levels + place → heap.unfold levels place = allDumped goal
  | 0, place, goal, hgoal, hlevels => by
    have hplace := (List.getElem?_eq_some_iff.mp hgoal).1
    have hsize : goals.length = heap.size := h.size
    omega
  | levels + 1, place, goal, hgoal, hlevels => by
    obtain ⟨entries, shown, rest, hentries, rfl, hshown, hmissing⟩ := h.holds place goal hgoal
    have hrest : rest = [] := by
      cases hmissing with
      | waiting hnext => cases hnext
      | finished => rfl
    rw [hrest, List.append_nil, Heap.unfold, hentries, Option.getD_some]
    generalize entries.toList = row at hshown
    clear hgoal hmissing hentries
    induction hshown with
    | nil => rfl
    | @cons entry form _ _ he _ ih =>
      rw [List.map_cons, ih, allDumped]
      cases he with
      | atom _ hdump => rw [hdump]
      | @list inner children hlater hchildren =>
        have hinner := unfold_of_builds h levels inner children hchildren (by omega)
        rw [dumped, ← hinner]

end Building

/-! ## 5. Dumps -/

/-- **The dump of one form** is told by its parts, or the limit ends it. -/
theorem dump_shallow {form : Node} (h : Shallow limit 0 [form]) :
    form.dump limit = .ok form.dumped := by
  cases form with
  | number | ident | operator => rfl
  | list children =>
    obtain ⟨hhere, hinside⟩ := shallow_list.mp h
    have hstart : Work.Builds [children] ⟨#[#[]], [⟨children, 0, 1⟩]⟩ :=
      { size := rfl
        within := by simp
        apart := by simp
        holds := fun place goal hgoal => by
          cases place with
          | zero =>
            cases hgoal
            exact ⟨#[], [], children, rfl, rfl, .nil, .waiting List.mem_cons_self rfl⟩
          | succ => cases hgoal }
    have hfits : Fits limit [⟨children, 0, 1⟩] :=
      fits_cons.mpr ⟨⟨hhere, hinside⟩, fun _ hnext => nomatch hnext⟩
    obtain ⟨heap, hheap⟩ := fillAll_of_fits #[#[]] hfits
    obtain ⟨more, hbuilds⟩ := hstart.fillAll hheap
    have hunfold := unfold_of_builds hbuilds heap.size 0 children rfl (Nat.le_refl _)
    rw [dump, hheap, dumped, ← hunfold]
    rfl

theorem dump_deep {form : Node} (h : ¬ Shallow limit 0 [form]) :
    form.dump limit = .error (.telling .dumpDepth (Text.writeInteger limit)) := by
  cases form with
  | number | ident | operator => exact (h (shallow_atom nofun)).elim
  | list children =>
    have hfits : ¬ Fits limit [⟨children, 0, 1⟩] := fun hfits =>
      h (shallow_list.mpr (fits_cons.mp hfits).1)
    rw [dump, fillAll_of_not_fits hfits]
    rfl

end LedgerScript.Node
