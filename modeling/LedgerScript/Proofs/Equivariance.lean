/-
# Names carry no meaning

The identifiers of a script may be renamed, together with the names that the host binds.  Different
names must stay different and the four words that name rules must stay themselves; then the renamed
run does what the run did (`run_equivariant`).  It comes to the same values with the names in
closures renamed, or fails in the same way; it counts as many steps, leaves the same ledger and
writes the same lines, but for the parameters that a closure shows.

The legacy rules are left out: they read an identifier in a call as an address.

Names and operators are told apart by their characters, so a renaming of names extends to all texts
by leaving the others alone, and stays injective (`Renaming.extend_injective`).  The runs keep
renamed scopes (`Mirrors`), and on a renamed arena every operation does the same, renamed.
-/
import LedgerScript.Proofs.Correspondence
import LedgerScript.Proofs.Frame
import LedgerScript.Proofs.Sequence
import Mathlib.Data.List.Forall2
import Mathlib.Logic.Equiv.Basic
import Mathlib.Order.CompleteBooleanAlgebra
import Mathlib.Order.CompletePartialOrder

namespace LedgerScript

/-! ## 1. Renamings -/

/-- The names of rules that are words. -/
def keywords : List String := ["provide", "define", "lambda", "println"]

/-- An injective renaming of names that leaves the names of rules as they are. -/
structure Renaming where
  map : String → String
  name {s : String} : Token.isName s.toList = true → Token.isName (map s).toList = true
  injective {s t : String} : Token.isName s.toList = true → Token.isName t.toList = true →
    map s = map t → s = t
  keyword {s : String} : s ∈ keywords → map s = s

namespace Renaming

/-- A text renamed, if it is a name. -/
def extend (r : Renaming) (s : String) : String :=
  if Token.isName s.toList = true then r.map s else s

variable {r : Renaming} {s : String}

theorem extend_name (h : Token.isName s.toList = true) : r.extend s = r.map s := if_pos h

theorem extend_other (h : Token.isName s.toList = false) : r.extend s = s :=
  if_neg (by simp [h])

@[simp] theorem isName_extend : Token.isName (r.extend s).toList = Token.isName s.toList := by
  cases h : Token.isName s.toList with
  | true => rw [extend_name h, r.name h]
  | false => rw [extend_other h, h]

theorem extend_injective (r : Renaming) : r.extend.Injective := by
  intro s t h
  have hname : Token.isName s.toList = Token.isName t.toList := by
    rw [← isName_extend (r := r), h, isName_extend]
  cases hs : Token.isName s.toList with
  | true =>
    have ht := hname.symm.trans hs
    rw [extend_name hs, extend_name ht] at h
    exact r.injective hs ht h
  | false =>
    have ht := hname.symm.trans hs
    rwa [extend_other hs, extend_other ht] at h

theorem extend_keyword (h : s ∈ keywords) : r.extend s = s := by
  unfold extend
  split
  · exact r.keyword h
  · rfl

/-- What is renamed to the name of a rule is that name. -/
theorem extend_mem_keywords : r.extend s ∈ keywords ↔ s ∈ keywords := by
  constructor
  · intro h
    have hs : s = r.extend s := r.extend_injective (extend_keyword h).symm
    rwa [hs]
  · intro h
    rwa [extend_keyword h]

/-- Two names that are not the names of rules may be exchanged. -/
def swap (a b : String) (ha : Token.isName a.toList = true) (hb : Token.isName b.toList = true)
    (ha' : a ∉ keywords) (hb' : b ∉ keywords) : Renaming where
  map := Equiv.swap a b
  name {s} h := by
    rw [Equiv.swap_apply_def]
    split
    · exact hb
    split
    · exact ha
    · exact h
  injective _ _ h := (Equiv.swap a b).injective h
  keyword h :=
    Equiv.swap_apply_of_ne_of_ne (fun he => ha' (he ▸ h)) fun he => hb' (he ▸ h)

end Renaming

/-- A name that is not the name of a rule makes a call. -/
theorem Run.SpecialForm.ofHead_eq_call {name : String} (h : Token.isName name.toList = true)
    (hk : name ∉ keywords) : ofHead name = .call := by
  unfold ofHead
  split
  case h_11 => rfl
  all_goals first
    | exact absurd (by decide) hk
    | exact absurd h (by decide)

namespace Renaming

variable {r : Renaming}

/-- **Renaming** changes the rule of no head. -/
theorem ofHead_extend {name : String} (h : Token.isName name.toList = true) :
    Run.SpecialForm.ofHead (r.extend name) = Run.SpecialForm.ofHead name := by
  by_cases hk : name ∈ keywords
  · rw [extend_keyword hk]
  · have hk' : r.extend name ∉ keywords := fun h => hk (extend_mem_keywords.mp h)
    rw [Run.SpecialForm.ofHead_eq_call h hk,
      Run.SpecialForm.ofHead_eq_call (isName_extend.trans h) hk']

end Renaming

/-- Ids of scopes are not renamed. -/
theorem Arena.told_rename (f : String → String) (arena : Arena) :
    (arena.rename f).Told ↔ arena.Told :=
  told_iff_of_parents fun id => by
    rw [scope?_rename, Option.map_map]
    rfl

/-- A well-formed form is well-formed when it is renamed. -/
theorem Node.WellFormed.rename (r : Renaming) {form : Node} (h : form.WellFormed) :
    (form.rename r.extend).WellFormed := by
  induction h with
  | number h hl => simpa using WellFormed.number h hl
  | ident h => simpa using WellFormed.ident (Renaming.isName_extend.trans h)
  | operator h hw => simpa using WellFormed.operator h hw
  | list _ ih =>
    rw [rename_list]
    refine .list fun child hmem => ?_
    obtain ⟨original, ho, rfl⟩ := List.mem_map.mp hmem
    exact ih original ho

/-- A renamed forest has a text, which is read as that forest. -/
theorem Node.reads_forestText_rename (r : Renaming) {script : String} {forms : List Node}
    (h : Node.Reads script forms) :
    let forms' := forms.map (Node.rename r.extend)
    ∃ text, forestText forms' = .ok text ∧ Node.Reads text forms' := by
  obtain ⟨tokens, ht, hf⟩ := h
  have hwell : ∀ form ∈ forms.map (Node.rename r.extend), form.WellFormed := by
    intro form hmem
    obtain ⟨original, ho, rfl⟩ := List.mem_map.mp hmem
    exact (wellFormed_of_ofTokens ht hf original ho).rename r
  obtain ⟨text, htext, htokens⟩ := ofText_forestText hwell
  exact ⟨text, htext, allTokens _, htokens, ofTokens_allTokens _⟩

namespace Run

open Eval Kinship

variable {setting : Setting} {r : Renaming}

/-! ## 2. Runs that keep renamed scopes -/

/-- Two faults of the same kind: script errors of one kind, or the same fault of the host. -/
inductive SameFailure : Fault → Fault → Prop
  | script {e e' : ScriptError} (h : e.kind = e'.kind) : SameFailure (.script e) (.script e')
  | host (fault : HostFault) : SameFailure (.host fault) (.host fault)
  | tooDeep : SameFailure .tooDeep .tooDeep

theorem SameFailure.refl : ∀ fault : Fault, SameFailure fault fault
  | .script _ => .script rfl
  | .host fault => .host fault
  | .tooDeep => .tooDeep

/-- Two lines that show a value and the value renamed. -/
def Shows (f : String → String) (line line' : String) : Prop :=
  ∃ v : Value, v.shown = .ok line ∧ (v.rename f).shown = .ok line'

/-- The second of two states has the scopes of the first, renamed. -/
structure Mirrors (f : String → String) (s t : State) : Prop where
  arena : t.arena = s.arena.rename f
  ledger : t.ledger = s.ledger
  steps : t.steps = s.steps
  output : List.Forall₂ (Shows f) s.output t.output
  /-- The closures that are bound have well-formed bodies. -/
  bound : ∀ {id name v}, s.arena.Binds id name v → v.Fits Node.WellFormed fun _ => True

/-- The runs of a script and of the script renamed. -/
def alongside (r : Renaming) : Kinship Unit where
  Rel _ := Mirrors r.extend
  Like := SameFailure

section Operations

/-- A host's operation on renamed scopes gives the same as on the scopes, renamed, or is refused
by both.  Ids are not renamed, so a fault that names a scope is the same fault. -/
theorem alongside_ofHost {α β : Type} {g : α → β} {P : Unit → α → Prop} {x : Except HostFault α}
    (hp : ∀ a, x = .ok a → P () a) :
    (alongside r).Corresponds () (Image g P) (ofHost x) (ofHost (x.map g)) := by
  cases x with
  | ok a => exact corresponds_pure ⟨rfl, hp a rfl⟩
  | error fault => exact corresponds_throw (.host fault)

theorem alongside_countStep (limit : Option Int) :
    (alongside r).Corresponds () (fun _ _ _ => True) (countStep limit) (countStep limit) := by
  intro s t h
  have hsteps : t.steps + 1 = s.steps + 1 := congrArg (· + 1) h.steps
  rw [run_countStep, run_countStep]
  cases limit with
  | none => exact .value le_rfl ⟨h.arena, h.ledger, hsteps, h.output, h.bound⟩ trivial
  | some most =>
    dsimp only
    rw [hsteps]
    split
    · exact .fault le_rfl ⟨h.arena, h.ledger, rfl, h.output, h.bound⟩ (.refl _)
    · exact .value le_rfl ⟨h.arena, h.ledger, rfl, h.output, h.bound⟩ trivial

theorem alongside_newScope (parent : Option ScopeId) {P : Unit → ScopeId → Prop}
    (hp : ∀ id, P () id) :
    (alongside r).Corresponds () (Same P) (newScope parent) (newScope parent) := by
  intro s t h
  have hnew := Arena.newScope_rename r.extend s.arena parent
  rw [← h.arena] at hnew
  rw [run_newScope, run_newScope, hnew]
  refine .value le_rfl ⟨rfl, h.ledger, h.steps, h.output, fun hb => ?_⟩ ⟨rfl, hp _⟩
  exact h.bound (Arena.binds_newScope hb)

/-- A change of the arena and the same change of the arena renamed. -/
theorem alongside_changeArena {change change' : Arena → Except HostFault Arena}
    (hc : ∀ arena, change' (arena.rename r.extend) = (change arena).map (Arena.rename r.extend))
    (hb : ∀ {s arena}, (∀ {id name v}, s.Binds id name v → v.Fits Node.WellFormed fun _ => True) →
      change s = .ok arena →
      ∀ {id name v}, arena.Binds id name v → v.Fits Node.WellFormed fun _ => True) :
    (alongside r).Corresponds () (fun _ _ _ => True)
      (changeArena change) (changeArena change') := by
  intro s t h
  rw [run_changeArena, run_changeArena, h.arena, hc]
  cases hs : change s.arena with
  | ok arena => exact .value le_rfl ⟨rfl, h.ledger, h.steps, h.output, hb h.bound hs⟩ trivial
  | error fault => exact .fault le_rfl h (.host fault)

theorem alongside_define (scope : ScopeId) (name : String) {v : Value}
    (hv : v.Fits Node.WellFormed fun _ => True) :
    (alongside r).Corresponds () (fun _ _ _ => True)
      (define scope name v) (define scope (r.extend name) (v.rename r.extend)) := by
  refine alongside_changeArena
    (fun arena => Arena.define_rename r.extend_injective arena scope name v) ?_
  intro s arena hs hd id key w hb
  rcases Arena.binds_define hd hb with ⟨-, -, rfl⟩ | hb
  · exact hv
  · exact hs hb

theorem alongside_permit (scope : ScopeId) (name : String) :
    (alongside r).Corresponds () (fun _ _ _ => True)
      (permit scope name) (permit scope (r.extend name)) :=
  alongside_changeArena (fun arena => Arena.permit_rename r.extend_injective arena scope name)
    fun hs hd _ _ _ hb => hs (Arena.binds_permit hd hb)

theorem alongside_permitted (scope : ScopeId) :
    (alongside r).Corresponds () (Image (List.map r.extend) fun _ _ => True)
      (permitted scope) (permitted scope) := by
  intro s t h
  rw [run_permitted, run_permitted, h.arena, Arena.permitted_rename]
  exact alongside_ofHost (fun _ _ => trivial) s t h

theorem alongside_lookup (scope : ScopeId) (name : String) :
    (alongside r).Corresponds ()
      (Image (Option.map (Value.rename r.extend)) fun _ found =>
        ∀ v, found = some v → v.Fits Node.WellFormed fun _ => True)
      (lookup? (some scope) name) (lookup? (some scope) (r.extend name)) := by
  intro s t h
  rw [run_lookup?, run_lookup?, h.arena, Arena.lookup_rename r.extend_injective]
  refine alongside_ofHost (fun found hfound v hv => ?_) s t h
  rw [hv] at hfound
  obtain ⟨id, hb⟩ := Arena.binds_of_lookup hfound
  exact h.bound hb

theorem alongside_setBalance (account : Account) (amount : Int) :
    (alongside r).Corresponds () (fun _ _ _ => True)
      (setBalance account amount) (setBalance account amount) :=
  corresponds_setBalance (K := alongside r) Mirrors.ledger
    (fun _ h => ⟨h.arena, rfl, h.steps, h.output, h.bound⟩) (fun _ => .refl _) account amount

end Operations

/-! ## 3. Runs -/

/-- **A run and the renamed run** correspond, but under the legacy rules. -/
def renamedRuns (setting : Setting) (r : Renaming) (hm : setting.config.legacy = false) :
    Correspondence setting Unit where
  toKinship := alongside r
  rename := r.extend
  Form := Node.WellFormed
  Home _ _ := True
  Captured _ _ := True
  Balance _ := True
  form_list h := by
    cases h with
    | list h => exact h
  form_ident h := by
    cases h with
    | ident h => exact Renaming.ofHead_extend h
  form_operator h := by
    cases h with
    | operator _ hw => exact Renaming.extend_other (by simp [Token.isName, hw])
  legacy_rename h := by simp [hm] at h
  injective := r.extend_injective
  home_root _ := trivial
  home_mono _ _ := trivial
  captured_mono _ _ := trivial
  legacy_home _ _ := trivial
  balance_debit _ _ := trivial
  balance_credit _ _ := trivial
  like_error h _ := .script h
  like_tooLong := .host _
  like_tooDeep := .tooDeep
  tooDeep_iff h := by cases h <;> simp
  told_iff h := by
    rw [h.arena]
    exact (Arena.told_rename r.extend _).symm
  count _ := alongside_countStep _
  write _ v line line' hline hline' := by
    intro s t h
    refine .value le_rfl ⟨h.arena, h.ledger, h.steps, ?_, h.bound⟩ trivial
    exact List.rel_append h.output (.cons ⟨v, hline, hline'⟩ .nil)
  log _ record record' := by
    intro s t h
    exact .value le_rfl ⟨h.arena, h.ledger, h.steps, h.output, h.bound⟩ trivial
  capture _ := alongside_newScope _ fun _ => trivial
  enter _ _ := alongside_newScope _ fun _ => trivial
  define name _ _ hv := alongside_define _ name hv
  permit name _ := alongside_permit _ name
  permitted _ := alongside_permitted _
  lookup name _ := alongside_lookup _ name
  balance _ := corresponds_balance (K := alongside r) Mirrors.ledger fun _ _ => trivial
  setBalance _ account _ _ := alongside_setBalance account _

/-- Two outcomes of runs: values and the values renamed, or two faults of the same kind. -/
inductive SameOutcome (f : String → String) :
    Except Fault (List Value) → Except Fault (List Value) → Prop
  | values (values : List Value) : SameOutcome f (.ok values) (.ok (values.map (Value.rename f)))
  | failed {fault fault' : Fault} (h : SameFailure fault fault') :
    SameOutcome f (.error fault) (.error fault')

/-- What a report says, its texts aside. -/
def Report.outline (report : Report) : Bool × Option ErrorKind × Nat × Nat × Table String Int :=
  (report.success, report.errorKind?, report.steps, report.output.length, report.balances)

section Runs

variable {script script' : String} {ledger : Ledger} {bindings : Table String Value}

/-- The names that a host binds, renamed; without closures there is nothing to rename in what they
are bound to. -/
def renamedBindings (r : Renaming) (bindings : Table String Value) : Table String Value :=
  bindings.map fun binding => (r.extend binding.1, binding.2)

theorem rename_eq_renamedBindings (hf : ClosureFree bindings) :
    bindings.rename r.extend = renamedBindings r bindings := by
  refine List.map_congr_left fun binding hmem => ?_
  rw [Value.rename_of_plain (hf binding hmem)]

/-- The renamed run starts from the renamed scopes. -/
theorem mirrors_initial (r : Renaming) (ledger : Ledger) (hf : ClosureFree bindings)
    (listener : Bool) (record record' : Record) :
    Mirrors r.extend { State.initial ledger bindings listener with log := [record] }
      { State.initial ledger (renamedBindings r bindings) listener with log := [record'] } := by
  refine ⟨?_, rfl, rfl, .nil, fun {id name v} hb => ?_⟩
  · rw [← rename_eq_renamedBindings hf]
    simp [State.initial, Arena.rename, Scope.rename, Table.ofPairs_rename r.extend_injective]
  · have hb : (State.initial ledger bindings listener).arena.Binds id name v := hb
    have hplain := capture?_of_binds_initial hf hb
    cases v with
    | closure => cases hplain
    | _ => trivial

/-- **A run and the renamed run** come to ends that meet. -/
theorem meets_run (hm : setting.config.legacy = false) {forms : List Node}
    (h : Node.Reads script forms)
    (h' : Node.Reads script' (forms.map (Node.rename r.extend))) (hf : ClosureFree bindings)
    (listener : Bool) :
    (alongside r).Meets () (renamedRuns setting r hm).AllRenamed
      (run setting script ledger bindings listener)
      (run setting script' ledger (renamedBindings r bindings) listener) := by
  obtain ⟨tokens, ht, hforms⟩ := h
  have hwell := Node.wellFormed_of_ofTokens ht hforms
  obtain ⟨record, hrun⟩ := run_of_reads ⟨tokens, ht, hforms⟩ setting ledger bindings listener
  obtain ⟨record', hrun'⟩ :=
    run_of_reads h' setting ledger (renamedBindings r bindings) listener
  rw [hrun, hrun']
  have hstart := mirrors_initial r ledger hf listener record record'
  exact (renamedRuns setting r hm).execute hwell (fun form hmem => (hwell form hmem).isWritable) ()
    _ _ hstart

/-- The texts aside, a report is told by the kind of the outcome and what the state counts. -/
theorem outline_reportOf {f : String → String} {s t : State} (h : Mirrors f s t) (lists : Bool)
    {outcome outcome' : Except ScriptError (List Json)}
    (ho : outcome'.isOk = outcome.isOk)
    (hk : (reportOf setting lists outcome' t).errorKind? =
      (reportOf setting lists outcome s).errorKind?) :
    (reportOf setting lists outcome' t).outline = (reportOf setting lists outcome s).outline := by
  have hlines : t.output.length = s.output.length := h.output.length_eq.symm
  unfold Report.outline
  rw [hk]
  simp [reportOf, Report.success, ho, hlines, h.steps, h.ledger]

/-- Reports of runs that meet differ at most in their texts. -/
theorem outline_interpret {Q : Unit → List Value → List Value → Prop}
    {bindings' : Table String Value} (h : (alongside r).Meets () Q
      (run setting script ledger bindings false) (run setting script' ledger bindings' false))
    (lists : Bool) :
    (interpret setting script' ledger bindings' lists).1.map Report.outline =
      (interpret setting script ledger bindings lists).1.map Report.outline := by
  unfold interpret
  generalize run setting script ledger bindings false = x,
    run setting script' ledger bindings' false = y at h ⊢
  cases h with
  | value _ hst => exact congrArg Except.ok (outline_reportOf hst lists rfl rfl)
  | fault _ hst hl =>
    cases hl with
    | host fault => rfl
    | tooDeep => exact congrArg Except.ok (outline_reportOf hst lists rfl rfl)
    | script hk =>
      exact congrArg Except.ok (outline_reportOf hst lists rfl (congrArg some hk.symm))

end Runs

/-- **Names carry no meaning.**  Let two scripts be read as a forest and as the forest with its
names renamed, and let them run, not under the legacy rules, as the same contract on the same ledger
from bindings without closures, the second with the names that are bound renamed.  The first comes
to some values and the second to these values renamed, or both fail with errors of one kind or with
the same fault of the host.  They count as many steps, leave the same ledger, write line by line the
texts of values and of the values renamed, and leave the same scopes, renamed.  Reports of the two
differ at most in their texts.  The forest renamed has a text, so there is such a second script. -/
theorem run_equivariant (setting : Setting) (hm : setting.config.legacy = false) (r : Renaming)
    {script : String} {forms : List Node} (h : Node.Reads script forms) (ledger : Ledger)
    {bindings : Table String Value} (hf : ClosureFree bindings) :
    let forms' := forms.map (Node.rename r.extend)
    let bindings' := renamedBindings r bindings
    (∃ text, Node.forestText forms' = .ok text ∧ Node.Reads text forms') ∧
    ∀ script', Node.Reads script' forms' →
      (∀ listener,
        let x := run setting script ledger bindings listener
        let y := run setting script' ledger bindings' listener
        SameOutcome r.extend (answerOf x) (answerOf y) ∧
          (stateOf y).steps = (stateOf x).steps ∧ (stateOf y).ledger = (stateOf x).ledger ∧
          List.Forall₂ (Shows r.extend) (stateOf x).output (stateOf y).output ∧
          (stateOf y).arena = (stateOf x).arena.rename r.extend) ∧
      ∀ lists, (interpret setting script' ledger bindings' lists).1.map Report.outline =
        (interpret setting script ledger bindings lists).1.map Report.outline := by
  intro forms' bindings'
  have hmeets {script' : String} (h' : Node.Reads script' forms') (listener : Bool) :
      (alongside r).Meets () (renamedRuns setting r hm).AllRenamed
        (run setting script ledger bindings listener)
        (run setting script' ledger bindings' listener) := meets_run hm h h' hf listener
  refine ⟨Node.reads_forestText_rename r h, fun script' h' => ⟨fun listener => ?_, fun lists => ?_⟩⟩
  · intro x y
    have hxy : (alongside r).Meets () (renamedRuns setting r hm).AllRenamed x y :=
      hmeets h' listener
    clear_value x y
    cases hxy with
    | value _ hst hvalues =>
      obtain ⟨rfl, -⟩ := hvalues.eq_map
      exact ⟨.values _, hst.steps, hst.ledger, hst.output, hst.arena⟩
    | fault _ hst hl => exact ⟨.failed hl, hst.steps, hst.ledger, hst.output, hst.arena⟩
  · exact outline_interpret (hmeets h' false) lists

/-- The ledger that it pays from. -/
def grocerLedger : Ledger := { entries := [(⟨"bank"⟩, 5), (⟨"shop"⟩, 1)] }

/-- A script that shows a closure and calls it. -/
def grocery : String := "(define pay (lambda (x) ($transfer x shop))) (println pay) (pay 2)"

/-- Its forms. -/
def groceryForms : List Node :=
  [.list [.ident "define", .ident "pay", .list [.ident "lambda", .list [.ident "x"],
      .list [.operator "$transfer", .ident "x", .ident "shop"]]],
    .list [.ident "println", .ident "pay"],
    .list [.ident "pay", .number 2]]

/-- The exchange of the parameter of its closure for the name of the shop. -/
def exchange : Renaming := .swap "x" "shop" rfl rfl (by decide) (by decide)

/-- The script with these names exchanged. -/
def exchanged : String := "(define pay (lambda (shop) ($transfer shop x))) (println pay) (pay 2)"

/-- The run of a script by the bank, which a name of the shop is given. -/
def groceryRun (script name : String) : EStateM.Result Fault State (List Value) :=
  trial bank script grocerLedger [(name, .account ⟨"shop"⟩)]

/-- The parameter hides another name than before and is shown; the shop is paid as before. -/
theorem run_equivariant_exchanged :
    let x := groceryRun grocery "shop"
    let y := groceryRun exchanged "x"
    Node.Reads exchanged (groceryForms.map (Node.rename exchange.extend)) ∧
      (answerOf x).isOk = true ∧ SameOutcome exchange.extend (answerOf x) (answerOf y) ∧
      (stateOf x).output = ["<closure (x)>"] ∧ (stateOf y).output = ["<closure (shop)>"] ∧
      List.Forall₂ (Shows exchange.extend) (stateOf x).output (stateOf y).output ∧
      (stateOf y).steps = (stateOf x).steps ∧ (stateOf y).ledger = (stateOf x).ledger ∧
      (stateOf x).ledger.toPairs = [("bank", 3), ("shop", 3)] := by
  intro x y
  obtain ⟨hok, hlines, hlines', hledger⟩ : (answerOf x).isOk = true ∧
      (stateOf x).output = ["<closure (x)>"] ∧ (stateOf y).output = ["<closure (shop)>"] ∧
      (stateOf x).ledger.toPairs = [("bank", 3), ("shop", 3)] := by decide +kernel
  have htokens : (Token.ofText grocery).toOption = some [.openParen, .identifier "define",
      .identifier "pay", .openParen, .identifier "lambda", .openParen, .identifier "x",
      .closeParen, .openParen, .symbol "$transfer", .identifier "x", .identifier "shop",
      .closeParen, .closeParen, .closeParen, .openParen, .identifier "println",
      .identifier "pay", .closeParen, .openParen, .identifier "pay", .number "2" 2,
      .closeParen] := by decide +kernel
  have htokens' : (Token.ofText exchanged).toOption = some [.openParen, .identifier "define",
      .identifier "pay", .openParen, .identifier "lambda", .openParen, .identifier "shop",
      .closeParen, .openParen, .symbol "$transfer", .identifier "shop", .identifier "x",
      .closeParen, .closeParen, .closeParen, .openParen, .identifier "println",
      .identifier "pay", .closeParen, .openParen, .identifier "pay", .number "2" 2,
      .closeParen] := by decide +kernel
  have h : Node.Reads grocery groceryForms := Node.reads_of_toOption htokens rfl
  have h' : Node.Reads exchanged (groceryForms.map (Node.rename exchange.extend)) :=
    Node.reads_of_toOption htokens' rfl
  have hf : ClosureFree [("shop", .account ⟨"shop"⟩)] := closureFree_account _ _
  have hbindings : renamedBindings exchange [("shop", .account ⟨"shop"⟩)] =
      [("x", .account ⟨"shop"⟩)] := rfl
  obtain ⟨-, hruns⟩ := run_equivariant bank rfl exchange h grocerLedger hf
  obtain ⟨hboth, -⟩ := hruns exchanged h'
  obtain ⟨houtcome, hsteps, hpaid, hshown, -⟩ := hboth false
  rw [hbindings, run_eq_trial, run_eq_trial] at houtcome hsteps hpaid hshown
  exact ⟨h', hok, houtcome, hlines, hlines', hshown, hsteps, hpaid, hledger⟩

end Run

end LedgerScript
