/-
# Runs take nothing back

Steps, lines and accounts only become more (`Onward`).  The scopes are no different: a scope stays
below its parent, what it binds it goes on binding, though perhaps to another value, and what it
permits it permits for good.  `Retains` adds this to `Onward`, and that no account comes in twice.

One evaluation retains the state that it starts from, whatever it comes to.  A run is more than
one evaluation: forms are evaluated inside others, and what comes after the inner one is the rest
of the outer.  `Leads` lists the moments that follow on one another, and `Later` chains them.  The
step that carries the result is that the rest of a form retains what any of its operands has left
(`retains_of_operand`), so nothing is lost between an inner evaluation and the end of the outer.
-/
import LedgerScript.Proofs.Calls
import LedgerScript.Proofs.Progress

namespace LedgerScript

/-! ## 1. Scopes that are only added to -/

/-- A scope that was only added to: its parent is the same, every name that was bound is bound,
and every name that was permitted is permitted. -/
structure Scope.KeptIn (old new : Scope) : Prop where
  parent : new.parent = old.parent
  bound (name : String) : (old.bindings.get? name).isSome → (new.bindings.get? name).isSome
  permitted : old.permitted ⊆ new.permitted

theorem Scope.KeptIn.refl (scope : Scope) : scope.KeptIn scope :=
  ⟨rfl, fun _ h => h, List.Subset.refl _⟩

theorem Scope.KeptIn.trans {a b c : Scope} (h : a.KeptIn b) (h' : b.KeptIn c) : a.KeptIn c :=
  ⟨h'.parent.trans h.parent, fun name hb => h'.bound name (h.bound name hb),
    List.Subset.trans h.permitted h'.permitted⟩

namespace Arena

variable {a b c : Arena} {id : Int} {name : String}

/-- Every scope of the first arena is a scope of the second, and was only added to. -/
def Kept (a b : Arena) : Prop :=
  ∀ id scope, a.scope? id = some scope → ∃ new, b.scope? id = some new ∧ scope.KeptIn new

theorem Kept.refl (a : Arena) : a.Kept a := fun _ scope hs => ⟨scope, hs, .refl scope⟩

theorem Kept.trans (h : a.Kept b) (h' : b.Kept c) : a.Kept c := by
  intro id scope hs
  obtain ⟨new, hn, hk⟩ := h id scope hs
  obtain ⟨newer, hn', hk'⟩ := h' id new hn
  exact ⟨newer, hn', hk.trans hk'⟩

theorem kept_newScope (a : Arena) (parent : Option ScopeId) : a.Kept (a.newScope parent).2 :=
  fun _ scope hs => ⟨scope, scope?_newScope_of_some parent hs, .refl scope⟩

theorem kept_modify {change : Scope → Scope} (hc : ∀ scope : Scope, scope.KeptIn (change scope))
    (h : a.modify id change = .ok b) : a.Kept b :=
  fun _ _ hs => exists_scope?_modify Scope.KeptIn.refl hc h hs

theorem kept_define {value : Value} (h : a.define id name value = .ok b) : a.Kept b := by
  have hc : ∀ scope : Scope,
      scope.KeptIn { scope with bindings := scope.bindings.put name value } := by
    refine fun scope => ⟨rfl, fun other hb => ?_, List.Subset.refl _⟩
    dsimp only
    rw [Table.get?_put]
    split
    · rfl
    · exact hb
  exact kept_modify hc h

theorem kept_permit (h : a.permit id name = .ok b) : a.Kept b := by
  refine kept_modify (fun scope => ?_) h
  split
  · exact .refl scope
  · exact ⟨rfl, fun _ hb => hb, List.subset_append_left _ _⟩

theorem Kept.size_le (h : a.Kept b) : a.scopes.size ≤ b.scopes.size := by
  rcases Nat.eq_zero_or_pos a.scopes.size with h0 | h0
  · omega
  · -- the last scope of the first arena is a scope of the second
    have hlast : a.scope? ((a.scopes.size - 1 : Nat) : Int) =
        some a.scopes[a.scopes.size - 1] := by
      rw [scope?_natCast, Array.getElem?_eq_getElem]
    obtain ⟨_, hn, _⟩ := h _ _ hlast
    have hlt := lt_size_of_scope? hn
    omega

/-- A name that is found with some bound is found with any larger one. -/
theorem Kept.lookupWithin (h : a.Kept b) {v : Value} :
    ∀ {bound bound' : Nat} {at? : Option ScopeId},
    bound ≤ bound' → a.lookupWithin name bound at? = .ok (some v) →
      ∃ w, b.lookupWithin name bound' at? = .ok (some w)
  | 0, _, none, _, hl | _ + 1, _, none, _, hl => by simp [Arena.lookupWithin] at hl
  | 0, _, some _, _, hl => by simp [Arena.lookupWithin] at hl
  | bound + 1, 0, some _, hle, _ => by omega
  | bound + 1, bound' + 1, some id, hle, hl => by
    rw [Arena.lookupWithin] at hl ⊢
    cases hs : a.scope? id with
    | none => rw [hs] at hl; cases hl
    | some scope =>
      rw [hs] at hl
      obtain ⟨new, hn, hk⟩ := h id scope hs
      rw [hn]
      dsimp only at hl ⊢
      cases hb : new.bindings.get? name with
      | some w => exact ⟨w, rfl⟩
      | none =>
        -- what the new scope does not bind, the old one did not
        have hold : scope.bindings.get? name = none := by
          rw [← Option.not_isSome_iff_eq_none]
          intro hsome
          have := hk.bound name hsome
          rw [hb] at this
          cases this
        rw [hold] at hl
        dsimp only at hl ⊢
        rw [hk.parent]
        exact Kept.lookupWithin h (by omega) hl

/-- **A name that resolves keeps resolving.** -/
theorem Kept.lookup (h : a.Kept b) {at? : Option ScopeId} {v : Value}
    (hl : a.lookup at? name = .ok (some v)) : ∃ w, b.lookup at? name = .ok (some w) :=
  h.lookupWithin (Nat.succ_le_succ h.size_le) hl

/-- **Permitted names stay permitted.** -/
theorem Kept.permitted (h : a.Kept b) {names : List String} (hp : a.permitted id = .ok names) :
    ∃ more, b.permitted id = .ok more ∧ names ⊆ more := by
  unfold Arena.permitted at hp ⊢
  cases hs : a.scope? id with
  | none => rw [hs] at hp; cases hp
  | some scope =>
    rw [hs] at hp
    cases hp
    obtain ⟨new, hn, hk⟩ := h id scope hs
    exact ⟨new.permitted, by rw [hn], hk.permitted⟩

end Arena

/-! ## 2. Ledgers that list no account twice -/

/-- A write keeps the accounts different. -/
theorem Ledger.nodup_setBalance {ledger ledger' : Ledger} {account : Account} {amount : Int}
    (h : ledger.setBalance account amount = .ok ledger') (hn : ledger.accounts.Nodup) :
    ledger'.accounts.Nodup := by
  obtain ⟨-, -, rfl⟩ := setBalance_eq_ok_iff.mp h
  exact Table.nodup_keys_put hn account amount

/-- A ledger that is built from pairs lists no account twice. -/
theorem Ledger.nodup_of_ofPairs {balances : Table String Int} {ledger : Ledger}
    (h : ofPairs balances = .ok ledger) : ledger.accounts.Nodup :=
  ofPairs_induction (P := fun ledger => ledger.accounts.Nodup) List.nodup_nil nodup_setBalance h

namespace Run

open Eval Relation

variable {setting : Setting} {me : Account} {s t u : State}

/-! ## 3. States that only add to others -/

/-- A later state of a run of the contract `me`, with all that was there: besides going onward,
no scope lost anything, and if no account came in twice, none does. -/
structure Retains (me : Account) (s t : State) : Prop extends Onward me s t where
  kept : s.arena.Kept t.arena
  distinct : s.ledger.accounts.Nodup → t.ledger.accounts.Nodup

theorem Retains.refl (me : Account) (s : State) : Retains me s s :=
  ⟨.refl me s, .refl _, id⟩

theorem Retains.trans (h : Retains me s t) (h' : Retains me t u) : Retains me s u :=
  ⟨h.toOnward.trans h'.toOnward, h.kept.trans h'.kept, h'.distinct ∘ h.distinct⟩

/-- A change of the arena that keeps it. -/
theorem retains_arena (me : Account) {arena : Arena} (h : s.arena.Kept arena) :
    Retains me s { s with arena } :=
  ⟨.arena me h.size_le, h, id⟩

/-- A transfer keeps the accounts different, at whichever end. -/
theorem Moved.distinct {amount : Int} {destination : Account}
    {r : EStateM.Result Fault State Unit} (hm : Moved setting amount destination s r)
    (hn : s.ledger.accounts.Nodup) : (stateOf r).ledger.accounts.Nodup :=
  (hm.keeps (P := (·.accounts.Nodup)) Ledger.nodup_setBalance hn).state

/-- A transfer retains the state, at whichever end. -/
theorem Moved.retains {amount : Int} {destination : Account}
    {r : EStateM.Result Fault State Unit} (hm : Moved setting amount destination s r)
    (hn : 0 ≤ amount) :
    Ends (fun _ t => Retains setting.me s t) (fun _ t => Retains setting.me s t) r := by
  have harena : ∀ {t : State}, t.arena = s.arena → s.arena.Kept t.arena := by
    intro t ht
    rw [ht]
    exact .refl _
  have honward := hm.onward hn
  have harenas := hm.arena
  have hdistinct := hm.distinct
  cases r with
  | ok a t => exact .value ⟨honward.of_ok rfl, harena (harenas.of_ok rfl), hdistinct⟩
  | error f t => exact .fault ⟨honward.of_error rfl, harena (harenas.of_error rfl), hdistinct⟩

/-- Every evaluation retains the state that it starts from. -/
def retaining (setting : Setting) : Discipline setting where
  Inv _ := True
  Home _ _ := True
  Good _ _ := True
  Step := Retains setting.me
  refl := .refl _
  trans := .trans
  home_mono _ h := h
  good_mono _ h := h
  plain _ := trivial
  found _ _ _ := trivial
  count {s} _ := ⟨trivial, .count _ s, .refl _, id⟩
  write {s} line _ := ⟨trivial, .write _ s line, .refl _, id⟩
  log {s} record _ := ⟨trivial, .log _ s record, .refl _, id⟩
  define _ _ _ hd := ⟨trivial, retains_arena _ (Arena.kept_define hd)⟩
  capture _ _ _ _ := ⟨trivial, retains_arena _ (Arena.kept_newScope _ _), trivial⟩
  enter _ _ _ := ⟨trivial, retains_arena _ (Arena.kept_newScope _ _), trivial⟩
  share _ _ _ := trivial
  transfer _ _ hn :=
    Ends.mono ((moved hn).retains hn) (fun _ _ h => ⟨trivial, h⟩) fun _ _ h => ⟨trivial, h⟩

theorem retaining_permits (setting : Setting) : (retaining setting).Permits :=
  fun _ _ _ _ _ _ hp => ⟨trivial, retains_arena _ (Arena.kept_permit hp)⟩

/-- **An evaluation retains the state that it starts from**, whatever it comes to. -/
theorem retains_evaluate (setting : Setting) (depth : Nat) (form : Node) (scope : ScopeId)
    (s : State) :
    Retains setting.me s (stateOf ((evaluate setting depth form scope).run s)) :=
  (Discipline.evaluate (D := retaining setting) (retaining_permits setting) trivial trivial
    depth form).state.2

/-! ## 4. From a form to the forms inside -/

/-- A discipline makes a step from a form to the first evaluation of any of its operands. -/
theorem Discipline.step_of_inTurn {D : Discipline setting} (hp : D.Permits) {depth : Nat}
    {scope : ScopeId} {accepted : Value → Prop} {forms : List Node} {held : List Value} {q : Point}
    (h : InTurn setting depth scope accepted forms s held q) (hi : D.Inv s)
    (hh : D.Home s scope) : D.Step s q.state := by
  induction h with
  | first => exact D.refl _
  | later he _ _ ih =>
    obtain ⟨hi', hs, -⟩ := (Discipline.evaluate hp hi hh _ _).of_ok he
    exact D.trans hs (ih hi' (D.home_mono hs hh))

/-- What an evaluation goes on to starts with all that was there. -/
theorem retains_of_next {p q : Point} (hn : Next setting p q) :
    Retains setting.me p.state q.state := by
  have permits := retaining_permits setting
  rcases hn with ⟨hs, _, hq⟩ | hb
  · have hcount := ((Discipline.keeps_countStep (D := retaining setting) trivial _).of_ok hs).2.1
    exact hcount.trans
      (Discipline.step_of_inTurn (D := retaining setting) permits hq trivial trivial)
  · exact Discipline.step_of_body (D := retaining setting) trivial trivial hb
      fun _ _ hi hh => Discipline.keepsAt permits hi hh

/-! ## 5. From the forms inside back to the form -/

variable {α β : Type} {depth : Nat} {scope : ScopeId} {accepted : Value → Prop}
  {forms operands : List Node} {held : List Value} {head : Node} {p q : Point}

/-- What comes after a computation retains what the computation left. -/
theorem retains_bind {m : Eval α} {k : α → Eval β}
    (hk : ∀ a t, m.run s = .ok a t → Retains me t (stateOf ((k a).run t))) :
    Retains me (stateOf (m.run s)) (stateOf ((m >>= k).run s)) := by
  rw [EStateM.run_bind]
  cases hm : m.run s with
  | ok a t => exact hk a t hm
  | error fault t => exact .refl _ _

/-- To take the value of a form is to evaluate it; a value that is accepted is taken as it is, and
nothing is lost over another one. -/
structure Takes (setting : Setting) (depth : Nat) (scope : ScopeId) (accepted : Value → Prop)
    (take : Node → Eval α) : Prop where
  of_ok {form : Node} {s t : State} {v : Value} :
    (evaluate setting depth form scope).run s = .ok v t → accepted v →
      ∃ a, (take form).run s = .ok a t
  retains (form : Node) (s : State) :
    Retains setting.me (stateOf ((evaluate setting depth form scope).run s))
      (stateOf ((take form).run s))

theorem takes_evaluate (setting : Setting) (depth : Nat) (scope : ScopeId)
    (accepted : Value → Prop) :
    Takes setting depth scope accepted (evaluate setting depth · scope) :=
  ⟨fun he _ => ⟨_, he⟩, fun _ _ => .refl _ _⟩

theorem takes_integerOperand (setting : Setting) (depth : Nat) (scope : ScopeId)
    (name : String) :
    Takes setting depth scope (fun v => ∃ n, v = .integer n)
      (integerOperand (evaluate setting depth) scope name) := by
  constructor
  · rintro form s t v he ⟨n, rfl⟩
    exact ⟨n, by rw [integerOperand, run_bind_ok he]; rfl⟩
  · intro form s
    refine retains_bind fun v t _ => ?_
    cases v with
    | integer n => exact .refl _ _
    | _ => exact (Discipline.keeps_failTelling (D := retaining setting) (Q := fun _ _ => True)
        trivial _ _).state.2

/-- A row of forms retains what there was before it. -/
theorem Takes.retains_mapM {take : Node → Eval α} (ht : Takes setting depth scope accepted take) :
    ∀ (forms : List Node) (s : State),
      Retains setting.me s (stateOf ((forms.mapM take).run s))
  | [], s => .refl _ s
  | form :: rest, s => by
    have hfirst := (retains_evaluate setting depth form scope s).trans (ht.retains form s)
    rw [List.mapM_cons]
    refine hfirst.trans (retains_bind fun _ t _ => ?_)
    exact (ht.retains_mapM rest t).trans (retains_bind fun _ _ _ => .refl _ _)

/-- What comes after the evaluation of one form of a row retains what this evaluation left, to the
end of the row. -/
theorem retains_row {take : Node → Eval α} (ht : Takes setting depth scope accepted take)
    (h : InTurn setting depth scope accepted forms s held q) :
    Retains setting.me (stateOf (q.outcome setting)) (stateOf ((forms.mapM take).run s)) := by
  induction h with
  | @first form rest s held =>
    rw [List.mapM_cons]
    refine (ht.retains form s).trans (retains_bind fun _ t _ => ?_)
    exact (ht.retains_mapM rest t).trans (retains_bind fun _ _ _ => .refl _ _)
  | later he hv _ ih =>
    obtain ⟨a, ha⟩ := ht.of_ok he hv
    rw [List.mapM_cons, run_bind_ok ha]
    exact ih.trans (retains_bind fun _ _ _ => .refl _ _)

/-- What a rule comes to that takes the values of some forms in a row and goes on with them,
retaining what they left. -/
inductive GoesOn (setting : Setting) (depth : Nat) (scope : ScopeId) (accepted : Value → Prop)
    (worked : List Node) (s : State) : EStateM.Result Fault State Value → Prop
  | intro {α : Type} {take : Node → Eval α} {k : List α → Eval Value}
    (ht : Takes setting depth scope accepted take)
    (hk : ∀ taken t, Retains setting.me t (stateOf ((k taken).run t))) :
    GoesOn setting depth scope accepted worked s ((worked.mapM take >>= k).run s)

theorem GoesOn.retains {r : EStateM.Result Fault State Value}
    (h : GoesOn setting depth scope accepted forms s r)
    (hq : InTurn setting depth scope accepted forms s held q) :
    Retains setting.me (stateOf (q.outcome setting)) (stateOf r) := by
  cases h with
  | intro ht hk => exact (retains_row ht hq).trans (retains_bind fun taken t _ => hk taken t)

/-- Whatever keeps the discipline retains the state. -/
theorem retains_of_keeps {r : EStateM.Result Fault State α} {Q : α → State → Prop}
    (h : (retaining setting).Keeps s Q r) : Retains setting.me s (stateOf r) := h.state.2

/-- What is done with a row of one. -/
def onOne (k : α → Eval Value) : List α → Eval Value
  | [a] => k a
  | _ => pure .nil

/-- What is done with a row of two. -/
def onTwo (k : α → α → Eval Value) : List α → Eval Value
  | [a, b] => k a b
  | _ => pure .nil

section

variable {take : Node → Eval α} {first second : Node} {name : String}

theorem goesOn_one {k : α → Eval Value} (ht : Takes setting depth scope accepted take)
    (hk : ∀ a t, Retains setting.me t (stateOf ((k a).run t))) :
    GoesOn setting depth scope accepted [first] s ((take first >>= k).run s) := by
  have h : take first >>= k = [first].mapM take >>= onOne k := by
    simp only [List.mapM_cons, List.mapM_nil, bind_assoc, pure_bind, onOne]
  rw [h]
  refine .intro ht fun taken t => ?_
  unfold onOne
  split
  · exact hk _ t
  · exact .refl _ _

theorem goesOn_two {k : α → α → Eval Value} (ht : Takes setting depth scope accepted take)
    (hk : ∀ a b t, Retains setting.me t (stateOf ((k a b).run t))) :
    GoesOn setting depth scope accepted [first, second] s
      ((take first >>= fun a => take second >>= k a).run s) := by
  have h : (take first >>= fun a => take second >>= k a) =
      [first, second].mapM take >>= onTwo k := by
    simp only [List.mapM_cons, List.mapM_nil, bind_assoc, pure_bind, onTwo]
  rw [h]
  refine .intro ht fun taken t => ?_
  unfold onTwo
  split
  · exact hk _ _ t
  · exact .refl _ _

theorem goesOn_transfer :
    GoesOn setting depth scope (fun _ => True) [first, second] s
      ((evalTransfer setting (evaluate setting depth) scope [first, second]).run s) := by
  refine goesOn_two (takes_evaluate setting depth scope _) (k := settle setting) fun v w t => ?_
  exact retains_of_keeps (Discipline.keeps_settle trivial v w)

theorem goesOn_define :
    GoesOn setting depth scope (fun _ => True) [first] s
      ((evalDefine (evaluate setting depth) scope [.ident name, first]).run s) := by
  refine goesOn_one (takes_evaluate setting depth scope _) fun v t => ?_
  refine retains_of_keeps (Q := fun _ _ => True)
    (Discipline.Keeps.bind (Discipline.keeps_define trivial trivial trivial name) ?_)
  exact fun _ _ _ hi _ _ => Discipline.keeps_pure hi trivial

theorem goesOn_println :
    GoesOn setting depth scope (fun _ => True) [first] s
      ((evalPrintln (evaluate setting depth) scope [first]).run s) := by
  refine goesOn_one (takes_evaluate setting depth scope _) fun v t => ?_
  refine retains_of_keeps (Q := fun _ _ => True)
    (Discipline.Keeps.bind (Discipline.keeps_ofHost trivial _) ?_)
  intro line u _ _ _ _
  refine Discipline.Keeps.bind (Discipline.keeps_writeLine trivial line) ?_
  exact fun _ _ _ hi _ _ => Discipline.keeps_pure hi trivial

theorem goesOn_integers {k : List Int → Eval Value} (hn : 2 ≤ operands.length)
    (hk : ∀ taken t, Retains setting.me t (stateOf ((k taken).run t))) :
    GoesOn setting depth scope (fun v => ∃ n, v = .integer n) operands s
      ((integerOperands (evaluate setting depth) scope name operands >>= k).run s) := by
  rw [integerOperands, if_neg (Nat.not_lt.mpr hn)]
  exact .intro (takes_integerOperand setting depth scope name) hk

theorem goesOn_integerPair {k : Int × Int → Eval Value}
    (hk : ∀ taken t, Retains setting.me t (stateOf ((k taken).run t))) :
    GoesOn setting depth scope (fun v => ∃ n, v = .integer n) [first, second] s
      ((integerPair (evaluate setting depth) scope name [first, second] >>= k).run s) := by
  simp only [integerPair, bind_assoc, pure_bind]
  exact goesOn_two (takes_integerOperand setting depth scope name) fun a b t => hk (a, b) t

end

/-- What a call does with its arguments. -/
theorem keeps_enterBody (name : String) (params : List String) (body : Node)
    (values : List Value) (callScope : ScopeId) :
    (retaining setting).Keeps s (fun _ _ => True)
      ((enterBody (evaluate setting depth) name params body values callScope).run s) := by
  unfold enterBody
  refine Discipline.Keeps.bind (Discipline.keeps_bindAll trivial trivial fun _ _ => trivial) ?_
  intro _ t _ _ _ _
  refine Discipline.Keeps.bind (Discipline.keeps_ofHost trivial _) ?_
  intro shown u _ _ _ _
  refine Discipline.Keeps.bind (Discipline.keeps_log trivial _) ?_
  intro _ w _ _ _ _
  exact Ends.mono (Discipline.evaluate (retaining_permits setting) trivial trivial depth body)
    (fun _ _ h => ⟨h.1, h.2.1, trivial⟩) fun _ _ h => h

theorem goesOn_call {name : String} {params : List String} {body : Node} {captured : ScopeId}
    (hm : setting.config.legacy = false)
    (hc : Callable s scope name operands.length params body captured) :
    GoesOn setting depth scope (fun _ => True) operands s
      ((callName setting (evaluate setting depth) scope name operands).run s) := by
  have h : evalArguments setting (evaluate setting depth) scope captured operands >>=
      (fun arguments => enterBody (evaluate setting depth) name params body arguments.1
        arguments.2) =
      operands.mapM (evaluate setting depth · scope) >>= fun values =>
        newScope (some captured) >>= fun callScope =>
          enterBody (evaluate setting depth) name params body values callScope := by
    rw [evalArguments, if_neg (by rw [hm]; exact Bool.false_ne_true)]
    simp only [bind_assoc, pure_bind]
  rw [run_callName_of_callable hc, h]
  refine .intro (takes_evaluate setting depth scope _) fun values t => ?_
  refine retains_of_keeps (Q := fun _ _ => True) (Discipline.Keeps.bind (Q := fun _ _ => True)
    (.value ⟨trivial, retains_arena _ (Arena.kept_newScope _ _), trivial⟩) ?_)
  intro callScope u _ _ _ _
  exact keeps_enterBody name params body values callScope

/-- Every rule that evaluates operands goes on from them. -/
theorem goesOn_of_works {worked : List Node}
    (hw : Works setting s scope head operands worked accepted) :
    GoesOn setting depth scope accepted worked s
      ((evalList setting (evaluate setting depth) scope head operands).run s) := by
  cases hw with
  | transfer hr =>
    rw [evalList_of_rule hr]
    exact goesOn_transfer
  | define hr =>
    rw [evalList_of_rule hr]
    exact goesOn_define
  | println hr =>
    rw [evalList_of_rule hr]
    exact goesOn_println
  | several hn hr =>
    rcases hr with hr | hr
    · rw [evalList_of_rule hr]
      exact goesOn_integers hn fun _ _ => .refl _ _
    · rw [evalList_of_rule hr]
      exact goesOn_integers hn fun _ _ => .refl _ _
  | pair hr =>
    rcases hr with hr | hr
    · rw [evalList_of_rule hr]
      exact goesOn_integerPair fun _ _ => .refl _ _
    · rw [evalList_of_rule hr]
      refine goesOn_integerPair fun ⟨a, b⟩ t => ?_
      dsimp only
      split
      · exact retains_of_keeps (Q := fun _ _ => True)
          (Discipline.Keeps.bind (Discipline.keeps_ofHost trivial _)
            fun _ _ _ hi _ _ => Discipline.keeps_fail_bind hi _ _)
      · exact .refl _ _
  | call hr hm hn hc =>
    rw [evalList_of_rule hr, evalRule, evalCall_of_name hn]
    exact goesOn_call hm hc

/-- **What comes after an operand** retains what the operand left, to the end of its form. -/
theorem retains_of_operand (ho : Operand setting p q) :
    Retains setting.me (stateOf (q.outcome setting)) (stateOf (p.outcome setting)) := by
  obtain ⟨hs, hw, hq⟩ := ho
  unfold Point.outcome
  rw [evaluate, run_bind_ok hs]
  exact (goesOn_of_works hw).retains hq

/-- What comes after an argument retains what the argument left, to the scope of the call. -/
theorem retains_evalArguments {captured callScope : ScopeId} {values : List Value}
    (hm : setting.config.legacy = false)
    (hq : InTurn setting depth scope accepted operands s held q)
    (ha : (evalArguments setting (evaluate setting depth) scope captured operands).run s =
      .ok (values, callScope) t) : Retains setting.me (stateOf (q.outcome setting)) t := by
  have hrow := retains_row (takes_evaluate setting depth scope _) hq
  have h : t = stateOf ((evalArguments setting (evaluate setting depth) scope captured
      operands).run s) := by rw [ha]; rfl
  rw [h, evalArguments, if_neg (by rw [hm]; exact Bool.false_ne_true)]
  exact hrow.trans (retains_bind fun values u _ => retains_arena _ (Arena.kept_newScope _ _))

/-- **What comes after an operand of a call** retains what the operand left, up to the body. -/
theorem retains_of_operand_body {o : Point} (ho : Operand setting p o) (hb : Body setting p q) :
    Retains setting.me (stateOf (o.outcome setting)) q.state := by
  cases ho with
  | @intro _ _ _ _ _ _ t _ _ _ hs hw ho =>
  cases hb with
  | @intro _ _ _ _ _ t' _ _ hs' hq =>
  have htt : t' = t := by
    rw [hs] at hs'
    cases hs'
    rfl
  subst htt
  cases hq with
  | @intro name params shown body captured values callScope u v h hn hc ha hb hv =>
  have hrest : Retains setting.me u
      { v with log := v.log ++ [.calling name shown callScope] } := by
    have hbind : Retains setting.me u v := ((Discipline.keeps_bindAll (D := retaining setting)
      trivial trivial fun _ _ => trivial).of_ok hb).2.1
    have hlog := retains_of_keeps (Discipline.keeps_log (D := retaining setting) (s := v) trivial
      (.calling name shown callScope))
    exact hbind.trans hlog
  cases hw with
  | call _ hm => exact (retains_evalArguments hm ho ha).trans hrest
  | transfer hr => rw [hr] at h; cases h
  | define hr => rw [hr] at h; cases h
  | println hr => rw [hr] at h; cases h
  | several _ hr => rcases hr with hr | hr <;> (rw [hr] at h; cases h)
  | pair hr => rcases hr with hr | hr <;> (rw [hr] at h; cases h)

/-! ## 6. The rest of a run -/

/-- What a moment of a run leads to directly: the evaluations that start and end there, and the
records that are written to the log between them. -/
inductive Leads (setting : Setting) : State → State → Prop
  /-- An evaluation starts inside another. -/
  | starts {p q : Point} (hn : Next setting p q) : Leads setting p.state q.state
  /-- An evaluation ends. -/
  | ends (p : Point) : Leads setting p.state (stateOf (p.outcome setting))
  /-- The evaluation around one that has ended ends. -/
  | returns {p q : Point} (hn : Next setting p q) :
    Leads setting (stateOf (q.outcome setting)) (stateOf (p.outcome setting))
  /-- The operands of a call have been evaluated, and the body is. -/
  | enters {p o q : Point} (ho : Operand setting p o) (hb : Body setting p q) :
    Leads setting (stateOf (o.outcome setting)) q.state
  /-- A record is written between two forms. -/
  | logged (s : State) (record : Record) :
    Leads setting s { s with log := s.log ++ [record] }

/-- One moment of a run comes before another. -/
def Later (setting : Setting) : State → State → Prop := ReflTransGen (Leads setting)

theorem Leads.retains (h : Leads setting s t) : Retains setting.me s t := by
  cases h with
  | starts hn => exact retains_of_next hn
  | ends p => exact retains_evaluate setting p.depth p.form p.scope p.state
  | @returns p q hn =>
    rcases hn with ho | hb
    · exact retains_of_operand ho
    · rw [outcome_of_body hb]
      exact .refl _ _
  | enters ho hb => exact retains_of_operand_body ho hb
  | logged s record =>
    exact retains_of_keeps (Discipline.keeps_log (D := retaining setting) trivial record)

/-- **The rest of a run retains** what there is at any moment of it. -/
theorem Later.retains (h : Later setting s t) : Retains setting.me s t := by
  induction h with
  | refl => exact .refl _ _
  | tail _ hl ih => exact ih.trans hl.retains

variable {start : State}

theorem Leads.of_outcome {r : EStateM.Result Fault State Value} (he : p.outcome setting = r) :
    Leads setting p.state (stateOf r) := he ▸ .ends p

theorem later_of_between (h : Between setting start s held) : Later setting start s := by
  induction h with
  | start => exact .refl
  | logged _ record ih => exact ih.tail (.logged _ record)
  | value _ he ih => exact ih.tail (.of_outcome he)
  | fault _ he ih => exact ih.tail (.of_outcome he)

theorem later_of_passes (h : Passes setting start q) : Later setting start q.state := by
  obtain ⟨form, s, held, hb, hv⟩ := h
  refine (later_of_between hb).trans ?_
  clear hb
  induction hv with
  | refl => exact .refl
  | tail _ hn ih => exact ih.tail (.starts hn)

/-- Every state that a run reaches comes after its start. -/
theorem later_of_reaches (h : Reaches setting start s held) : Later setting start s := by
  cases h with
  | before h => exact later_of_passes h
  | value h he => exact (later_of_passes h).tail (.of_outcome he)
  | fault h he => exact (later_of_passes h).tail (.of_outcome he)

/-- **Runs are append-only.**  Let a run start with a ledger that lists no account twice.  In every
state that it reaches, any evaluation, in whatever scope and whatever it comes to, leaves a state
that retains this one, with no account listed twice; and so do all later moments of the run.  So
what resolves from a scope keeps resolving from it, and a root that permits any names permits some
for the rest of the run. -/
theorem run_retains (setting : Setting) {ledger : Ledger} (hd : ledger.accounts.Nodup)
    (bindings : Table String Value) (listener : Bool) {s : State} {held : List Value}
    (hs : Reaches setting (.initial ledger bindings listener) s held) :
    (∀ depth form scope,
      Retains setting.me s (stateOf ((evaluate setting depth form scope).run s)) ∧
      (stateOf ((evaluate setting depth form scope).run s)).ledger.accounts.Nodup) ∧
    Later setting (.initial ledger bindings listener) s ∧
    ∀ t, Later setting s t → Retains setting.me s t ∧ t.ledger.accounts.Nodup ∧
      (∀ at? name v, s.arena.lookup at? name = .ok (some v) →
        ∃ w, t.arena.lookup at? name = .ok (some w)) ∧
      ∀ names, s.arena.permitted Arena.rootId = .ok names → names ≠ [] →
        ∃ more, t.arena.permitted Arena.rootId = .ok more ∧ more ≠ [] := by
  have hlater := later_of_reaches hs
  have hdistinct : s.ledger.accounts.Nodup := hlater.retains.distinct hd
  refine ⟨?_, hlater, ?_⟩
  · intro depth form scope
    have h := retains_evaluate setting depth form scope s
    exact ⟨h, h.distinct hdistinct⟩
  · intro t ht
    have h := ht.retains
    refine ⟨h, h.distinct hdistinct, fun _ _ _ hl => h.kept.lookup hl, ?_⟩
    intro names hp hne
    obtain ⟨more, hmore, hsub⟩ := h.kept.permitted hp
    refine ⟨more, hmore, ?_⟩
    rintro rfl
    exact hne (List.subset_nil.mp hsub)

/-- A contract under the legacy rules. -/
def heirloom : Setting := { bank with config := { bank.config with legacy := true } }

/-- A ledger with two accounts. -/
def twoAccounts : Ledger := { entries := [(⟨"bank"⟩, 5), (⟨"shop"⟩, 0)] }

/-- `(provide pay)`. -/
def provision : Node := .list [.ident "provide", .ident "pay"]

/-- The tenant's account, by name. -/
def tenancy : Table String Value := [("rent", .account ⟨"rent"⟩)]

/-- The state after the provision. -/
def afterProvision : State :=
  stateOf ((heirloom.point provision (.initial twoAccounts tenancy true) []).outcome heirloom)

/-- `($transfer 3 rent)`. -/
def rentTransfer : Node := .list [.operator "$transfer", .number 3, .ident "rent"]

/-- After the provision the root permits a name, and so it does after a transfer, which lists a new
account behind the others, and at every later moment. -/
theorem run_retains_provision :
    Reaches heirloom (.initial twoAccounts tenancy true) afterProvision [.nil] ∧
    afterProvision.arena.permitted Arena.rootId = .ok ["pay"] ∧
    (∀ t, Later heirloom afterProvision t → t.ledger.accounts.Nodup ∧
      ∃ more, t.arena.permitted Arena.rootId = .ok more ∧ more ≠ []) ∧
    let paid := stateOf ((evaluate heirloom 2 rentTransfer Arena.rootId).run afterProvision)
    Retains heirloom.me afterProvision paid ∧
      afterProvision.ledger.toPairs = [("bank", 5), ("shop", 0)] ∧
      paid.ledger.toPairs = [("bank", 2), ("shop", 0), ("rent", 3)] := by
  have hb : Between heirloom (.initial twoAccounts tenancy true) afterProvision [.nil] :=
    @Between.value _ _ _ _ _ provision _ .start rfl
  have hp : afterProvision.arena.permitted Arena.rootId = .ok ["pay"] := rfl
  have hofPairs : Ledger.ofPairs [("bank", 5), ("shop", 0)] = .ok twoAccounts := rfl
  obtain ⟨hevaluate, -, hlater⟩ :=
    run_retains heirloom (Ledger.nodup_of_ofPairs hofPairs) tenancy true hb.reaches
  refine ⟨hb.reaches, hp, ?_, (hevaluate _ _ _).1, ?_, ?_⟩
  · intro t ht
    obtain ⟨-, hd, -, hpermits⟩ := hlater t ht
    exact ⟨hd, hpermits _ hp (List.cons_ne_nil _ _)⟩
  · decide +kernel
  · decide +kernel

end Run

end LedgerScript
