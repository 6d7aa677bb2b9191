/-
# What a script cannot learn

A script reads one balance, its own contract's, and the bindings whose names are written in it.
Take two runs of a script that agree on these and on the locked accounts, and on nothing else that
is bound or stored.  Every transfer of either run reads and rewrites the balance of its
destination, but only to add to it, so the balances keep the differences they had
(`Ledger.ShiftedBy`); the roots keep binding the same values to the names of the script
(`Arena.AgreesOn`).  So the two runs have the same outcome and the same effect
(`run_noninterfering`).
-/
import LedgerScript.Proofs.Frame
import LedgerScript.Proofs.Simulation

namespace LedgerScript

variable {N : String → Prop}

/-! ## 1. Arenas that agree on some names -/

/-- Two scopes agree on some names: they bind them to the same values, in whose forms again no
other names occur. -/
structure Scope.AgreesOn (N : String → Prop) (x y : Scope) : Prop where
  parent : x.parent = y.parent
  permitted : x.permitted = y.permitted
  bindings : ∀ name, N name → x.bindings.get? name = y.bindings.get? name
  within : ∀ name v, N name → x.bindings.get? name = some v → v.Within N

namespace Arena

variable {a b : Arena} {id : Int} {name : String}

/-- Two arenas agree on some names in each of their scopes. -/
structure AgreesOn (N : String → Prop) (a b : Arena) : Prop where
  size : a.scopes.size = b.scopes.size
  scopes (id : Int) : Option.Rel (Scope.AgreesOn N) (a.scope? id) (b.scope? id)

/-- An operation is done in both of two arenas, which agree again, or refused in both. -/
inductive BothChange (N : String → Prop) :
    Except HostFault Arena → Except HostFault Arena → Prop
  | done {a b : Arena} (h : a.AgreesOn N b) : BothChange N (.ok a) (.ok b)
  | refused (fault : HostFault) : BothChange N (.error fault) (.error fault)

theorem AgreesOn.newScope (h : a.AgreesOn N b) (parent : Option ScopeId) :
    (a.newScope parent).2.AgreesOn N (b.newScope parent).2 := by
  refine ⟨by rw [size_newScope, size_newScope, h.size], fun id => ?_⟩
  rw [scope?_newScope, scope?_newScope, ← h.size]
  split
  · exact .some ⟨rfl, rfl, fun _ _ => rfl, fun _ _ _ hv => nomatch hv⟩
  · exact h.scopes id

theorem AgreesOn.modify (h : a.AgreesOn N b) {change : Scope → Scope}
    (hc : ∀ x y, x.AgreesOn N y → (change x).AgreesOn N (change y)) :
    BothChange N (a.modify id change) (b.modify id change) := by
  have hid := h.scopes id
  cases ha : a.modify id change with
  | error fault =>
    unfold Arena.modify at ha ⊢
    generalize a.scope? id = x, b.scope? id = y at ha hid ⊢
    cases hid with
    | none => cases ha; exact .refused _
    | some => cases ha
  | ok a' =>
    cases hb : b.modify id change with
    | error fault =>
      unfold Arena.modify at ha hb
      generalize a.scope? id = x, b.scope? id = y at ha hb hid
      cases hid with
      | none => cases ha
      | some => cases hb
    | ok b' =>
      refine .done ⟨by rw [size_modify ha, size_modify hb, h.size], fun other => ?_⟩
      rw [scope?_modify ha, scope?_modify hb]
      split
      · generalize a.scope? id = x, b.scope? id = y at hid ⊢
        cases hid with
        | none => exact .none
        | some hxy => exact .some (hc _ _ hxy)
      · exact h.scopes other

theorem AgreesOn.define (h : a.AgreesOn N b) (id : ScopeId) (name : String) {v : Value}
    (hv : v.Within N) : BothChange N (a.define id name v) (b.define id name v) := by
  refine h.modify fun x y hxy => ⟨hxy.parent, hxy.permitted, ?_, ?_⟩
  · intro key hkey
    rw [Table.get?_put, Table.get?_put, hxy.bindings key hkey]
  · intro key w hkey hw
    rw [Table.get?_put] at hw
    split at hw
    · cases hw; exact hv
    · exact hxy.within key w hkey hw

theorem AgreesOn.permit (h : a.AgreesOn N b) (id : ScopeId) (name : String) :
    BothChange N (a.permit id name) (b.permit id name) := by
  refine h.modify fun x y hxy => ?_
  rw [hxy.permitted]
  split
  · exact hxy
  · exact ⟨hxy.parent, rfl, hxy.bindings, hxy.within⟩

theorem AgreesOn.told (h : a.AgreesOn N b) : a.Told ↔ b.Told := by
  refine told_iff_of_parents fun id => ?_
  have hid := h.scopes id
  generalize a.scope? id = x, b.scope? id = y at hid ⊢
  cases hid with
  | none => rfl
  | some hxy => exact congrArg some hxy.parent

theorem AgreesOn.permitted (h : a.AgreesOn N b) (id : ScopeId) :
    a.permitted id = b.permitted id := by
  have hid := h.scopes id
  unfold Arena.permitted
  generalize a.scope? id = x, b.scope? id = y at hid ⊢
  cases hid with
  | none => rfl
  | some hxy =>
    dsimp only
    rw [hxy.permitted]

/-- A name is found in both arenas, with the same value, or in neither. -/
theorem AgreesOn.lookupWithin (h : a.AgreesOn N b) (hn : N name) : ∀ (bound : Nat)
    (at? : Option ScopeId), a.lookupWithin name bound at? = b.lookupWithin name bound at?
  | 0, none | 0, some _ | _ + 1, none => by simp only [Arena.lookupWithin]
  | bound + 1, some id => by
    have hid := h.scopes id
    rw [Arena.lookupWithin, Arena.lookupWithin]
    generalize a.scope? id = x, b.scope? id = y at hid ⊢
    cases hid with
    | none => rfl
    | some hxy =>
      dsimp only
      rw [hxy.bindings name hn, hxy.parent, h.lookupWithin hn bound]

theorem AgreesOn.lookup (h : a.AgreesOn N b) (hn : N name) (at? : Option ScopeId) :
    a.lookup at? name = b.lookup at? name := by
  unfold Arena.lookup
  rw [h.size, h.lookupWithin hn]

theorem AgreesOn.within_of_lookup (h : a.AgreesOn N b) (hn : N name) {at? : Option ScopeId}
    {v : Value} (hl : a.lookup at? name = .ok (some v)) : v.Within N := by
  obtain ⟨id, scope, hs, hv⟩ := binds_of_lookup hl
  have hid := h.scopes id
  rw [hs] at hid
  generalize b.scope? id = y at hid
  cases hid with
  | some hxy => exact hxy.within name v hn hv

end Arena

/-! ## 2. Ledgers that differ by a shift -/

namespace Ledger

variable {shift : Account → Int} {a b : Ledger} {account : Account} {x y : Int}

/-- Two solvent ledgers lock the same accounts, and each balance of the second is that of the
first and a shift. -/
structure ShiftedBy (shift : Account → Int) (a b : Ledger) : Prop where
  locked : a.locked = b.locked
  left : a.Solvent
  right : b.Solvent
  balance (account : Account) : b.balance account = a.balance account + shift account

/-- A write is done in both ledgers, which keep their shift, or refused in both. -/
inductive BothWrite (shift : Account → Int) :
    Except HostFault Ledger → Except HostFault Ledger → Prop
  | done {a b : Ledger} (h : a.ShiftedBy shift b) : BothWrite shift (.ok a) (.ok b)
  | refused (fault : HostFault) : BothWrite shift (.error fault) (.error fault)

theorem ShiftedBy.setBalance (h : a.ShiftedBy shift b) (hx : 0 ≤ x) (hy : 0 ≤ y)
    (hxy : y = x + shift account) :
    BothWrite shift (a.setBalance account x) (b.setBalance account y) := by
  by_cases hl : account ∈ a.locked
  · unfold Ledger.setBalance
    rw [if_pos hl, if_pos (h.locked ▸ hl)]
    exact .refused _
  · have ha := setBalance_eq_ok_iff.mpr ⟨hl, hx, rfl⟩
    have hb := setBalance_eq_ok_iff.mpr ⟨(h.locked ▸ hl : account ∉ b.locked), hy, rfl⟩
    rw [ha, hb]
    refine .done ⟨h.locked, h.left.setBalance ha, h.right.setBalance hb, fun other => ?_⟩
    rw [balance_of_setBalance ha, balance_of_setBalance hb]
    split
    · next heq => rw [← heq, hxy]
    · exact h.balance other

/-- How much more an account has in the second of two ledgers. -/
def gap (a b : Ledger) (account : Account) : Int := b.balance account - a.balance account

theorem shiftedBy_gap (ha : a.Solvent) (hb : b.Solvent) (locked : List Account) :
    (a.lock locked).ShiftedBy (gap a b) (b.lock locked) := by
  refine ⟨rfl, ha.lock locked, hb.lock locked, fun account => ?_⟩
  show b.balance account = a.balance account + (b.balance account - a.balance account)
  omega

/-- Ledgers that are still shifted by their gap have changed by the same. -/
theorem ShiftedBy.change {a' b' : Ledger} (h : a'.ShiftedBy (gap a b) b') (account : Account) :
    a'.balance account - a.balance account = b'.balance account - b.balance account := by
  have h := h.balance account
  unfold gap at h
  omega

end Ledger

namespace Run

open Eval

/-! ## 3. Two runs of one script -/

section Blind

variable {setting : Setting} {shift : Account → Int}

/-- What two runs have in common that agree on some names and on all that is written and counted,
and whose ledgers differ by a shift. -/
structure Blind (N : String → Prop) (shift : Account → Int) (s t : State) : Prop where
  arena : s.arena.AgreesOn N t.arena
  ledger : s.ledger.ShiftedBy shift t.ledger
  output : s.output = t.output
  sink : s.sink = t.sink
  steps : s.steps = t.steps

/-- Two computations end alike for runs that agree so. -/
abbrev Blinded (N : String → Prop) (shift : Account → Int) {α : Type} (Q : α → Prop)
    (m n : Eval α) : Prop := Simulates (Blind N shift) (fun _ => False) Q m n

theorem blinded_changeArena {change : Arena → Except HostFault Arena}
    (hc : ∀ a b, a.AgreesOn N b → Arena.BothChange N (change a) (change b)) :
    Blinded N shift (fun _ => True) (changeArena change) (changeArena change) := by
  intro s t h
  have hboth := hc _ _ h.arena
  rw [run_changeArena, run_changeArena]
  generalize change s.arena = x, change t.arena = y at hboth ⊢
  cases hboth with
  | done hab => exact .value ⟨hab, h.ledger, h.output, h.sink, h.steps⟩ trivial
  | refused fault => exact .fault h

theorem blinded_log (record record' : Record) :
    Blinded N shift (fun _ => True) (Eval.log record) (Eval.log record') := by
  intro s t h
  rw [run_log, run_log]
  exact .value ⟨h.arena, h.ledger, h.output, h.sink, h.steps⟩ trivial

theorem blinded_countStep (limit : Option Int) :
    Blinded N shift (fun _ => True) (countStep limit) (countStep limit) := by
  intro s t h
  have h' : Blind N shift { s with steps := s.steps + 1 } { t with steps := t.steps + 1 } :=
    ⟨h.arena, h.ledger, h.output, h.sink, congrArg (· + 1) h.steps⟩
  rw [run_countStep, run_countStep]
  cases limit with
  | none => exact .value h' trivial
  | some most =>
    dsimp only
    rw [← h.steps]
    rw [← h.steps] at h'
    split
    · exact .fault h'
    · exact .value h' trivial

theorem blinded_writeLine (line : String) :
    Blinded N shift (fun _ => True) (writeLine line) (writeLine line) := by
  intro s t h
  rw [run_writeLine, run_writeLine]
  refine .value ⟨h.arena, h.ledger, ?_, ?_, h.steps⟩ trivial
  · exact congrArg (· ++ [line]) h.output
  · exact congrArg (Option.map (· ++ [line])) h.sink

theorem blinded_newScope (parent : ScopeId) :
    Blinded N shift (fun _ => True) (newScope (some parent)) (newScope (some parent)) := by
  intro s t h
  rw [run_newScope, run_newScope]
  have hid : (s.arena.newScope (some parent)).1 = (t.arena.newScope (some parent)).1 :=
    congrArg Int.ofNat h.arena.size
  rw [hid]
  exact .value ⟨h.arena.newScope _, h.ledger, h.output, h.sink, h.steps⟩ trivial

theorem blinded_permitted (scope : ScopeId) :
    Blinded N shift (fun _ => True) (permitted scope) (permitted scope) := by
  intro s t h
  rw [run_permitted, run_permitted, h.arena.permitted]
  exact simulates_host _ s t h

theorem blinded_lookup (scope : ScopeId) {name : String} (hn : N name) :
    Blinded N shift (fun found => ∀ v, found = some v → v.Within N)
      (lookup? (some scope) name) (lookup? (some scope) name) := by
  intro s t h
  rw [run_lookup?, run_lookup?, ← h.arena.lookup hn]
  refine simulates_ofHost ?_ s t h
  rintro _ hl v rfl
  exact h.arena.within_of_lookup hn hl

/-! ## 4. Transfers -/

/-- The balance that the runs agree on. -/
theorem blinded_balance (hme : shift setting.me = 0) :
    Blinded N shift (fun held => 0 ≤ held) (balance setting.me) (balance setting.me) := by
  intro s t h
  rw [run_balance, run_balance, h.ledger.balance, hme, Int.add_zero]
  exact .value h (h.ledger.left.balance_nonneg _)

/-- A write that is done in both runs or refused in both changes nothing else. -/
theorem alike_setBalance {s t : State} (h : Blind N shift s t) {account : Account} {x y : Int}
    (hboth : Ledger.BothWrite shift (s.ledger.setBalance account x)
      (t.ledger.setBalance account y)) :
    Alike (Blind N shift) (fun _ => False) (fun _ => True)
      ((setBalance account x).run s) ((setBalance account y).run t) := by
  rw [run_setBalance, run_setBalance]
  generalize s.ledger.setBalance account x = u, t.ledger.setBalance account y = v at hboth ⊢
  cases hboth with
  | done hab => exact .value ⟨h.arena, hab, h.output, h.sink, h.steps⟩ trivial
  | refused fault => exact .fault h

theorem blinded_setBalance (hme : shift setting.me = 0) {amount : Int} (hn : 0 ≤ amount) :
    Blinded N shift (fun _ => True)
      (setBalance setting.me amount) (setBalance setting.me amount) := by
  intro s t h
  exact alike_setBalance h (h.ledger.setBalance hn hn (by rw [hme, Int.add_zero]))

/-- A credit adds to a balance, whatever the balance is. -/
theorem blinded_credit {amount : Int} (hn : 0 ≤ amount) (destination : Account) :
    Blinded N shift (fun _ => True)
      (do setBalance destination ((← balance destination) + amount))
      (do setBalance destination ((← balance destination) + amount)) := by
  intro s t h
  have hx := h.ledger.left.balance_nonneg destination
  have hy := h.ledger.right.balance_nonneg destination
  have hshift := h.ledger.balance destination
  have hsum : t.ledger.balance destination + amount =
      s.ledger.balance destination + amount + shift destination := by omega
  rw [run_bind_ok (run_balance destination s), run_bind_ok (run_balance destination t)]
  exact alike_setBalance h (h.ledger.setBalance (by omega) (by omega) hsum)

theorem blinded_moveFunds (hme : shift setting.me = 0) {amount : Int} (hn : 0 ≤ amount)
    (destination : Account) :
    Blinded N shift (fun _ => True)
      (moveFunds setting amount destination) (moveFunds setting amount destination) := by
  unfold moveFunds
  refine (blinded_balance hme).bind fun held hheld => ?_
  refine simulates_ite (fun _ => ?_) fun hle => ?_
  · refine (simulates_host _).bind fun _ _ => ?_
    refine (simulates_host _).bind fun _ _ => ?_
    exact simulates_throw _
  refine (blinded_setBalance hme (by omega)).bind fun _ _ => ?_
  refine Simulates.bind (Q := fun _ => True) ?_ fun _ _ => ?_
  · refine (blinded_credit hn destination).tryCatch fun fault => ?_
    exact (blinded_setBalance hme hheld).bind fun _ _ => simulates_throw fault
  · unfold logTransfer
    refine simulates_ite (fun _ => ?_) fun _ => blinded_log _ _
    refine Simulates.bind (Q := fun _ => True) ?_ fun _ _ => blinded_log _ _
    cases Text.writeInteger amount with
    | ok shown => exact simulates_pure trivial
    | error fault => exact simulates_throw _

/-! ## 5. Scripts -/

/-- Runs that differ in what the script cannot learn. -/
def blindly (N : String → Prop) (hme : shift setting.me = 0) : Coupling setting setting where
  Rel := Blind N shift
  Name := N
  Cut _ := False
  me := rfl
  legacy := rfl
  count := blinded_countStep _
  write := blinded_writeLine
  log record := blinded_log record record
  newScope := blinded_newScope
  define scope name _ hv := blinded_changeArena fun _ _ h => h.define scope name hv
  permit scope name := blinded_changeArena fun _ _ h => h.permit scope name
  permitted := blinded_permitted
  lookup scope _ hn := blinded_lookup scope hn
  balance := (blinded_balance hme).mono fun _ _ => trivial
  transfer hn destination := blinded_moveFunds hme hn destination

theorem blinded_execute (hme : shift setting.me = 0) {forms : List Node}
    (hw : ∀ form ∈ forms, form.Within N) :
    Blinded N shift (fun _ => True) (execute setting forms) (execute setting forms) := by
  -- the snapshots that are logged need not be the same
  have hscopes : Blinded N shift (fun _ => True) logScopes logScopes :=
    simulates_logScopes blinded_log fun _ _ h => h.arena.told
  have hforms := Coupling.execute (C := blindly N hme) (fun _ hcut => hcut) hscopes hw
  exact hforms.mono fun _ _ => trivial

/-- A name occurs in a script as an identifier or a symbol. -/
def Mentions (script name : String) : Prop :=
  ∃ tokens, Token.ofText script = .ok tokens ∧
    ∃ token ∈ tokens, token.Naming ∧ token.text = name

theorem blinded_readScript (script : String) :
    Blinded N shift (fun forms => ∀ form ∈ forms, form.Within (Mentions script))
      (readScript script) (readScript script) := by
  unfold readScript
  refine (simulates_ofHost (Q := fun tokens => Token.ofText script = .ok tokens)
    fun _ h => h).bind fun tokens htokens => ?_
  split
  · exact simulates_fail _
  · next forms hforms =>
    refine (blinded_log _ _).bind fun _ _ => simulates_pure ?_
    refine Node.within_ofTokens (fun token hmem hn => ?_) hforms
    exact ⟨tokens, htokens, token, hmem, hn, rfl⟩

theorem blinded_runScript (hme : shift setting.me = 0) (script : String) :
    Blinded (Mentions script) shift (fun _ => True)
      (runScript setting script) (runScript setting script) := by
  exact (blinded_readScript script).bind fun forms hforms => blinded_execute hme hforms

/-- Two runs from such ledgers and bindings start alike. -/
theorem blind_initial {ledger ledger' : Ledger} (hl : ledger.ShiftedBy shift ledger')
    {bindings bindings' : Table String Value} (hf : ClosureFree bindings)
    (hb : ∀ name, N name →
      (Table.ofPairs bindings).get? name = (Table.ofPairs bindings').get? name)
    (listener : Bool) :
    Blind N shift (.initial ledger bindings listener) (.initial ledger' bindings' listener) := by
  refine ⟨⟨rfl, fun id => ?_⟩, hl, rfl, rfl, rfl⟩
  rw [scope?_initial, scope?_initial]
  split
  · refine .some ⟨rfl, rfl, hb, fun name v _ hv => ?_⟩
    rcases get?_ofPairs_mem bindings [] hv with hv | hv
    · cases hv
    · have hplain : v.capture? = none := hf _ hv
      cases v with
      | closure => cases hplain
      | _ => trivial
  · exact .none

end Blind

/-- **Noninterference.**  Let two runs of a script, as the same contract and with the same
accounts locked, start from ledgers that agree on the balance of the contract and from bindings
without closures that agree on every name that the script mentions.  Then they come to the same
values or the same fault, write the same lines, count the same steps, and change the balance of
every account by the same. -/
theorem run_noninterfering (setting : Setting) (script : String)
    {balances balances' : Table String Int} {ledger ledger' : Ledger}
    (h : Ledger.ofPairs balances = .ok ledger) (h' : Ledger.ofPairs balances' = .ok ledger')
    (hme : ledger.balance setting.me = ledger'.balance setting.me) (locked : List Account)
    {bindings bindings' : Table String Value} (hf : ClosureFree bindings)
    (hb : ∀ name, Mentions script name →
      (Table.ofPairs bindings).get? name = (Table.ofPairs bindings').get? name)
    (listener : Bool) :
    let r := run setting script (ledger.lock locked) bindings listener
    let r' := run setting script (ledger'.lock locked) bindings' listener
    answerOf r = answerOf r' ∧ (stateOf r).output = (stateOf r').output ∧
      (stateOf r).sink = (stateOf r').sink ∧ (stateOf r).steps = (stateOf r').steps ∧
      ∀ account, (stateOf r).ledger.balance account - ledger.balance account =
        (stateOf r').ledger.balance account - ledger'.balance account := by
  intro r r'
  have hl := Ledger.shiftedBy_gap (Ledger.solvent_of_ofPairs h) (Ledger.solvent_of_ofPairs h')
    locked
  have hgap : Ledger.gap ledger ledger' setting.me = 0 := by
    unfold Ledger.gap
    omega
  have halike : Alike (Blind (Mentions script) (Ledger.gap ledger ledger')) (fun _ => False)
      (fun _ => True) r r' :=
    blinded_runScript hgap script _ _ (blind_initial hl hf hb listener)
  generalize r = x, r' = y at halike
  cases halike with
  | value hst => exact ⟨rfl, hst.output, hst.sink, hst.steps, hst.ledger.change⟩
  | fault hst => exact ⟨rfl, hst.output, hst.sink, hst.steps, hst.ledger.change⟩
  | cut hcut => exact hcut.elim

/-- Its script. -/
def purchase : String := "($transfer 2 shop) ($balance $me)"

/-- A ledger with little in the shop. -/
def smallLedger : Ledger := { entries := [(⟨"bank"⟩, 5), (⟨"shop"⟩, 1)] }

/-- Another, with more in the shop and in an account besides. -/
def largeLedger : Ledger := { entries := [(⟨"shop"⟩, 90), (⟨"bank"⟩, 5), (⟨"safe"⟩, 7)] }

/-- The purchase comes to the same and moves the same on both ledgers, also if a name is bound on
the second that the script does not mention. -/
theorem run_noninterfering_purchase :
    let r := run bank purchase (smallLedger.lock [⟨"safe"⟩]) [("shop", .account ⟨"shop"⟩)] false
    let r' := run bank purchase (largeLedger.lock [⟨"safe"⟩])
      [("safe", .account ⟨"safe"⟩), ("shop", .account ⟨"shop"⟩)] false
    (stateOf r).ledger.balance ⟨"shop"⟩ = 3 ∧ answerOf r = answerOf r' ∧
      (stateOf r).output = (stateOf r').output ∧ (stateOf r).sink = (stateOf r').sink ∧
      (stateOf r).steps = (stateOf r').steps ∧
      ∀ account, (stateOf r).ledger.balance account - smallLedger.balance account =
        (stateOf r').ledger.balance account - largeLedger.balance account := by
  have hf : ClosureFree [("shop", .account ⟨"shop"⟩)] := by
    intro binding hmem
    rw [List.mem_singleton.mp hmem]
    rfl
  have h : Ledger.ofPairs [("bank", 5), ("shop", 1)] = .ok smallLedger := rfl
  have h' : Ledger.ofPairs [("shop", 90), ("bank", 5), ("safe", 7)] = .ok largeLedger := rfl
  refine ⟨by decide +kernel, run_noninterfering bank purchase h h' rfl [⟨"safe"⟩] hf ?_ false⟩
  rintro _ ⟨tokens, ht, token, hmem, -, rfl⟩
  have htokens : (Token.ofText purchase).toOption = some
      [.openParen, .symbol "$transfer", .number "2" 2, .identifier "shop", .closeParen,
        .openParen, .symbol "$balance", .symbol "$me", .closeParen] := by decide +kernel
  rw [ht] at htokens
  cases htokens
  simp only [List.mem_cons, List.not_mem_nil, or_false] at hmem
  rcases hmem with rfl | rfl | rfl | rfl | rfl | rfl | rfl | rfl | rfl <;> rfl

end Run

end LedgerScript
