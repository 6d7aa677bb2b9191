/-
# Runs that a limit cuts short

A limit of a run is looked at only where something is counted, and all it can do there is to end
the run.  So the run under a limit and the run without it are the same, up to the place where the
limit ends the first; and the second goes on from there, to a state that is only further on
(`Curtailed`).

Liftings compose this from the operations.  `run_truncated` reads off what the step limit does:
a run that stays within its limit is the run under every limit that is large enough, and a smaller
limit ends it with the step that goes over it.
-/
import LedgerScript.Proofs.Lifting
import LedgerScript.Proofs.Numerals
import LedgerScript.Proofs.Progress

namespace LedgerScript.Run

open Eval

variable {α β : Type} {me : Account} {Fit : Nat → Prop} {Cut : Fault → State → Prop}
variable {Q : α → Prop} {Q' : β → Prop} {m n : Eval α}

/-! ## 1. Cutting short -/

/-- The end of a run under a limit, beside the end of the run without it: the same, with a count of
steps that fits the limit, or a fault that cuts the run short where the other goes on. -/
inductive Curtailed (me : Account) (Fit : Nat → Prop) (Cut : Fault → State → Prop) :
    EStateM.Result Fault State α → EStateM.Result Fault State α → Prop
  | whole {r : EStateM.Result Fault State α} (h : Fit (stateOf r).steps) :
    Curtailed me Fit Cut r r
  | cut {f : Fault} {s : State} {r : EStateM.Result Fault State α} (h : Cut f s)
    (ho : Onward me s (stateOf r)) : Curtailed me Fit Cut (.error f s) r

/-- The first computation is the second under a limit. -/
structure Curtails (me : Account) (Fit : Nat → Prop) (Cut : Fault → State → Prop)
    (Q : α → Prop) (m n : Eval α) : Prop where
  onward (s : State) :
    Ends (fun a t => Onward me s t ∧ Q a) (fun _ t => Onward me s t) (n.run s)
  curtailed (s : State) : Fit s.steps → Curtailed me Fit Cut (m.run s) (n.run s)

/-- A computation that goes onward and counts no step. -/
def Uncounted (me : Account) (Q : α → Prop) (m : Eval α) : Prop :=
  ∀ s, Ends (fun a t => (Onward me s t ∧ t.steps = s.steps) ∧ Q a)
    (fun _ t => Onward me s t ∧ t.steps = s.steps) (m.run s)

/-- What counts no step is not cut short. -/
theorem Uncounted.curtails (h : Uncounted me Q m) : Curtails me Fit Cut Q m m where
  onward s := Ends.mono (h s) (fun _ _ h => ⟨h.1.1, h.2⟩) fun _ _ h => h.1
  curtailed s hs := by
    have hsteps : (stateOf (m.run s)).steps = s.steps :=
      Ends.state (P := fun t => t.steps = s.steps)
        (Ends.mono (h s) (fun _ _ h => h.1.2) fun _ _ h => h.2)
    exact .whole (hsteps ▸ hs)

theorem uncounted_pure {a : α} (ha : Q a) : Uncounted me Q (pure a) :=
  fun s => .value ⟨⟨.refl me s, rfl⟩, ha⟩

theorem uncounted_throw (fault : Fault) : Uncounted me Q (throw fault : Eval α) :=
  fun s => .fault ⟨.refl me s, rfl⟩

theorem uncounted_ofHost (x : Except HostFault α) :
    Uncounted me (fun _ => True) (ofHost x) := by
  cases x with
  | ok a => exact uncounted_pure trivial
  | error fault => exact uncounted_throw _

/-- Where the first computation was cut short, what the second does after that is further on. -/
theorem Curtails.bind {f g : α → Eval β} (h : Curtails me Fit Cut Q m n)
    (hf : ∀ a, Q a → Curtails me Fit Cut Q' (f a) (g a)) :
    Curtails me Fit Cut Q' (m >>= f) (n >>= g) where
  onward s := by
    refine Ends.bind (h.onward s) ?_ fun _ _ h => h
    rintro a t - ⟨ho, ha⟩
    exact Ends.mono ((hf a ha).onward t) (fun _ _ h => ⟨ho.trans h.1, h.2⟩) fun _ _ h => ho.trans h
  curtailed s hs := by
    have hm := h.curtailed s hs
    have hn := h.onward s
    rw [EStateM.run_bind, EStateM.run_bind]
    generalize m.run s = r, n.run s = r' at hm hn ⊢
    cases hm with
    | whole hw =>
      cases hn with
      | value hn => exact (hf _ hn.2).curtailed _ hw
      | fault => exact .whole hw
    | cut hc ho =>
      refine .cut hc (ho.trans ?_)
      cases hn with
      | value hn =>
        exact Ends.state (Ends.mono ((hf _ hn.2).onward _) (fun _ _ h => h.1) fun _ _ h => h)
      | fault => exact .refl _ _

/-- Cutting short as a lifting. -/
def curtailment (me : Account) (Fit : Nat → Prop) (Cut : Fault → State → Prop) : Lifting where
  Lifts := Curtails me Fit Cut
  value ha := (uncounted_pure ha).curtails
  fault fault := (uncounted_throw fault).curtails
  after := Curtails.bind

/-- A fault as it is reported: the depth fault as the script error that tells it. -/
def Fault.reported : Fault → Fault
  | .tooDeep => .script .depthLimit
  | fault => fault

/-- A cut is reported as the fault that it ends with is. -/
theorem Curtails.reportDepth {Cut' : Fault → State → Prop} (h : Curtails me Fit Cut Q m n)
    (hcut : ∀ fault s, Cut fault s → Cut' fault.reported s) :
    Curtails me Fit Cut' Q (reportDepth m) (reportDepth n) where
  onward s := (h.onward s).reportDepth
  curtailed s hs := by
    have hm := h.curtailed s hs
    have hreport := stateOf_reportDepth n s
    rw [run_reportDepth] at hreport
    rw [run_reportDepth, run_reportDepth]
    generalize m.run s = r, n.run s = r' at hm hreport ⊢
    cases hm with
    | whole hw =>
      refine .whole ?_
      cases r with
      | ok a t => exact hw
      | error fault t => cases fault <;> exact hw
    | @cut fault t _ hc ho =>
      cases fault <;> exact .cut (hcut _ _ hc) (hreport ▸ ho)

/-! ## 2. The operations -/

theorem uncounted_writeLine (line : String) :
    Uncounted me (fun _ => True) (writeLine line) :=
  fun s => .value ⟨⟨.write me s line, rfl⟩, trivial⟩

theorem uncounted_log (record : Record) : Uncounted me (fun _ => True) (Eval.log record) :=
  fun s => .value ⟨⟨.log me s record, rfl⟩, trivial⟩

theorem uncounted_get : Uncounted me (fun _ => True) (get : Eval State) :=
  fun s => .value ⟨⟨.refl me s, rfl⟩, trivial⟩

theorem uncounted_newScope (parent : Option ScopeId) :
    Uncounted me (fun _ => True) (newScope parent) := by
  intro s
  rw [run_newScope]
  refine .value ⟨⟨.arena me ?_, rfl⟩, trivial⟩
  rw [Arena.size_newScope]
  exact Nat.le_succ _

/-- What changes a scope counts no step. -/
theorem uncounted_changeArena {change : Arena → Except HostFault Arena}
    (h : ∀ a b, change a = .ok b → b.scopes.size = a.scopes.size) :
    Uncounted me (fun _ => True) (changeArena change) := by
  intro s
  rw [run_changeArena]
  cases hc : change s.arena with
  | error fault => exact .fault ⟨.refl me s, rfl⟩
  | ok arena => exact .value ⟨⟨.arena me (Nat.le_of_eq (h _ _ hc).symm), rfl⟩, trivial⟩

theorem uncounted_lookup? (scope : Option ScopeId) (name : String) :
    Uncounted me (fun _ => True) (lookup? scope name) :=
  fun s => uncounted_ofHost _ s

theorem uncounted_permitted (scope : ScopeId) :
    Uncounted me (fun _ => True) (permitted scope) :=
  fun s => uncounted_ofHost _ s

theorem uncounted_balance (account : Account) :
    Uncounted me (fun _ => True) (balance account) :=
  fun s => .value ⟨⟨.refl me s, rfl⟩, trivial⟩

theorem uncounted_moveFunds (setting : Setting) {amount : Int} (hn : 0 ≤ amount)
    (destination : Account) :
    Uncounted setting.me (fun _ => True) (moveFunds setting amount destination) := by
  intro s
  have hm : Moved setting amount destination s _ := moved hn
  have ho := hm.onward hn
  generalize (moveFunds setting amount destination).run s = r at hm ho
  cases hm with
  | refused => exact .fault ⟨.refl _ _, rfl⟩
  | restored => exact .fault ⟨ho.of_error rfl, rfl⟩
  | done => exact .value ⟨⟨ho.of_ok rfl, rfl⟩, trivial⟩
  | untold => exact .fault ⟨ho.of_error rfl, rfl⟩

/-! ## 3. Evaluations and runs -/

section Runs

variable {setting : Setting} {c c' : Config}

/-- Two configurations of a run as a pairing, if one counts steps as the other does under a
limit. -/
def curtailing (setting : Setting) (hl : c.legacy = c'.legacy)
    (hcount : Curtails setting.me Fit Cut (fun _ => True)
      (countStep c.maxSteps) (countStep c'.maxSteps)) :
    Pairing { setting with config := c } { setting with config := c' } :=
  { curtailment setting.me Fit Cut with
    Name := fun _ => True
    me := rfl
    legacy := hl
    count := hcount
    write := fun line => (uncounted_writeLine line).curtails
    log := fun record _ => (uncounted_log record).curtails
    newScope := fun parent => (uncounted_newScope parent).curtails
    define := fun _ _ _ _ => (uncounted_changeArena fun _ _ h => Arena.size_modify h).curtails
    permit := fun _ _ => (uncounted_changeArena fun _ _ h => Arena.size_modify h).curtails
    permitted := fun scope => (uncounted_permitted scope).curtails
    lookup := fun scope name _ =>
      Lifting.Lifts.mono (L := curtailment setting.me Fit Cut)
        (uncounted_lookup? scope name).curtails fun _ _ v _ => v.within_true
    balance := (uncounted_balance _).curtails
    transfer := fun hn destination => (uncounted_moveFunds _ hn destination).curtails }

/-- Traced alike, a form is executed with the same records around its evaluation. -/
theorem curtails_executeForm (ht : c.trace = c'.trace) {form : Node}
    (hvalue : Curtails setting.me Fit Cut (fun _ => True)
      (reportDepth (evaluate { setting with config := c } c.maxDepth form Arena.rootId))
      (reportDepth
        (evaluate { setting with config := c' } c'.maxDepth form Arena.rootId))) :
    Curtails setting.me Fit Cut (fun _ => True)
      (executeForm { setting with config := c } form)
      (executeForm { setting with config := c' } form) := by
  let L := curtailment setting.me Fit Cut
  have hlog (record : Record) : L.Lifts (fun _ => True) (Eval.log record) (Eval.log record) :=
    (uncounted_log record).curtails
  unfold executeForm
  simp only [ht]
  refine L.when (fun _ => (L.host _).bind fun record _ => hlog record) ?_
  refine Lifting.Lifts.bind (L := L) hvalue fun v _ => ?_
  refine (L.host _).bind fun shown _ => ?_
  refine (hlog _).bind fun _ _ => ?_
  refine L.when (fun _ => ?_) (L.value trivial)
  refine Lifting.Lifts.bind (L := L) uncounted_get.curtails fun s _ => ?_
  exact (L.host _).bind fun snapshot _ => hlog _

/-- A script is read in the same way under every configuration. -/
theorem curtails_runScript
    (hform : ∀ form, Curtails setting.me Fit Cut (fun _ => True)
      (executeForm { setting with config := c } form)
      (executeForm { setting with config := c' } form)) (script : String) :
    Curtails setting.me Fit Cut (fun _ => True)
      (runScript { setting with config := c } script)
      (runScript { setting with config := c' } script) := by
  let L := curtailment setting.me Fit Cut
  have hread : L.Lifts (fun _ => True) (readScript script) (readScript script) := by
    unfold readScript
    refine (L.host _).bind fun tokens _ => ?_
    split
    · exact L.fail _
    · exact Lifting.Lifts.bind (L := L) (uncounted_log _).curtails fun _ _ => L.value trivial
  refine hread.bind fun forms _ => ?_
  exact Lifting.Lifts.mono (L.mapM fun form _ => hform form) fun _ _ => trivial

end Runs

/-! ## 4. The step limit -/

/-- The fault of a step that goes over a limit. -/
def overstep (most : Int) : Fault := .ofFailure (.telling .stepLimit (Text.writeInteger most))

/-- A limit that can be written is told. -/
theorem overstep_of_writable {most : Int} (h : Text.isWritable most = true) :
    overstep most = .script (.stepLimit (toString most)) := by
  rw [overstep, Text.writeInteger, if_pos h]
  rfl

/-- A limit that is too long to be written is the host's fault. -/
theorem overstep_of_not_writable {most : Int} (h : Text.isWritable most = false) :
    overstep most = .host .integerTooLong := by
  rw [overstep, Text.writeInteger, h]
  rfl

theorem reported_ofFailure (failure : Failure) :
    (Fault.ofFailure failure).reported = .ofFailure failure := by
  cases failure <;> rfl

/-- The fault of a step that goes over a limit, and the count that it leaves. -/
def Overstepped (most : Int) (fault : Fault) (s : State) : Prop :=
  fault = overstep most ∧ s.steps = most.toNat + 1

theorem curtails_countStep (me : Account) (most : Int) :
    Curtails me (· ≤ most.toNat) (Overstepped most) (fun _ => True)
      (countStep (some most)) (countStep none) where
  onward s := .value ⟨.count me s, trivial⟩
  curtailed s hs := by
    have hs : s.steps ≤ most.toNat := hs
    rw [run_countStep, run_countStep]
    dsimp only
    split
    · next hover =>
      have hcount : s.steps + 1 = most.toNat + 1 := by omega
      exact .cut ⟨rfl, hcount⟩ (.refl _ _)
    · next hfits =>
      have hcount : s.steps + 1 ≤ most.toNat := by omega
      exact .whole hcount

/-- The configuration with another step limit, or none. -/
def Config.limited (config : Config) (limit : Option Int) : Config :=
  { config with maxSteps := limit }

/-- The setting with another step limit, or none. -/
def Setting.limited (setting : Setting) (limit : Option Int) : Setting :=
  { setting with config := setting.config.limited limit }

theorem curtails_limited (setting : Setting) (most : Int) (script : String) :
    Curtails setting.me (· ≤ most.toNat) (Overstepped most) (fun _ => True)
      (runScript (setting.limited (some most)) script)
      (runScript (setting.limited none) script) := by
  let c := setting.config.limited (some most)
  let c' := setting.config.limited none
  have ht : c.trace = c'.trace := rfl
  have hl : c.legacy = c'.legacy := rfl
  refine curtails_runScript (fun form => curtails_executeForm ht ?_) script
  let P := curtailing setting hl (curtails_countStep setting.me most)
  have hevaluate : P.Recurs (evaluate (setting.limited (some most)) setting.config.maxDepth)
      (evaluate (setting.limited none) setting.config.maxDepth) := P.evaluate (.inl rfl)
  have hvalue : P.Lifts (fun _ => True) _ _ :=
    (hevaluate form Arena.rootId form.within_true).mono fun _ _ => trivial
  refine Curtails.reportDepth hvalue ?_
  rintro _ s ⟨rfl, hs⟩
  exact ⟨reported_ofFailure _, hs⟩

section Budget

variable {most : Int} {r r' : EStateM.Result Fault State α}

/-- A run that counts no more steps than the limit allows is the same under the limit. -/
theorem Curtailed.eq_of_le (h : Curtailed me (· ≤ most.toNat) (Overstepped most) r r')
    (hs : (stateOf r').steps ≤ most.toNat) : r = r' := by
  cases h with
  | whole => rfl
  | cut hc ho =>
    have hle := ho.steps
    have hcount := hc.2
    omega

/-- A run that counts more steps than the limit allows is cut short. -/
theorem Curtailed.cut_of_lt (h : Curtailed me (· ≤ most.toNat) (Overstepped most) r r')
    (hs : most.toNat < (stateOf r').steps) :
    ∃ s, r = .error (overstep most) s ∧ s.steps = most.toNat + 1 ∧
      Onward me s (stateOf r') := by
  cases h with
  | whole hw =>
    have hw : (stateOf r).steps ≤ most.toNat := hw
    omega
  | @cut fault s _ hc ho =>
    obtain ⟨rfl, hcount⟩ := hc
    exact ⟨s, rfl, hcount, ho⟩

theorem Curtailed.steps_le (h : Curtailed me (· ≤ most.toNat) (Overstepped most) r r') :
    (stateOf r).steps ≤ most.toNat + 1 := by
  cases h with
  | whole hw => exact Nat.le_succ_of_le hw
  | cut hc => exact Nat.le_of_eq hc.2

/-- What does not end with a step over the limit is what the run comes to without one. -/
theorem Curtailed.eq_of_answer (h : Curtailed me (· ≤ most.toNat) (Overstepped most) r r')
    (hr : answerOf r ≠ .error (overstep most)) : r = r' := by
  cases h with
  | whole => rfl
  | cut hc => exact absurd (congrArg Except.error hc.1) hr

end Budget

/-- **The step limit only cuts short.**  If a run ends under some limit, or under none, in anything
but a step over that limit, after `k` steps, then it is the same run under no limit, under every
limit of at least `k`, and if `k = 0` under every limit.  Under any other limit it fails with the
step that goes over it: what was written until then comes first in what the whole run writes, and
no account but the contract's holds more than at the end of the whole run.  The failure tells the
limit, so it is the script's only if the limit can be written.  No limit is overstepped by more than
that one step. -/
theorem run_truncated (setting : Setting) (script : String) (ledger : Ledger)
    (bindings : Table String Value) (listener : Bool) :
    let under limit := run (setting.limited limit) script ledger bindings listener
    (∀ limit, (∀ n, limit = some n → answerOf (under limit) ≠ .error (overstep n)) →
      let whole := under limit
      let k := (stateOf whole).steps
      under none = whole ∧ (∀ m : Int, k ≤ m → under (some m) = whole) ∧
      (k = 0 → ∀ m, under (some m) = whole) ∧
      (1 ≤ k → ∀ m : Int, m < k →
        let cut := under (some m)
        (if Text.isWritable m then
          ∃ error, answerOf cut = .error (.script error) ∧ error.kind = .resourceExhausted ∧
            error.message = s!"Step limit of {m} exceeded"
        else answerOf cut = .error (.host .integerTooLong)) ∧
        (stateOf cut).steps = max m 0 + 1 ∧
        (stateOf cut).output <+: (stateOf whole).output ∧
        ∀ account, account ≠ setting.me →
          (stateOf cut).ledger.balance account ≤ (stateOf whole).ledger.balance account)) ∧
    ∀ n : Int, (stateOf (under (some n))).steps ≤ max n 0 + 1 := by
  intro under
  have hcurtailed (m : Int) : Curtailed setting.me (· ≤ m.toNat) (Overstepped m)
      (under (some m)) (under none) :=
    (curtails_limited setting m script).curtailed _ (Nat.zero_le _)
  refine ⟨fun limit hanswer => ?_, fun n => ?_⟩
  · have hwhole : under limit = under none := by
      cases limit with
      | none => rfl
      | some most => exact (hcurtailed most).eq_of_answer (hanswer most rfl)
    rw [hwhole]
    dsimp only
    refine ⟨rfl, fun m hm => ?_, fun hk m => ?_, fun hk m hm => ?_⟩
    · exact (hcurtailed m).eq_of_le (by omega)
    · exact (hcurtailed m).eq_of_le (by omega)
    · obtain ⟨s, hcut, hsteps, ho⟩ := (hcurtailed m).cut_of_lt (by omega)
      rw [hcut]
      refine ⟨?_, ?_, ho.output_prefix, ho.funds⟩
      · split
        · next hw => exact ⟨_, congrArg Except.error (overstep_of_writable hw), rfl, rfl⟩
        · next hw =>
          have hw : Text.isWritable m = false := by simpa using hw
          exact congrArg Except.error (overstep_of_not_writable hw)
      · simp only [stateOf]
        omega
  · have hle := (hcurtailed n).steps_le
    omega

/-- A script that pays between two lines. -/
def receiptScript : String := "(println 1) ($transfer 2 shop) (println 2)"

/-- The run of it under a step limit. -/
def receipt (limit : Option Int) : EStateM.Result Fault State (List Value) :=
  trial (bank.limited limit) receiptScript { entries := [(⟨"bank"⟩, 5)] }
    [("shop", .account ⟨"shop"⟩)]

/-- Seven steps are enough.  With four the script is cut off before it pays. -/
theorem run_truncated_receipt :
    (stateOf (receipt none)).steps = 7 ∧ (stateOf (receipt none)).output = ["1", "2"] ∧
    (stateOf (receipt none)).ledger.balance ⟨"shop"⟩ = 2 ∧
    receipt (some 7) = receipt none ∧
    (∃ error, answerOf (receipt (some 4)) = .error (.script error) ∧
      error.kind = .resourceExhausted ∧ error.message = "Step limit of 4 exceeded") ∧
    (stateOf (receipt (some 4))).steps = (5 : Int) ∧
    (stateOf (receipt (some 4))).output <+: ["1", "2"] ∧
    (stateOf (receipt (some 4))).ledger.balance ⟨"shop"⟩ ≤ 2 := by
  obtain ⟨hsteps, houtput, hshop⟩ : (stateOf (receipt none)).steps = 7 ∧
      (stateOf (receipt none)).output = ["1", "2"] ∧
      (stateOf (receipt none)).ledger.balance ⟨"shop"⟩ = 2 := by decide +kernel
  have htruncated := (run_truncated bank receiptScript { entries := [(⟨"bank"⟩, 5)] }
    [("shop", .account ⟨"shop"⟩)] false).1 none nofun
  have hreceipt (limit : Option Int) : run (bank.limited limit) receiptScript
      { entries := [(⟨"bank"⟩, 5)] } [("shop", .account ⟨"shop"⟩)] false = receipt limit :=
    run_eq_trial _ _ _ _
  simp only [hreceipt, hsteps, houtput] at htruncated
  obtain ⟨-, hlarge, -, hsmall⟩ := htruncated
  obtain ⟨herror, hcount, hprefix, hfunds⟩ := hsmall (by decide) 4 (by decide)
  have hwritable : Text.isWritable 4 = true := by decide +kernel
  have hmessage : s!"Step limit of {(4 : Int)} exceeded" = "Step limit of 4 exceeded" := by
    decide +kernel
  rw [if_pos hwritable, hmessage] at herror
  exact ⟨hsteps, houtput, hshop, hlarge 7 (by decide), herror, hcount, hprefix,
    hshop ▸ hfunds ⟨"shop"⟩ (by decide)⟩

/-- The least negative limit that is too long to be written. -/
def longLimit : Int := -(Text.powerOfTen digitLimit : Int)

theorem not_isWritable_longLimit : Text.isWritable longLimit = false := by
  rw [longLimit, Text.isWritable, Int.natAbs_neg]
  exact Text.not_isWritable_powerOfTen

/-- A script that needs one step is not told that it may make none: under the long limit it ends
in a fault of the host, which is no error of the script. -/
theorem run_not_truncated :
    (stateOf (run (bank.limited none) "1" {} [] false)).steps = 1 ∧ longLimit < 1 ∧
    ¬ ∃ error, answerOf (run (bank.limited (some longLimit)) "1" {} [] false) =
      .error (.script error) := by
  have hsteps : (stateOf (run (bank.limited none) "1" {} [] false)).steps = 1 := by
    decide +kernel
  have hlong : longLimit ≤ 0 := Int.neg_nonpos_of_nonneg (Int.natCast_nonneg _)
  have hover : longLimit.toNat < (stateOf (run (bank.limited none) "1" {} [] false)).steps := by
    rw [hsteps, Int.toNat_of_nonpos hlong]
    exact Nat.one_pos
  obtain ⟨s, hcut, -⟩ :=
    ((curtails_limited bank longLimit "1").curtailed _ (Nat.zero_le _)).cut_of_lt hover
  refine ⟨hsteps, by omega, ?_⟩
  rintro ⟨error, h⟩
  have hfault : answerOf (run (bank.limited (some longLimit)) "1" {} [] false) =
      .error (overstep longLimit) := congrArg answerOf hcut
  rw [hfault, overstep_of_not_writable not_isWritable_longLimit] at h
  cases h

end LedgerScript.Run
