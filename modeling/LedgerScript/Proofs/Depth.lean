/-
# Runs that the depth limit cuts short

The depth limit is looked at where an evaluation begins, before its step is counted, and all that
it can do there is to end the run.  So it cuts a run short as the step limit does, in the middle of
whatever is active, and leaves what was done until then (`curtails_bounded`).  The two limits do not
get in each other's way: steps are counted alike under every depth, so a run that comes to its step
limit first does so under every larger depth as well.

`run_deepened` reads off what this means for a run under two depths.
-/
import LedgerScript.Proofs.Truncation

namespace LedgerScript.Run

open Eval

variable {α : Type} {me : Account} {Cut : Fault → State → Prop} {Q : α → Prop} {m : Eval α}

/-! ## 1. Where a run is cut -/

/-- A fault of this kind cuts a run short. -/
def CutBy (cut fault : Fault) (_ : State) : Prop := fault = cut

/-- What goes onward is not cut short, if any count of steps fits. -/
theorem curtails_of_onward
    (h : ∀ s, Ends (fun a t => Onward me s t ∧ Q a) (fun _ t => Onward me s t) (m.run s)) :
    Curtails me (fun _ => True) Cut Q m m where
  onward := h
  curtailed _ _ := .whole trivial

/-- Every step that is counted goes onward, also the one that goes over the limit. -/
theorem curtails_count (me : Account) (limit : Option Int) :
    Curtails me (fun _ => True) Cut (fun _ => True) (countStep limit) (countStep limit) := by
  refine curtails_of_onward fun s => ?_
  rw [run_countStep]
  split
  · exact .value ⟨.count me s, trivial⟩
  · split
    · exact .fault (.count me s)
    · exact .value ⟨.count me s, trivial⟩

/-- What an evaluation does beyond the depth is further on than where it was cut off. -/
theorem curtails_tooDeep (setting : Setting) (depth : Nat) (form : Node) (scope : ScopeId) :
    Curtails setting.me (fun _ => True) (CutBy .tooDeep) (Value.Within fun _ => True)
      (throw .tooDeep) (evaluate setting depth form scope) where
  onward s := by
    have honward := onward_evaluate setting depth form scope s
    generalize (evaluate setting depth form scope).run s = r at honward ⊢
    cases r with
    | ok v t => exact .value ⟨honward, v.within_true⟩
    | error fault t => exact .fault honward
  curtailed s _ := .cut rfl (onward_evaluate setting depth form scope s)

/-! ## 2. Two depths -/

/-- The configuration with another depth limit. -/
def Config.bounded (config : Config) (depth : Nat) : Config := { config with maxDepth := depth }

/-- The setting with another depth limit. -/
def Setting.bounded (setting : Setting) (depth : Nat) : Setting :=
  { setting with config := setting.config.bounded depth }

/-- The smaller of two depths cuts short what the larger one allows. -/
theorem curtails_bounded (setting : Setting) {depth depth' : Nat} (h : depth ≤ depth')
    (script : String) :
    Curtails setting.me (fun _ => True) (CutBy (.script .depthLimit)) (fun _ => True)
      (runScript (setting.bounded depth) script) (runScript (setting.bounded depth') script) := by
  let c := setting.config.bounded depth
  let c' := setting.config.bounded depth'
  have ht : c.trace = c'.trace := rfl
  have hl : c.legacy = c'.legacy := rfl
  refine curtails_runScript (fun form => curtails_executeForm ht ?_) script
  have hcount : Curtails setting.me (fun _ => True) (CutBy .tooDeep) (fun _ => True)
      (countStep c.maxSteps) (countStep c'.maxSteps) := curtails_count setting.me _
  let P := curtailing setting hl hcount
  have hevaluate : P.Recurs (evaluate (setting.bounded depth) depth)
      (evaluate (setting.bounded depth') depth') :=
    P.evaluate (.inr ⟨h, curtails_tooDeep (setting.bounded depth')⟩)
  have hvalue : P.Lifts (fun _ => True) _ _ :=
    (hevaluate form Arena.rootId form.within_true).mono fun _ _ => trivial
  refine Curtails.reportDepth hvalue ?_
  rintro _ s rfl
  exact rfl

section Limits

variable {Fit : Nat → Prop} {r r' : EStateM.Result Fault State α}

/-- Wherever a run was cut short, the other one comes to a state that is further on. -/
theorem Curtailed.onward (h : Curtailed me Fit Cut r r') : Onward me (stateOf r) (stateOf r') := by
  cases h with
  | whole => exact .refl me _
  | cut _ ho => exact ho

/-- What does not end with the cut is what the run comes to without it. -/
theorem Curtailed.eq_of_not_cut {fault : Fault} (h : Curtailed me Fit (CutBy fault) r r')
    (hr : answerOf r ≠ .error fault) : r' = r := by
  cases h with
  | whole => rfl
  | cut hc =>
    obtain rfl := hc
    exact absurd rfl hr

end Limits

/-- **The depth limit only cuts short.**  Take a run under a depth and under a larger one.  If the
first does not end with the depth limit, the second is the same run.  If the second ends with it,
so does the first.  Either way, what the first writes comes first in what the second writes, and no
account but the contract's holds more at the end of the first. -/
theorem run_deepened (setting : Setting) (script : String) (ledger : Ledger)
    (bindings : Table String Value) (listener : Bool) {depth depth' : Nat} (h : depth ≤ depth') :
    let under depth := run (setting.bounded depth) script ledger bindings listener
    let exceeded depth := answerOf (under depth) = .error (.script .depthLimit)
    ScriptError.depthLimit.message = "Maximum evaluation depth exceeded" ∧
    (¬ exceeded depth → under depth' = under depth) ∧
    (exceeded depth' → exceeded depth) ∧
    (stateOf (under depth)).output <+: (stateOf (under depth')).output ∧
    ∀ account, account ≠ setting.me →
      (stateOf (under depth)).ledger.balance account ≤
        (stateOf (under depth')).ledger.balance account := by
  intro under exceeded
  have hcurtailed : Curtailed setting.me (fun _ => True) (CutBy (.script .depthLimit))
      (under depth) (under depth') := (curtails_bounded setting h script).curtailed _ trivial
  have hsame (hnot : ¬ exceeded depth) : under depth' = under depth :=
    hcurtailed.eq_of_not_cut hnot
  refine ⟨rfl, hsame, fun hexceeded => ?_, hcurtailed.onward.output_prefix,
    hcurtailed.onward.funds⟩
  by_cases hcut : exceeded depth
  · exact hcut
  · have hanswer : answerOf (under depth') = answerOf (under depth) :=
      congrArg answerOf (hsame hcut)
    exact hanswer.symm.trans hexceeded

/-- A script that pays between two lines; its forms are nested two, three and four deep. -/
def nestedScript : String := "(println 1) ($transfer (+ 1 1) shop) (println (+ 1 (+ 1 1)))"

/-- The run of it under a depth limit. -/
def nested (depth : Nat) : EStateM.Result Fault State (List Value) :=
  trial (bank.bounded depth) nestedScript { entries := [(⟨"bank"⟩, 5)] }
    [("shop", .account ⟨"shop"⟩)]

/-- A depth of four is enough, so five hundred change nothing.  With three the script ends after it
has paid, hence with two as well, at the latest there. -/
theorem run_deepened_nested :
    answerOf (nested 3) = .error (.script .depthLimit) ∧
    (stateOf (nested 3)).ledger.balance ⟨"shop"⟩ = 2 ∧
    answerOf (nested 2) = .error (.script .depthLimit) ∧
    (stateOf (nested 2)).output <+: (stateOf (nested 3)).output ∧
    (stateOf (nested 2)).ledger.balance ⟨"shop"⟩ ≤ 2 ∧
    (stateOf (nested 4)).output = ["1", "3"] ∧ nested 500 = nested 4 := by
  have hdeepened {depth depth' : Nat} (h : depth ≤ depth') :=
    run_deepened bank nestedScript { entries := [(⟨"bank"⟩, 5)] }
      [("shop", .account ⟨"shop"⟩)] false h
  simp only [run_eq_trial] at hdeepened
  obtain ⟨hthree, hpaid, hwhole, houtput⟩ :
      (match answerOf (nested 3) with | .ok _ => none | .error fault => some fault) =
        some (Fault.script .depthLimit) ∧
      (stateOf (nested 3)).ledger.balance ⟨"shop"⟩ = 2 ∧
      (answerOf (nested 4)).isOk = true ∧
      (stateOf (nested 4)).output = ["1", "3"] := by decide +kernel
  have hexceeded : answerOf (nested 3) = .error (.script .depthLimit) := by
    cases hanswer : answerOf (nested 3) with
    | ok values => rw [hanswer] at hthree; cases hthree
    | error fault => rw [hanswer] at hthree; cases hthree; rfl
  have hnot : answerOf (nested 4) ≠ .error (.script .depthLimit) := by
    intro h
    rw [h] at hwhole
    cases hwhole
  obtain ⟨-, -, htwo, hprefix, hfunds⟩ := hdeepened (by decide : 2 ≤ 3)
  obtain ⟨-, hsame, -⟩ := hdeepened (by decide : 4 ≤ 500)
  exact ⟨hexceeded, hpaid, htwo hexceeded, hprefix, hpaid ▸ hfunds ⟨"shop"⟩ (by decide), houtput,
    hsame hnot⟩

end LedgerScript.Run
