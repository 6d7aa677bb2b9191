/-
# Scripts one after another

A line feed ends whatever the text before it left unfinished, a comment or a word.  So a text that
is followed by another on a new line has the tokens of the one and then the tokens of the other,
and if both can be read, it is read as the forms of the one and then the forms of the other
(`Node.reads_append`).

To run such a text is to run the first and then, only if that succeeds, to execute the forms of
the second in the state it left (`run_append`).  The runs of the whole and of its first part
differ in the one log record that tells how much was read, and no evaluation looks at the log.
-/
import LedgerScript.Proofs.Logs
import LedgerScript.Proofs.RoundTrip

namespace LedgerScript

/-! ## 1. Reading -/

namespace Token

/-- The tokens of two texts, the second on a line of its own. -/
theorem ofText_append {first second : String} {tokens others : List Token}
    (h : ofText first = .ok tokens) (h' : ofText second = .ok others) :
    ofText (first ++ "\n" ++ second) = .ok (tokens ++ others) := by
  have hlines : Text.lines (first ++ "\n" ++ second).toList =
      Text.lines first.toList ++ Text.lines second.toList := by
    have htext : (first ++ "\n" ++ second).toList = first.toList ++ '\n' :: second.toList := by
      simp [String.toList_append]
    rw [htext]
    exact Text.splitOn_append_cons (c := '\n') rfl _ _
  unfold ofText at h h' ⊢
  rw [hlines, List.flatMap_append, List.mapM_append, h, h']
  rfl

end Token

namespace Node

/-- Two rows that can be read are read, one after another, as their forms one after another. -/
theorem ofTokens_append {tokens others : List Token} {forms later : List Node}
    (h : ofTokens tokens = .ok forms) (h' : ofTokens others = .ok later) :
    ofTokens (tokens ++ others) = .ok (forms ++ later) :=
  calc ofTokens (tokens ++ others)
      = ofTokens ((tokens ++ others).map Token.normal) := (parseFrom_normal _ 0 [] []).symm
    _ = ofTokens (allTokens (forms ++ later)) := by
        rw [allTokens_append, allTokens_of_ofTokens h, allTokens_of_ofTokens h', List.map_append]
    _ = .ok (forms ++ later) := ofTokens_allTokens _

/-- A text is read by way of the tokens it has. -/
theorem reads_of_toOption {text : String} {tokens : List Token} {forms : List Node}
    (ht : (Token.ofText text).toOption = some tokens) (hf : ofTokens tokens = .ok forms) :
    Reads text forms := by
  cases hr : Token.ofText text with
  | error fault => rw [hr] at ht; cases ht
  | ok tokens => rw [hr] at ht; cases ht; exact ⟨_, hr, hf⟩

/-- **Two texts, the second on a line of its own,** are read as the forms of both. -/
theorem reads_append {first second : String} {forms later : List Node}
    (h : Reads first forms) (h' : Reads second later) :
    Reads (first ++ "\n" ++ second) (forms ++ later) := by
  obtain ⟨tokens, ht, hf⟩ := h
  obtain ⟨others, ht', hf'⟩ := h'
  exact ⟨tokens ++ others, Token.ofText_append ht ht', ofTokens_append hf hf'⟩

end Node

namespace Run

open Eval

variable {setting : Setting}

/-! ## 2. Runs that differ in what was read -/

/-- Two states are the same but for the first record of the log, which tells how much was read. -/
def State.SameButReading (s t : State) : Prop :=
  ∃ record record' later, s.log = record :: later ∧ t = { s with log := record' :: later }

/-- The forms of a script are executed alike from two such states. -/
theorem alike_execute (setting : Setting) (forms : List Node) {s t : State}
    (h : s.SameButReading t) :
    Alike State.SameButReading (fun _ => False) (fun _ => True)
      ((execute setting forms).run s) ((execute setting forms).run t) := by
  obtain ⟨record, record', later, hs, rfl⟩ := h
  let C : Coupling setting setting := logBlind [record] [record'] setting setting.config.trace
  have hscopes : C.Sim (fun _ => True) logScopes logScopes := by
    rintro u _ ⟨added, hp, hu, rfl⟩
    rw [run_logScopes, run_logScopes]
    exact (simulates_host _).bind (fun _ _ => logBlind_log trivial) u _ ⟨added, hp, hu, rfl⟩
  have hwithin : ∀ form ∈ forms, form.Within fun _ => True := fun form _ => form.within_true
  refine (C.execute (fun _ hcut => hcut) hscopes hwithin s _ ?_).mono ?_
    fun _ _ => trivial
  · exact ⟨later, fun _ _ => trivial, hs, rfl⟩
  rintro u _ ⟨added, -, hu, rfl⟩
  exact ⟨record, record', added, hu, rfl⟩

namespace State.SameButReading

variable {forms : List Node} {s t s' : State} (h : s.SameButReading t)

include h

/-- What fails in one of two such states fails in the other. -/
theorem execute_error {fault : Fault} (hs : (execute setting forms).run s = .error fault s') :
    ∃ t', (execute setting forms).run t = .error fault t' ∧ s'.SameButReading t' := by
  have halike := alike_execute setting forms h
  rw [hs] at halike
  exact halike.of_error id

/-- What returns values in one of two such states returns them in the other. -/
theorem execute_ok {values : List Value} (hs : (execute setting forms).run s = .ok values s') :
    ∃ t', (execute setting forms).run t = .ok values t' ∧ s'.SameButReading t' := by
  have halike := alike_execute setting forms h
  rw [hs] at halike
  exact halike.of_ok

end State.SameButReading

/-! ## 3. Running -/

/-- To execute some forms and then others is to execute all of them. -/
theorem execute_append (forms later : List Node) :
    execute setting (forms ++ later) =
      execute setting forms >>= fun values =>
        execute setting later >>= fun others => pure (values ++ others) := by
  simp [execute, List.mapM_append]

/-- Forms are executed one after another. -/
theorem execute_cons (form : Node) (rest : List Node) :
    execute setting (form :: rest) =
      executeForm setting form >>= fun value =>
        execute setting rest >>= fun values => pure (value :: values) := List.mapM_cons

/-- Reading a text that can be read logs how much was read. -/
theorem run_readScript {text : String} {tokens : List Token} {forms : List Node}
    (ht : Token.ofText text = .ok tokens) (hf : Node.ofTokens tokens = .ok forms) (s : State) :
    (readScript text).run s =
      .ok forms { s with log := s.log ++ [.parsed forms.length tokens.length] } := by
  have htokens : (ofHost (Token.ofText text)).run s = .ok tokens s := by
    rw [run_ofHost, ht]
  unfold readScript
  rw [run_bind_ok htokens, hf]
  rfl

/-- A text that can be read is run by executing its forms, once it is logged how much was read. -/
theorem run_of_reads {text : String} {forms : List Node} (h : Node.Reads text forms)
    (setting : Setting) (ledger : Ledger) (bindings : Table String Value) (listener : Bool) :
    ∃ record, run setting text ledger bindings listener =
      (execute setting forms).run
        { State.initial ledger bindings listener with log := [record] } := by
  obtain ⟨tokens, ht, hf⟩ := h
  refine ⟨.parsed forms.length tokens.length, ?_⟩
  show (readScript text >>= execute setting).run (.initial ledger bindings listener) = _
  rw [run_bind_ok (run_readScript ht hf _)]
  rfl

/-- **Sequential composition.**  Of two texts that can be read, let the second stand after the
first on a line of its own.  The text is read as the forms of the first and then those of the
second.  Its run ends as the run of the first text if that fails, and nothing of the second has any
effect; if the first returns values, the run goes on with the forms of the second in the state that
the first left, ends as they do, and returns the values of both.  In each case the states differ at
most in the log record that tells how much was read. -/
theorem run_append {first second : String} {forms later : List Node}
    (h : Node.Reads first forms) (h' : Node.Reads second later) (setting : Setting)
    (ledger : Ledger) (bindings : Table String Value) (listener : Bool) :
    let start := run setting first ledger bindings listener
    let whole := run setting (first ++ "\n" ++ second) ledger bindings listener
    Node.Reads (first ++ "\n" ++ second) (forms ++ later) ∧
      (∀ fault s, start = .error fault s → ∃ t, whole = .error fault t ∧ s.SameButReading t) ∧
      ∀ values s, start = .ok values s →
        (∀ fault s', (execute setting later).run s = .error fault s' →
          ∃ t, whole = .error fault t ∧ s'.SameButReading t) ∧
        ∀ others s', (execute setting later).run s = .ok others s' →
          ∃ t, whole = .ok (values ++ others) t ∧ s'.SameButReading t := by
  intro start whole
  have hreads := Node.reads_append h h'
  obtain ⟨record, hstart⟩ := run_of_reads h setting ledger bindings listener
  obtain ⟨record', hwhole⟩ := run_of_reads hreads setting ledger bindings listener
  have hsame : State.SameButReading
      { State.initial ledger bindings listener with log := [record] }
      { State.initial ledger bindings listener with log := [record'] } :=
    ⟨record, record', [], rfl, rfl⟩
  rw [execute_append] at hwhole
  refine ⟨hreads, fun fault s hs => ?_, fun values s hs => ?_⟩
  · obtain ⟨t, ht, hst⟩ := hsame.execute_error (hstart.symm.trans hs)
    exact ⟨t, hwhole.trans (run_bind_error ht), hst⟩
  · obtain ⟨t, ht, hst⟩ := hsame.execute_ok (hstart.symm.trans hs)
    have hwhole := hwhole.trans (run_bind_ok ht)
    refine ⟨fun fault s' hs' => ?_, fun others s' hs' => ?_⟩
    · obtain ⟨t', ht', hst'⟩ := hst.execute_error hs'
      exact ⟨t', hwhole.trans (run_bind_error ht'), hst'⟩
    · obtain ⟨t', ht', hst'⟩ := hst.execute_ok hs'
      exact ⟨t', hwhole.trans (run_bind_ok ht'), hst'⟩

/-- The ledger that it pays from. -/
def cashierLedger : Ledger := { entries := [(⟨"bank"⟩, 5), (⟨"shop"⟩, 1)] }

/-- A payment to a shop, with a comment at the end. -/
def payment : String := "(define due 2) ($transfer due shop) ; paid"

/-- What is done after it: a line is written, and a name is asked for that nothing binds. -/
def afterPayment : String := "(println due) rest"

/-- The forms of the payment. -/
def paymentForms : List Node :=
  [.list [.ident "define", .ident "due", .number 2],
    .list [.operator "$transfer", .ident "due", .ident "shop"]]

/-- The forms of what is done after it. -/
def afterForms : List Node := [.list [.ident "println", .ident "due"], .ident "rest"]

/-- The run of a text by the bank. -/
def cashierRun (text : String) : EStateM.Result Fault State (List Value) :=
  trial bank text cashierLedger (accountBindings cashierLedger)

/-- The comment does not reach what is done after the payment, which knows the name that the
payment defined; it fails, and the payment stays done. -/
theorem run_append_payment :
    let whole := cashierRun (payment ++ "\n" ++ afterPayment)
    Node.Reads (payment ++ "\n" ++ afterPayment) (paymentForms ++ afterForms) ∧
      (stateOf whole).output = ["2"] ∧
      (stateOf whole).ledger.toPairs = [("bank", 3), ("shop", 3)] ∧
      ∃ values s fault s', cashierRun payment = .ok values s ∧
        (execute bank afterForms).run s = .error fault s' ∧
        ∃ t, whole = .error fault t ∧ s'.SameButReading t := by
  intro whole
  obtain ⟨hpaid, hfails, houtput, hledger⟩ : (answerOf (cashierRun payment)).isOk = true ∧
      (answerOf whole).isOk = false ∧ (stateOf whole).output = ["2"] ∧
      (stateOf whole).ledger.toPairs = [("bank", 3), ("shop", 3)] := by decide +kernel
  have htokens : (Token.ofText payment).toOption = some [.openParen, .identifier "define",
      .identifier "due", .number "2" 2, .closeParen, .openParen, .symbol "$transfer",
      .identifier "due", .identifier "shop", .closeParen] := by decide +kernel
  have htokens' : (Token.ofText afterPayment).toOption = some [.openParen, .identifier "println",
      .identifier "due", .closeParen, .identifier "rest"] := by decide +kernel
  have h : Node.Reads payment paymentForms := Node.reads_of_toOption htokens rfl
  have h' : Node.Reads afterPayment afterForms := Node.reads_of_toOption htokens' rfl
  obtain ⟨hreads, -, hpaidRun⟩ :=
    run_append h h' bank cashierLedger (accountBindings cashierLedger) false
  simp only [run_eq_trial] at hpaidRun
  refine ⟨hreads, houtput, hledger, ?_⟩
  cases hp : cashierRun payment with
  | error fault s => rw [hp] at hpaid; cases hpaid
  | ok values s =>
    obtain ⟨hfault, hvalue⟩ := hpaidRun values s hp
    cases ha : (execute bank afterForms).run s with
    | error fault s' => exact ⟨values, s, fault, s', rfl, ha, hfault fault s' ha⟩
    | ok others s' =>
      obtain ⟨t, ht, -⟩ := hvalue others s' ha
      rw [show whole = _ from ht] at hfails
      cases hfails

end Run

end LedgerScript
