/-
# Accounts that a script can name

A host binds the accounts of a ledger by their addresses, those that are names.  They are exactly
the accounts whose address is read as one identifier, the address itself: a name is read so as any
well-formed form is, and whatever is read as an identifier is a name (`ofText_identifier_iff`).
For the same reason nothing is lost by leaving out the others.  Whatever stands in a script as a
variable was read as an identifier, so a text that is no name stands in none
(`Reads.isName_of_mentions`).
-/
import LedgerScript.Proofs.Arithmetic
import LedgerScript.Proofs.Sequence

namespace LedgerScript

variable {name : String}

/-! ## 1. Names that are read -/

namespace Node

/-- A name stands somewhere in a form as a variable. -/
inductive Mentions (name : String) : Node → Prop
  | here : Mentions name (.ident name)
  | inside {children : List Node} {child : Node} (hchild : child ∈ children)
    (h : Mentions name child) : Mentions name (.list children)

/-- What stands in a well-formed form as a variable is a name. -/
theorem WellFormed.isName_of_mentions {form : Node} (hf : form.WellFormed)
    (h : form.Mentions name) : Token.isName name.toList = true := by
  induction h with
  | here =>
    cases hf with
    | ident hname => exact hname
  | inside hchild _ ih =>
    cases hf with
    | list hchildren => exact ih (hchildren _ hchild)

/-- What stands in a script as a variable is a name. -/
theorem Reads.isName_of_mentions {script : String} {forms : List Node} (hr : Reads script forms)
    {form : Node} (hmem : form ∈ forms) (h : form.Mentions name) :
    Token.isName name.toList = true := (hr.wellFormed form hmem).isName_of_mentions h

/-- A name is read as the variable of that name. -/
theorem reads_ident (h : Token.isName name.toList = true) :
    Token.ofText name = .ok [.identifier name] ∧ Reads name [.ident name] := by
  have hwell : ∀ form ∈ [ident name], form.WellFormed := by
    simpa using WellFormed.ident h
  have hname : forestText [ident name] = .ok name := forestText_eq_written hwell
  obtain ⟨text, htext, htokens⟩ := ofText_forestText hwell
  cases hname.symm.trans htext
  exact ⟨htokens, [.identifier name], htokens, rfl⟩

end Node

/-- **Names are the texts that are read as one identifier**, which is the text itself. -/
theorem Token.ofText_identifier_iff :
    ofText name = .ok [.identifier name] ↔ isName name.toList = true := by
  constructor
  · intro h
    obtain ⟨hwell, -⟩ := normal_of_ofText h (.identifier name) List.mem_cons_self
    exact hwell
  · exact fun h => (Node.reads_ident h).1

namespace Run

variable {ledger : Ledger} {account : Account}

/-! ## 2. The bindings -/

theorem keys_accountBindings (ledger : Ledger) :
    (accountBindings ledger).keys =
      (ledger.accounts.map Account.address).filter fun address => Token.isName address.toList := by
  simp [accountBindings, Table.keys, List.filter_map, Function.comp_def]

/-- An account of the ledger is bound if its address is a name. -/
theorem mem_keys_accountBindings (h : account ∈ ledger.accounts) :
    account.address ∈ (accountBindings ledger).keys ↔
      Token.isName account.address.toList = true := by
  rw [keys_accountBindings, List.mem_filter]
  exact ⟨And.right, fun hname => ⟨List.mem_map_of_mem h, hname⟩⟩

theorem nodup_keys_accountBindings (h : ledger.accounts.Nodup) :
    (accountBindings ledger).keys.Nodup := by
  rw [keys_accountBindings]
  refine (h.map fun a b hab => ?_).filter _
  cases a
  cases b
  exact congrArg Account.mk hab

/-- The name of an account that is bound is bound to it. -/
theorem get?_accountBindings (hn : ledger.accounts.Nodup) (h : account ∈ ledger.accounts)
    (hname : Token.isName account.address.toList = true) :
    (accountBindings ledger).get? account.address = some (.account account) :=
  Table.get?_of_mem (nodup_keys_accountBindings hn)
    (List.mem_map_of_mem (List.mem_filter.mpr ⟨h, hname⟩))

/-! ## 3. Running a name -/

variable {setting : Setting} {bindings : Table String Value}

/-- A script that is a name comes to the account that the name is bound to. -/
theorem run_name (hname : Token.isName name.toList = true) (hb : bindings.keys.Nodup)
    (hv : bindings.get? name = some (.account account)) (hallowed : setting.Allows 1)
    (hdepth : 1 ≤ setting.config.maxDepth) (ledger : Ledger) (listener : Bool) :
    answerOf (run setting name ledger bindings listener) = .ok [.account account] := by
  obtain ⟨record, hrun⟩ := run_of_reads (Node.reads_ident hname).2 setting ledger bindings listener
  let start : State := { State.initial ledger bindings listener with log := [record] }
  obtain ⟨depth, hdepth⟩ : ∃ depth, setting.config.maxDepth = depth + 1 :=
    ⟨setting.config.maxDepth - 1, by omega⟩
  have hevaluate : ∀ log, ∃ later,
      (evaluate setting setting.config.maxDepth (.ident name) Arena.rootId).run
        { start with log } = .ok (.account account) { start.counted with log := later } := by
    intro log
    have hstep : State.HasStep setting { start with log } := hallowed
    have hlookup : start.arena.lookup (some Arena.rootId) name = .ok (some (.account account)) := by
      rw [lookup_initial, Table.ofPairs_of_nodup hb, hv]
    rw [hdepth]
    exact ⟨log, hstep.run_evaluate_ident hlookup⟩
  have hscopes : start.counted.arena.Told := (tree_initial ledger bindings listener).ordered.told
  obtain ⟨log, hexecute⟩ := run_executeForm_of_evaluate (s := start) rfl hscopes rfl hevaluate
  rw [hrun, execute_cons, run_bind_ok hexecute]
  rfl

/-- **Accounts are bound by name exactly if a script can name them.**  Take a ledger, which lists no
account twice.  The accounts that are bound are bound in their order in it, each once.  An account
is bound if and only if its address is read as one identifier, the address itself; it is bound to
itself, and a run of its address, with these bindings and one step at least, comes to it.  The
address of an account that is not bound stands in no script as a variable. -/
theorem accountBindings_named (ledger : Ledger) (hn : ledger.accounts.Nodup) :
    let bindings := accountBindings ledger
    bindings.keys.Sublist (ledger.accounts.map Account.address) ∧ bindings.keys.Nodup ∧
    ∀ account ∈ ledger.accounts,
      (account.address ∈ bindings.keys ↔
        Token.ofText account.address = .ok [.identifier account.address]) ∧
      (account.address ∈ bindings.keys →
        bindings.get? account.address = some (.account account) ∧
        Node.Reads account.address [.ident account.address] ∧
        ∀ (setting : Setting) (listener : Bool), setting.Allows 1 →
          1 ≤ setting.config.maxDepth →
          answerOf (run setting account.address ledger bindings listener) =
            .ok [.account account]) ∧
      (account.address ∉ bindings.keys → ∀ script forms, Node.Reads script forms →
        ∀ form ∈ forms, ¬ form.Mentions account.address) := by
  intro bindings
  have hnodup : bindings.keys.Nodup := nodup_keys_accountBindings hn
  refine ⟨?_, hnodup, fun account h => ?_⟩
  · rw [keys_accountBindings]
    exact List.filter_sublist
  have hbound : account.address ∈ bindings.keys ↔ Token.isName account.address.toList = true :=
    mem_keys_accountBindings h
  refine ⟨hbound.trans Token.ofText_identifier_iff.symm, fun hmem => ?_, fun hmem => ?_⟩
  · have hname := hbound.mp hmem
    have hv := get?_accountBindings hn h hname
    refine ⟨hv, (Node.reads_ident hname).2, fun setting listener hallowed hdepth => ?_⟩
    exact run_name hname hnodup hv hallowed hdepth ledger listener
  · intro script forms hreads form hform hmentions
    exact hmem (hbound.mpr (hreads.isName_of_mentions hform hmentions))

/-- A ledger with two accounts that a script can name. -/
def register : Ledger :=
  { entries := [(⟨"2nd"⟩, 4), (⟨"42"⟩, 1), (⟨"a;b"⟩, 0), (⟨""⟩, 2), (⟨"bank"⟩, 7)] }

/-- They are bound, and a script that is the name of one comes to it; the others have addresses that
are a number, a name and a comment, and nothing. -/
theorem accountBindings_named_register :
    (accountBindings register).keys = ["2nd", "bank"] ∧
    answerOf (run bank "2nd" register (accountBindings register) false) =
      .ok [.account ⟨"2nd"⟩] ∧
    ∀ address ∈ ["42", "a;b", ""], Token.ofText address ≠ .ok [.identifier address] ∧
      ∀ script forms, Node.Reads script forms → ∀ form ∈ forms, ¬ form.Mentions address := by
  have hkeys : (accountBindings register).keys = ["2nd", "bank"] := by decide +kernel
  obtain ⟨-, -, hnamed⟩ := accountBindings_named register (by decide)
  refine ⟨hkeys, ?_, fun address hmem => ?_⟩
  · obtain ⟨-, hbound, -⟩ := hnamed ⟨"2nd"⟩ (by decide)
    obtain ⟨-, -, hrun⟩ := hbound (by rw [hkeys]; decide)
    refine hrun bank false ?_ (by decide)
    intro most hmost
    cases hmost
    decide
  · have hlisted : ∀ address ∈ ["42", "a;b", ""],
        ⟨address⟩ ∈ register.accounts ∧ address ∉ ["2nd", "bank"] := by decide
    obtain ⟨hlisted, hother⟩ := hlisted address hmem
    rw [← hkeys] at hother
    obtain ⟨hread, -, hunnamed⟩ := hnamed ⟨address⟩ hlisted
    exact ⟨fun h => hother (hread.mpr h), hunnamed hother⟩

end Run

end LedgerScript
