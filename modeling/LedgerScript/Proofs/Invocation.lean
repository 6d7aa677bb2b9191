/-
# Command lines that are read back

An `Invocation` asks for the run of a script with its report as JSON.  `Toolkit.Laws` says what such
a run relies on in a toolkit: the words are read back as the command with the values that stand in
them, and lines are written as they are.

The reference toolkit keeps these laws (`laws_referenceToolkit`).  Words spell options if each
option is written by its long or its short name, a value in the word behind it, whatever that word
looks like (`Spells`).  Such words are read back as the options they spell, in order, and what
stands behind `--` is plain (`readArguments_spelled`).  The options are then taken over one after
another, all values of one option at once, so that the items of the balances, however many there
are, are read together.  A limit of steps that is no integer is told as a mistake
(`Invocation.readWords_unreadable`).
-/
import LedgerScript.CommandLine.ReferenceToolkit
import LedgerScript.Proofs.Amounts
import Mathlib.Data.List.Basic

namespace LedgerScript

/-! ## 1. The keys of a table of pairs -/

namespace Table

variable {κ α : Type} [DecidableEq κ]

/-- Adds a key at the end, unless it is there. -/
def addKey (keys : List κ) (x : κ) : List κ := if x ∈ keys then keys else keys ++ [x]

theorem keys_ofPairs (pairs : List (κ × α)) :
    (ofPairs pairs).keys = (pairs.map Prod.fst).foldl addKey [] := by
  have hfrom : ∀ (pairs : List (κ × α)) (start : Table κ α),
      (pairs.foldl (fun t pair => t.put pair.1 pair.2) start).keys =
        (pairs.map Prod.fst).foldl addKey start.keys := by
    intro pairs
    induction pairs with
    | nil => exact fun _ => rfl
    | cons pair rest ih =>
      intro start
      rw [List.foldl_cons, ih, keys_put]
      rfl
  exact hfrom pairs []

theorem addKey_of_mem {keys : List κ} {x : κ} (h : x ∈ keys) : addKey keys x = keys := if_pos h

/-- A key that is added several times is added once. -/
theorem foldl_addKey_replicate (keys : List κ) (x : κ) (n : Nat) :
    (List.replicate n x).foldl addKey keys = if n = 0 then keys else addKey keys x := by
  have hmem : x ∈ addKey keys x := by
    unfold addKey
    split
    · assumption
    · exact List.mem_append_right _ List.mem_cons_self
  have hstays : ∀ n, (List.replicate n x).foldl addKey (addKey keys x) = addKey keys x := by
    intro n
    induction n with
    | zero => rfl
    | succ n ih => rw [List.replicate_succ, List.foldl_cons, addKey_of_mem hmem, ih]
  cases n with
  | zero => rfl
  | succ n => rw [List.replicate_succ, List.foldl_cons, hstays, if_neg (Nat.succ_ne_zero n)]

end Table

namespace CommandLine

/-! ## 2. What is relied on -/

/-- A way to ask for the run of a script with its report as JSON. -/
structure Invocation where
  path : String
  contract : String
  /-- The values of `--balance`. -/
  items : List String
  /-- The value of `--max-steps`. -/
  steps : String
  legacy : Bool
  trace : Bool

namespace Invocation

/-- The words that spell the options. -/
def optionWords (invocation : Invocation) : List String :=
  ["--json-output", "-c", invocation.contract] ++
    invocation.items.flatMap (fun item => ["-b", item]) ++
      ["--max-steps", invocation.steps] ++
        (if invocation.legacy then ["--legacy"] else []) ++
          if invocation.trace then ["--trace"] else []

/-- The words of the command line. -/
def words (invocation : Invocation) : List String :=
  "run" :: (invocation.optionWords ++ ["--", invocation.path])

/-- The options as they are meant. -/
def options (invocation : Invocation) (balances : Table String Int) (maxSteps : Int) :
    RunOptions where
  balances := balances
  json := true
  maxSteps := maxSteps
  legacy := invocation.legacy
  trace := invocation.trace

end Invocation

/-- What a run relies on in a toolkit. -/
structure Toolkit.Laws (toolkit : Toolkit) : Prop where
  /-- The values of options are passed on: items to their reader, the limit of steps as an integer,
  and all others as they are. -/
  read_words (invocation : Invocation) {readItems : List String → Except String (Table String Int)}
    {files : Files} {bytes : ByteArray} {balances : Table String Int} {maxSteps : Int}
    (hpath : '\x00' ∉ invocation.path.toList) (hfile : files invocation.path = some (.file bytes))
    (hitems : readItems invocation.items = .ok balances)
    (hsteps : Text.readInteger invocation.steps = some maxSteps) :
    toolkit.read readItems files invocation.words =
      .ok (.run invocation.path invocation.contract (invocation.options balances maxSteps))
  /-- A line without escape characters is written as it is. -/
  echo_plain {line : String} (h : '\x1b' ∉ line.toList) : toolkit.echo line = line ++ "\n"

/-! ## 3. Words that spell options -/

/-- The long or the short name of an option. -/
def Knob.IsWord (knob : Knob) (word : String) : Prop :=
  word = knob.names.1 ∨ ∃ c, knob.names.2 = some c ∧ word = String.ofList ['-', c]

/-- Words that spell options, in order: a name each, and a value in the word behind it. -/
inductive Spells : List (Knob × String) → List String → Prop
  | nil : Spells [] []
  | flag {knob : Knob} {word : String} {given : List (Knob × String)} {words : List String}
    (hk : knob.takesValue = false) (hw : knob.IsWord word) (h : Spells given words) :
    Spells ((knob, "") :: given) (word :: words)
  | value {knob : Knob} {word value : String} {given : List (Knob × String)}
    {words : List String} (hk : knob.takesValue = true) (hw : knob.IsWord word)
    (h : Spells given words) : Spells ((knob, value) :: given) (word :: value :: words)

section Spelling

variable {knob : Knob} {word : String} {given more : List (Knob × String)}
  {words rest : List String}

theorem Spells.append (h : Spells given words) (hmore : Spells more rest) :
    Spells (given ++ more) (words ++ rest) := by
  induction h with
  | nil => exact hmore
  | flag hk hw _ ih => exact .flag hk hw ih
  | value hk hw _ ih => exact .value hk hw ih

/-- A name is read as its option, with or without a value to come. -/
theorem readOptionWord_of_isWord (h : knob.IsWord word) :
    isOptionWord word = true ∧ word ≠ "--" ∧
      readOptionWord runKnobs word = .ok (if knob.takesValue then { waiting := some (knob, word) }
        else { complete := [(knob, "")] }) := by
  rcases h with rfl | ⟨c, hc, rfl⟩
  · cases knob <;> exact ⟨rfl, by decide, rfl⟩
  · cases knob <;> cases hc <;> exact ⟨rfl, by decide, rfl⟩

/-- A word that is read as complete options. -/
theorem readArguments_complete {known : List Knob} {complete : List (Knob × String)}
    (hoption : isOptionWord word = true) (hne : word ≠ "--")
    (hread : readOptionWord known word = .ok { complete }) :
    readArguments known (word :: rest) = (do
      let more ← readArguments known rest
      .ok { more with options := complete ++ more.options }) := by
  -- The recursion takes one word or two, and has no equations of its own.
  delta readArguments
  show (if word = "--" then _ else if isOptionWord word then readOptionWord known word >>= _
    else _) = _
  rw [if_neg hne, if_pos hoption, hread]
  rfl

/-- A word that is read as an option whose value is the next word. -/
theorem readArguments_waiting {known : List Knob} {value name : String}
    (hoption : isOptionWord word = true) (hne : word ≠ "--")
    (hread : readOptionWord known word = .ok { waiting := some (knob, name) }) :
    readArguments known (word :: value :: rest) = (do
      let more ← readArguments known rest
      .ok { more with options := (knob, value) :: more.options }) := by
  delta readArguments
  show (if word = "--" then _ else if isOptionWord word then readOptionWord known word >>= _
    else _) = _
  rw [if_neg hne, if_pos hoption, hread]
  rfl

/-- **Words that spell options are read back**, and what is behind `--` is plain. -/
theorem readArguments_spelled (h : Spells given words) (plain : List String) :
    readArguments runKnobs (words ++ "--" :: plain) = .ok { options := given, plain } := by
  induction h with
  | nil =>
    delta readArguments
    exact if_pos rfl
  | flag hk hw _ ih =>
    obtain ⟨hoption, hne, hread⟩ := readOptionWord_of_isWord hw
    rw [hk] at hread
    rw [List.cons_append, readArguments_complete hoption hne hread, ih]
    rfl
  | value hk hw _ ih =>
    obtain ⟨hoption, hne, hread⟩ := readOptionWord_of_isWord hw
    rw [hk] at hread
    rw [List.cons_append, List.cons_append, readArguments_waiting hoption hne hread, ih]
    rfl

end Spelling

/-! ## 4. Values that are taken over -/

/-- The limit of steps is taken over, or is no integer. -/
theorem Gathered.set_maxSteps (readItems : List String → Except String (Table String Int))
    (gathered : Gathered) (steps : String) : gathered.set readItems .maxSteps [steps] =
      match Text.readInteger steps with
      | some maxSteps => .ok { gathered with maxSteps }
      | none => .error (.maxStepsNotInteger steps) := rfl

namespace Invocation

variable (invocation : Invocation) (readItems : List String → Except String (Table String Int))

/-- The options of the invocation. -/
def given : List (Knob × String) :=
  [(.jsonOutput, ""), (.contract, invocation.contract)] ++
    invocation.items.map (fun item => (.balance, item)) ++
      [(.maxSteps, invocation.steps)] ++
        (if invocation.legacy then [(.legacy, "")] else []) ++
          if invocation.trace then [(.trace, "")] else []

theorem spells_optionWords : Spells invocation.given invocation.optionWords := by
  have hflag {knob : Knob} (on : Bool) (hk : knob.takesValue = false) :
      Spells (if on then [(knob, "")] else []) (if on then [knob.names.1] else []) := by
    cases on
    · exact .nil
    · exact .flag hk (.inl rfl) .nil
  have hbalances : ∀ items : List String,
      Spells (items.map fun item => (.balance, item)) (items.flatMap fun item => ["-b", item]) := by
    intro items
    induction items with
    | nil => exact .nil
    | cons item rest ih => exact .value rfl (.inr ⟨'b', rfl, rfl⟩) ih
  have hfirst : Spells [(.jsonOutput, ""), (.contract, invocation.contract)]
      ["--json-output", "-c", invocation.contract] :=
    .flag rfl (.inl rfl) (.value rfl (.inr ⟨'c', rfl, rfl⟩) .nil)
  have hsteps : Spells [(.maxSteps, invocation.steps)] ["--max-steps", invocation.steps] :=
    .value rfl (.inl rfl) .nil
  exact (((hfirst.append (hbalances invocation.items)).append hsteps).append
    (hflag invocation.legacy rfl)).append (hflag invocation.trace rfl)

/-- The options in the order of their first appearance: those before the limit of steps. -/
def firstKnobs : List Knob :=
  [.jsonOutput, .contract] ++ if invocation.items.length = 0 then [] else [.balance]

/-- The flags that are given behind the limit of steps. -/
def lastKnobs : List Knob :=
  (if invocation.legacy then [.legacy] else []) ++ if invocation.trace then [.trace] else []

/-- The options in the order of their first appearance. -/
theorem keys_given : (Table.ofPairs invocation.given).keys =
    invocation.firstKnobs ++ .maxSteps :: invocation.lastKnobs := by
  have hbalances : (invocation.items.map fun item => (Knob.balance, item)).map Prod.fst =
      List.replicate invocation.items.length .balance := by
    rw [List.map_map]
    exact List.map_const' ..
  rw [Table.keys_ofPairs, given, firstKnobs, lastKnobs]
  simp only [List.map_append, hbalances, List.foldl_append, Table.foldl_addKey_replicate]
  split
  · cases invocation.legacy <;> cases invocation.trace <;> rfl
  · cases invocation.legacy <;> cases invocation.trace <;> rfl

theorem keys_groupOptions :
    (groupOptions invocation.given).keys = (Table.ofPairs invocation.given).keys := by
  rw [groupOptions]
  exact List.map_map.trans (List.map_id _)

theorem balance_mem_keys :
    Knob.balance ∈ (groupOptions invocation.given).keys ↔ invocation.items ≠ [] := by
  rw [keys_groupOptions, keys_given, firstKnobs, lastKnobs]
  by_cases h : invocation.items = []
  · rw [h]
    cases invocation.legacy <;> cases invocation.trace <;> decide
  · simp [h]

/-- The values that are given for an option. -/
def valuesOf (knob : Knob) : List String := (invocation.given.filter (·.1 == knob)).map Prod.snd

theorem valuesOf_contract : invocation.valuesOf .contract = [invocation.contract] := by
  unfold valuesOf given
  cases invocation.legacy <;> cases invocation.trace <;>
    simp [List.filter_append, List.filter_map]

theorem valuesOf_balance : invocation.valuesOf .balance = invocation.items := by
  unfold valuesOf given
  cases invocation.legacy <;> cases invocation.trace <;>
    simp [List.filter_append, List.filter_map, Function.comp_def]

theorem valuesOf_maxSteps : invocation.valuesOf .maxSteps = [invocation.steps] := by
  unfold valuesOf given
  cases invocation.legacy <;> cases invocation.trace <;>
    simp [List.filter_append, List.filter_map]

/-- Takes over the values of some of the options. -/
def take (knobs : List Knob) (gathered : Gathered) : Except UsageError Gathered :=
  knobs.foldlM (fun gathered knob => gathered.set readItems knob (invocation.valuesOf knob))
    gathered

/-- What is gathered from the options. -/
def gathered (balances : Table String Int) (maxSteps : Int) : Gathered :=
  { invocation.options balances maxSteps with contract := some invocation.contract }

theorem take_groupOptions : (groupOptions invocation.given).foldlM
    (fun gathered given => gathered.set readItems given.1 given.2) ({} : Gathered) =
      invocation.take readItems
        (invocation.firstKnobs ++ .maxSteps :: invocation.lastKnobs) {} := by
  rw [groupOptions, List.foldlM_map, keys_given]
  rfl

variable {invocation readItems}

theorem take_append {first second : List Knob} {gathered taken : Gathered}
    (h : invocation.take readItems first gathered = .ok taken) :
    invocation.take readItems (first ++ second) gathered =
      invocation.take readItems second taken := by
  have happend : invocation.take readItems (first ++ second) gathered =
      invocation.take readItems first gathered >>= invocation.take readItems second :=
    List.foldlM_append
  rw [happend, h]
  rfl

/-- The balances that are gathered, which are none if there are no items. -/
def gatheredBalances (invocation : Invocation) (balances : Table String Int) : Table String Int :=
  if invocation.items = [] then [] else balances

/-- The contract and the balances are taken over, however many items there are. -/
theorem take_firstKnobs {balances : Table String Int}
    (hitems : readItems invocation.items = .ok balances) :
    invocation.take readItems invocation.firstKnobs {} = .ok
      { contract := some invocation.contract, json := true
        balances := invocation.gatheredBalances balances } := by
  have hfirst : invocation.take readItems [.jsonOutput, .contract] {} =
      .ok { contract := some invocation.contract, json := true } := by
    have hset : Gathered.set readItems { json := true } .contract [invocation.contract] =
        .ok { contract := some invocation.contract, json := true } := rfl
    rw [← hset, ← valuesOf_contract]
    rfl
  rw [firstKnobs, take_append hfirst, gatheredBalances]
  by_cases h : invocation.items = []
  · rw [if_pos (List.length_eq_zero_iff.mpr h), if_pos h]
    rfl
  · rw [if_neg (mt List.length_eq_zero_iff.mp h), if_neg h]
    rw [take, List.foldlM_cons, valuesOf_balance, Gathered.set, hitems]
    rfl

/-- Both flags are taken over. -/
theorem take_lastKnobs {gathered : Gathered} (hl : gathered.legacy = false)
    (ht : gathered.trace = false) : invocation.take readItems invocation.lastKnobs gathered =
      .ok { gathered with legacy := invocation.legacy, trace := invocation.trace } := by
  obtain ⟨⟨balances, json, maxSteps, legacy, trace, verbose⟩, contract⟩ := gathered
  cases hl
  cases ht
  rw [lastKnobs]
  cases invocation.legacy <;> cases invocation.trace <;> rfl

/-- Options are gathered up to the limit of steps. -/
theorem take_limit {balances : Table String Int} {knobs : List Knob}
    (hitems : readItems invocation.items = .ok balances) :
    invocation.take readItems (invocation.firstKnobs ++ .maxSteps :: knobs) {} =
      invocation.take readItems (.maxSteps :: knobs)
        { contract := some invocation.contract, json := true
          balances := invocation.gatheredBalances balances } :=
  take_append (take_firstKnobs hitems)

/-- **The options of an invocation are gathered.** -/
theorem take_given {balances : Table String Int} {maxSteps : Int}
    (hitems : readItems invocation.items = .ok balances)
    (hsteps : Text.readInteger invocation.steps = some maxSteps) :
    invocation.take readItems (invocation.firstKnobs ++ .maxSteps :: invocation.lastKnobs) {} =
      .ok (invocation.gathered (invocation.gatheredBalances balances) maxSteps) := by
  rw [take_limit hitems, take, List.foldlM_cons, valuesOf_maxSteps, Gathered.set_maxSteps, hsteps]
  exact take_lastKnobs rfl rfl

/-- Nothing is gathered if the limit of steps is no integer. -/
theorem take_given_unreadable {balances : Table String Int}
    (hitems : readItems invocation.items = .ok balances)
    (hsteps : Text.readInteger invocation.steps = none) :
    invocation.take readItems (invocation.firstKnobs ++ .maxSteps :: invocation.lastKnobs) {} =
      .error (.maxStepsNotInteger invocation.steps) := by
  rw [take_limit hitems, take, List.foldlM_cons, valuesOf_maxSteps, Gathered.set_maxSteps, hsteps]
  rfl

/-! ## 5. The reference toolkit -/

/-- What is done with options may be a mistake of the user. -/
theorem foldlM_lift {α β : Type} {f : α → β → Except UsageError α} : ∀ {steps : List β} {a : α},
    steps.foldlM (fun a step => (liftM (f a step) : Except Ending α)) a =
      (steps.foldlM f a).mapError .usage
  | [], _ => rfl
  | step :: rest, a => by
    rw [List.foldlM_cons, List.foldlM_cons]
    cases f a step with
    | error => rfl
    | ok next => exact foldlM_lift

theorem asksHelp_given (plain : List String) :
    asksHelp { options := invocation.given, plain } = false := by
  unfold asksHelp given
  cases invocation.legacy <;> cases invocation.trace <;> simp

variable {files : Files} {bytes : ByteArray}

/-- Words are read by gathering the options, and then the path. -/
theorem readWords_words (hpath : '\x00' ∉ invocation.path.toList)
    (hfile : files invocation.path = some (.file bytes)) :
    readWords readItems files invocation.words = (do
      let gathered ← (invocation.take readItems
        (invocation.firstKnobs ++ .maxSteps :: invocation.lastKnobs) {}).mapError Ending.usage
      match gathered.contract with
      | none => throw (.usage .contractMissing)
      | some contract =>
        let gathered ← if Knob.balance ∈ (groupOptions invocation.given).keys then pure gathered
          else gathered.set readItems .balance []
        return .run invocation.path contract gathered.toRunOptions) := by
  have hcommand : readWords readItems files invocation.words =
      readRun readItems files (invocation.optionWords ++ ["--", invocation.path]) := rfl
  have hscript : scriptArgument files [invocation.path] = .ok invocation.path := by
    rw [scriptArgument, if_neg (by simpa using hpath), hfile]
  have hread := readArguments_spelled invocation.spells_optionWords [invocation.path]
  rw [hcommand, readRun, hread]
  show (if asksHelp { options := invocation.given, plain := [invocation.path] } then _ else _) = _
  rw [asksHelp_given]
  show (List.foldlM _ _ _ >>= _) = _
  rw [foldlM_lift, take_groupOptions]
  refine congrArg _ (funext fun gathered => ?_)
  show (scriptArgument files [invocation.path] >>= _) = _
  rw [hscript]
  rfl

/-- **Words are read back** as the command that they were made for. -/
theorem readWords_readable {balances : Table String Int} {maxSteps : Int}
    (hpath : '\x00' ∉ invocation.path.toList)
    (hfile : files invocation.path = some (.file bytes))
    (hitems : readItems invocation.items = .ok balances)
    (hsteps : Text.readInteger invocation.steps = some maxSteps) :
    readWords readItems files invocation.words =
      .ok (.run invocation.path invocation.contract (invocation.options balances maxSteps)) := by
  have hmem := balance_mem_keys invocation
  rw [readWords_words hpath hfile, take_given hitems hsteps, gatheredBalances]
  by_cases hempty : invocation.items = []
  · -- No item is given, and the reader is asked for the balances of none.
    have hset : (invocation.gathered [] maxSteps).set readItems .balance [] =
        .ok (invocation.gathered balances maxSteps) := by
      rw [Gathered.set, ← hempty, hitems]
      rfl
    rw [if_pos hempty]
    simp only [if_neg fun h => hmem.mp h hempty]
    show ((liftM ((invocation.gathered [] maxSteps).set readItems .balance []) :
      Except Ending Gathered) >>= _) = _
    rw [hset]
    rfl
  · rw [if_neg hempty]
    simp only [if_pos (hmem.mpr hempty)]
    rfl

/-- A limit of steps that is no integer is told as a mistake. -/
theorem readWords_unreadable {balances : Table String Int}
    (hpath : '\x00' ∉ invocation.path.toList)
    (hfile : files invocation.path = some (.file bytes))
    (hitems : readItems invocation.items = .ok balances)
    (hsteps : Text.readInteger invocation.steps = none) :
    readWords readItems files invocation.words =
      .error (.usage (.maxStepsNotInteger invocation.steps)) := by
  rw [readWords_words hpath hfile, take_given_unreadable hitems hsteps]
  rfl

end Invocation

/-- **The reference toolkit keeps the laws.** -/
theorem laws_referenceToolkit : referenceToolkit.Laws where
  read_words _ _ _ _ _ _ hpath hfile hitems hsteps :=
    congrArg (Except.mapError Ending.outcome)
      (Invocation.readWords_readable hpath hfile hitems hsteps)
  echo_plain {line} h := congrArg (· ++ "\n") (Text.dropSequences_of_not_mem line h)

end CommandLine

end LedgerScript
