/-
# Control sequences

A control sequence tells a terminal to do something, such as to change its colour.  It is the
escape character and an opening bracket, then parameters from `0` to `?`, then intermediates from
the blank to `/`, and one final character from `@` to `~`.  What does not go to a terminal is
written without control sequences.

`dropSequences_of_not_mem` says that a text without an escape character is left as it is.
-/

namespace LedgerScript.Text

/-- The character that starts a control sequence. -/
def escape : Char := '\x1b'

/-- The length of the control sequence that a text starts with; zero if it starts with none. -/
def sequenceLength : List Char → Nat
  | first :: '[' :: rest =>
    let parameters := rest.takeWhile fun c => decide ('0' ≤ c ∧ c ≤ '?')
    let rest := rest.drop parameters.length
    let intermediates := rest.takeWhile fun c => decide (' ' ≤ c ∧ c ≤ '/')
    match rest.drop intermediates.length with
    | final :: _ =>
      if first = escape ∧ '@' ≤ final ∧ final ≤ '~' then
        3 + parameters.length + intermediates.length
      else 0
    | [] => 0
  | _ => 0

/-- Drops the control sequences of a text, after as many characters as are still to be skipped;
what is kept so far is given in reverse. -/
def dropSequencesFrom (skip : Nat) (kept : List Char) : List Char → List Char
  | [] => kept.reverse
  | c :: rest =>
    match skip, sequenceLength (c :: rest) with
    | skip + 1, _ => dropSequencesFrom skip kept rest
    | 0, 0 => dropSequencesFrom 0 (c :: kept) rest
    | 0, length + 1 => dropSequencesFrom length kept rest

/-- A text without its control sequences. -/
def dropSequences (text : String) : String := String.ofList (dropSequencesFrom 0 [] text.toList)

theorem sequenceLength_of_ne {c : Char} (h : c ≠ escape) (rest : List Char) :
    sequenceLength (c :: rest) = 0 := by
  unfold sequenceLength
  split
  · next heq =>
    obtain ⟨rfl, _⟩ := List.cons.inj heq
    dsimp only
    split <;> simp [h]
  · rfl

theorem dropSequencesFrom_of_not_mem (text kept : List Char) (h : escape ∉ text) :
    dropSequencesFrom 0 kept text = kept.reverse ++ text := by
  induction text generalizing kept with
  | nil => simp [dropSequencesFrom]
  | cons c rest ih =>
    have hc : c ≠ escape := fun he => h (he ▸ List.mem_cons_self)
    have hr : escape ∉ rest := fun he => h (List.mem_cons_of_mem _ he)
    simp [dropSequencesFrom, sequenceLength_of_ne hc, ih (c :: kept) hr]

/-- A text without an escape character is left as it is. -/
theorem dropSequences_of_not_mem (text : String) (h : escape ∉ text.toList) :
    dropSequences text = text := by
  rw [dropSequences, dropSequencesFrom_of_not_mem _ _ h]
  simp

end LedgerScript.Text
