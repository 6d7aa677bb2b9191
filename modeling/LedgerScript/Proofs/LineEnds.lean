/-
# Line ends do not matter

A script file may end its lines in a carriage return and a line feed, and the script that is read
from it has line feeds only.  A scanner does not notice: outside a comment the carriage return is a
blank in front of a blank, inside one it is skipped, and either way the line feed ends what is
being read.  A carriage return that stands alone is another matter, since it becomes a line feed
and would end a comment, so every carriage return is asked to have its line feed (`Paired`).

The texts have the same tokens, so the runs are the same, to the last record of the log
(`interpret_unified`).
-/
import LedgerScript.CommandLine.Commands
import LedgerScript.Proofs.Scanning

namespace LedgerScript

namespace ScriptFile

/-! ## 1. Paired line ends -/

/-- Every carriage return is directly before a line feed. -/
def Paired (text : List Char) : Prop :=
  ∀ before after, text = before ++ '\r' :: after → ∃ rest, after = '\n' :: rest

variable {c : Char} {text rest : List Char}

theorem Paired.tail (h : Paired (c :: text)) : Paired text := by
  rintro before after rfl
  exact h (c :: before) after rfl

/-- A text that starts with a carriage return goes on with a line feed. -/
theorem Paired.of_carriageReturn (h : Paired ('\r' :: text)) :
    ∃ rest, text = '\n' :: rest := h [] text rfl

theorem paired_nil : Paired [] := fun _ _ h => by simp at h

theorem paired_cons : Paired (c :: text) ↔ (c = '\r' → text.head? = some '\n') ∧ Paired text := by
  constructor
  · refine fun h => ⟨?_, h.tail⟩
    rintro rfl
    obtain ⟨rest, rfl⟩ := h.of_carriageReturn
    rfl
  · rintro ⟨hc, h⟩ before after heq
    cases before with
    | nil =>
      cases heq
      exact List.head?_eq_some_iff.mp (hc rfl)
    | cons d before =>
      cases heq
      exact h before after rfl

/-- Whether line ends are paired is found in one pass. -/
instance decidablePaired : ∀ text : List Char, Decidable (Paired text)
  | [] => isTrue paired_nil
  | _ :: text =>
    have := decidablePaired text
    decidable_of_iff' _ paired_cons

theorem unifyLineEnds_pair (rest : List Char) :
    unifyLineEnds ('\r' :: '\n' :: rest) = '\n' :: unifyLineEnds rest := rfl

theorem unifyLineEnds_cons (hc : c ≠ '\r') (rest : List Char) :
    unifyLineEnds (c :: rest) = c :: unifyLineEnds rest := by
  rw [unifyLineEnds]
  · rintro _ rfl
    exact absurd rfl hc
  · rintro rfl
    exact absurd rfl hc

/-- The script that is read from a file with this text. -/
theorem script_toUTF8 (text : String) :
    script text.toUTF8 = .ok (String.ofList (unifyLineEnds text.toList)) := by
  have hdecode : String.fromUTF8? text.toUTF8 = some text := by
    rw [String.fromUTF8?, String.toUTF8, dif_pos text.isValidUTF8]
    rfl
  rw [script, hdecode]

end ScriptFile

/-! ## 2. What the scanner sees -/

namespace Token

open ScriptFile

/-- A line feed ends what is being read, with or without a carriage return in front of it. -/
theorem scan_pair (fragment : List Char) (inComment : Bool) (rest : List Char) :
    scan fragment inComment ('\r' :: '\n' :: rest) = scan fragment inComment ('\n' :: rest) := by
  cases inComment with
  | false =>
    have hblank : Text.isBlank '\r' = true := by decide
    rw [scan_blank hblank, scan_lineFeed, scan_lineFeed]
    rfl
  | true => rw [scan_comment (by decide)]

/-- **The scanner does not notice** how the lines of a text end. -/
theorem scan_unifyLineEnds {text : List Char} (h : Paired text) :
    ∀ (fragment : List Char) (inComment : Bool),
      scan fragment inComment (unifyLineEnds text) = scan fragment inComment text := by
  induction text using unifyLineEnds.induct with
  | case1 rest ih =>
    intro fragment inComment
    rw [scan_pair, unifyLineEnds_pair, scan_lineFeed, scan_lineFeed, ih h.tail.tail]
  | case2 rest hne =>
    obtain ⟨after, rfl⟩ := h.of_carriageReturn
    exact absurd rfl (hne after)
  | case3 c rest hne hc ih =>
    intro fragment inComment
    rw [unifyLineEnds_cons hc, scan, scan]
    simp only [ih h.tail]
  | case4 => exact fun _ _ => rfl

/-- A text has the tokens of its script. -/
theorem ofText_unifyLineEnds {text : String} (h : Paired text.toList) :
    ofText (String.ofList (unifyLineEnds text.toList)) = ofText text := by
  rw [ofText_eq_scanned, ofText_eq_scanned, scanned, scanned, lexemes, lexemes,
    String.toList_ofList, scan_unifyLineEnds h]

end Token

/-! ## 3. What a run sees -/

namespace Run

/-- **A run does not notice** how the lines of its script end. -/
theorem interpret_unified {text : String} (h : ScriptFile.Paired text.toList) (setting : Setting)
    (ledger : Ledger) (bindings : Table String Value) (lists : Bool) :
    interpret setting (String.ofList (ScriptFile.unifyLineEnds text.toList)) ledger bindings lists =
      interpret setting text ledger bindings lists := by
  have hread : readScript (String.ofList (ScriptFile.unifyLineEnds text.toList)) =
      readScript text := by
    unfold readScript
    rw [Token.ofText_unifyLineEnds h]
  unfold interpret run runScript
  rw [hread]

end Run

end LedgerScript
