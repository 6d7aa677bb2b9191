/-
# Integers that are written by hand

A user may write an integer with white space around it, with a sign, in the decimal digits of any
script, and with single underscores between the digits.  `Handwritten` says so as a grammar.  The
reader takes a text apart in three stages: it trims it, takes the sign, and cuts the rest at the
underscores.  Each stage finds the part of the grammar that it is for, and so what is read is what
the grammar allows (`readInteger_eq_some_iff`).

That there is but one way to take a text apart is because the characters of the parts are different:
a digit of no script is white space, a sign or an underscore (`of_digitValue?`).
-/
import LedgerScript.Text.Decimal
import Mathlib.Data.List.TakeWhile
import Mathlib.Data.Nat.Digits.Defs

namespace LedgerScript.Text

variable {c : Char} {d : Nat} {text digits sign : List Char} {values : List Nat} {negative : Bool}

/-! ## 1. Characters -/

/-- The blocks of white space, as first and last code point. -/
def spaceBlocks : List (Nat × Nat) :=
  [(0x0009, 0x000D), (0x0020, 0x0020), (0x0085, 0x0085), (0x00A0, 0x00A0), (0x1680, 0x1680),
   (0x2000, 0x200A), (0x2028, 0x2029), (0x202F, 0x202F), (0x205F, 0x205F), (0x3000, 0x3000)]

/-- White space, as Unicode has it. -/
def IsSpace (c : Char) : Prop := ∃ block ∈ spaceBlocks, block.1 ≤ c.toNat ∧ c.toNat ≤ block.2

/-- The margins of an integer are white space. -/
theorem isMargin_iff : isMargin c = true ↔ IsSpace c := by
  simp [isMargin, isBlank, inBlocks, blankBlocks, IsSpace, spaceBlocks]
  omega

/-- A digit stands in the run of ten that the digit zero of its script begins. -/
theorem exists_base (h : digitValue? c = some d) :
    ∃ base ∈ digitZeros, base ≤ c.toNat ∧ c.toNat < base + 10 := by
  obtain ⟨base, hbase, -⟩ := Option.map_eq_some_iff.mp h
  exact ⟨base, List.mem_of_find?_eq_some hbase, by simpa using List.find?_some hbase⟩

/-- **A digit of any script** is no margin, no sign and no underscore. -/
theorem of_digitValue? (h : digitValue? c = some d) :
    isMargin c = false ∧ c ≠ '-' ∧ c ≠ '+' ∧ c ≠ '_' := by
  obtain ⟨base, hbase, hlow, hhigh⟩ := exists_base h
  have hspaces : ∀ base ∈ digitZeros, ∀ block ∈ spaceBlocks,
      base + 10 ≤ block.1 ∨ block.2 < base := by decide +kernel
  have hothers : ∀ base ∈ digitZeros, ∀ code ∈ ['-'.toNat, '+'.toNat, '_'.toNat],
      base + 10 ≤ code ∨ code < base := by decide +kernel
  have hne {other : Char} (hother : other.toNat ∈ ['-'.toNat, '+'.toNat, '_'.toNat]) :
      c ≠ other := by
    rintro rfl
    rcases hothers base hbase _ hother with h | h <;> omega
  refine ⟨?_, hne (by decide), hne (by decide), hne (by decide)⟩
  rw [Bool.eq_false_iff, Ne, isMargin_iff]
  rintro ⟨block, hblock, hfirst, hlast⟩
  rcases hspaces base hbase block hblock with h | h <;> omega

/-! ## 2. The grammar -/

/-- Digits of any script, with single underscores between them, and their values. -/
inductive Digits : List Char → List Nat → Prop
  | last {c : Char} {d : Nat} (h : digitValue? c = some d) : Digits [c] [d]
  | next {c : Char} {d : Nat} {text : List Char} {values : List Nat} (h : digitValue? c = some d)
    (hrest : Digits text values) : Digits (c :: text) (d :: values)
  | joined {c : Char} {d : Nat} {text : List Char} {values : List Nat}
    (h : digitValue? c = some d) (hrest : Digits text values) :
    Digits (c :: '_' :: text) (d :: values)

/-- A sign or none, and whether it negates. -/
inductive Sign : List Char → Bool → Prop
  | none : Sign [] false
  | plus : Sign ['+'] false
  | minus : Sign ['-'] true

/-- A number with its sign. -/
def signed (negative : Bool) (m : Nat) : Int := if negative then -(m : Int) else m

/-- A way to take a text apart, so that it says an integer as a user writes it: white space around
it, one sign at most, and digits that are not too many. -/
structure Handwriting (n : Int) (text : List Char) where
  front : List Char
  sign : List Char
  digits : List Char
  back : List Char
  negative : Bool
  values : List Nat
  parts : text = front ++ (sign ++ digits) ++ back
  space_front : ∀ c ∈ front, IsSpace c
  space_back : ∀ c ∈ back, IsSpace c
  signs : Sign sign negative
  spells : Digits digits values
  short : values.length ≤ digitLimit
  value : n = signed negative (Nat.ofDigits 10 values.reverse)

/-- A text says an integer. -/
def Handwritten (n : Int) (text : String) : Prop := Nonempty (Handwriting n text.toList)

/-! ## 3. The stages of the reader -/

/-- What is around a trimmed text was trimmed. -/
theorem exists_trim (outer : Char → Bool) (text : List Char) :
    ∃ front back, text = front ++ trim outer text ++ back ∧ (∀ c ∈ front, outer c = true) ∧
      ∀ c ∈ back, outer c = true := by
  let rest := (text.dropWhile outer).reverse
  refine ⟨text.takeWhile outer, (rest.takeWhile outer).reverse, ?_, ?_, ?_⟩
  · calc text = text.takeWhile outer ++ text.dropWhile outer :=
          (List.takeWhile_append_dropWhile ..).symm
      _ = text.takeWhile outer ++ (rest.takeWhile outer ++ rest.dropWhile outer).reverse := by
          rw [List.takeWhile_append_dropWhile]
          simp [rest]
      _ = _ := by rw [List.reverse_append, List.append_assoc, trim]
  · exact fun c hc => List.mem_takeWhile_imp hc
  · exact fun c hc => List.mem_takeWhile_imp (List.mem_reverse.mp hc)

/-- A text that neither begins nor ends with what is trimmed is what is left of it. -/
theorem trim_append {outer : Char → Bool} {front core back : List Char} {first last : Char}
    (hfront : ∀ c ∈ front, outer c = true) (hback : ∀ c ∈ back, outer c = true)
    (hfirst : core.head? = some first) (hf : outer first = false)
    (hlast : core.getLast? = some last) (hl : outer last = false) :
    trim outer (front ++ core ++ back) = core := by
  obtain ⟨rest, rfl⟩ := List.head?_eq_some_iff.mp hfirst
  obtain ⟨init, hinit⟩ := List.getLast?_eq_some_iff.mp hlast
  have hdrop : (front ++ (first :: rest) ++ back).dropWhile outer = first :: rest ++ back := by
    rw [List.append_assoc, List.dropWhile_append_of_pos hfront, List.cons_append,
      List.dropWhile_cons_of_neg (by simp [hf])]
  have hback : ∀ c ∈ back.reverse, outer c = true := fun c hc => hback c (List.mem_reverse.mp hc)
  rw [trim, hdrop, List.reverse_append, List.dropWhile_append_of_pos hback, hinit,
    List.reverse_append, List.reverse_singleton, List.singleton_append,
    List.dropWhile_cons_of_neg (by simp [hl])]
  simp

/-- The sign that is taken stood in front. -/
theorem exists_sign (text : List Char) :
    ∃ sign, text = sign ++ (takeSign text).2 ∧ Sign sign (takeSign text).1 := by
  unfold takeSign
  split
  · exact ⟨['-'], rfl, .minus⟩
  · exact ⟨['+'], rfl, .plus⟩
  · exact ⟨[], rfl, .none⟩

/-- The sign that stands in front of another character is taken, if that is no sign. -/
theorem takeSign_append (h : Sign sign negative) {first : Char} (hfirst : digits.head? = some first)
    (hm : first ≠ '-') (hp : first ≠ '+') : takeSign (sign ++ digits) = (negative, digits) := by
  cases h with
  | plus => rfl
  | minus => rfl
  | none =>
    obtain ⟨rest, rfl⟩ := List.head?_eq_some_iff.mp hfirst
    rw [List.nil_append, takeSign]
    · intro rest heq
      exact hm (List.head_eq_of_cons_eq heq)
    · intro rest heq
      exact hp (List.head_eq_of_cons_eq heq)

/-- The values of one group of digits. -/
def groupValues? (group : List Char) : Option (List Nat) :=
  if group.isEmpty then none else group.mapM digitValue?

theorem groupedDigits?_eq (text : List Char) :
    groupedDigits? text =
      ((splitOn (· == '_') text).mapM groupValues?).map List.flatten := by
  show ((splitOn (· == '_') text).mapM groupValues? >>= fun groups => pure groups.flatten) = _
  cases (splitOn (· == '_') text).mapM groupValues? <;> rfl

@[simp] theorem groupValues?_nil : groupValues? [] = none := rfl

@[simp] theorem groupValues?_singleton (c : Char) :
    groupValues? [c] = (digitValue? c).map fun d => [d] := by
  unfold groupValues?
  cases h : digitValue? c <;> simp [h]

@[simp] theorem groupValues?_cons_cons (c c' : Char) (group : List Char) :
    groupValues? (c :: c' :: group) =
      (digitValue? c).bind fun d => (groupValues? (c' :: group)).map fun values => d :: values := by
  unfold groupValues?
  rw [if_neg nofun, if_neg nofun, List.mapM_cons]
  cases digitValue? c with
  | none => rfl
  | some d => cases (c' :: group).mapM digitValue? <;> rfl

section Grouped

variable {c' : Char}

theorem groupedDigits?_nil : groupedDigits? [] = none := by
  simp [groupedDigits?_eq, splitOn_nil]

/-- Digits do not begin with an underscore. -/
theorem groupedDigits?_underscore (rest : List Char) : groupedDigits? ('_' :: rest) = none := by
  simp [groupedDigits?_eq, splitOn_cons, List.mapM_cons]

theorem groupedDigits?_singleton (hc : c ≠ '_') :
    groupedDigits? [c] = (digitValue? c).map fun d => [d] := by
  have hsplit : splitOn (· == '_') [c] = [[c]] := by
    simp [splitOn_cons, splitOn_nil, hc, extendFirst]
  rw [groupedDigits?_eq, hsplit]
  cases h : digitValue? c <;> simp [h]

theorem groupedDigits?_joined (hc : c ≠ '_') (rest : List Char) :
    groupedDigits? (c :: '_' :: rest) =
      (digitValue? c).bind fun d => (groupedDigits? rest).map fun values => d :: values := by
  have hsplit : splitOn (· == '_') (c :: '_' :: rest) = [c] :: splitOn (· == '_') rest := by
    simp [splitOn_cons, hc, extendFirst]
  rw [groupedDigits?_eq, groupedDigits?_eq, hsplit, List.mapM_cons]
  cases h : digitValue? c with
  | none => simp [h]
  | some d => cases (splitOn (· == '_') rest).mapM groupValues? <;> simp [h]

theorem groupedDigits?_next (hc : c ≠ '_') (hc' : c' ≠ '_') (rest : List Char) :
    groupedDigits? (c :: c' :: rest) =
      (digitValue? c).bind fun d =>
        (groupedDigits? (c' :: rest)).map fun values => d :: values := by
  obtain ⟨group, groups, hgroups⟩ := List.exists_cons_of_ne_nil (splitOn_ne_nil (· == '_') rest)
  have hrest : splitOn (· == '_') (c' :: rest) = (c' :: group) :: groups := by
    simp [splitOn_cons, hc', hgroups, extendFirst]
  have hsplit : splitOn (· == '_') (c :: c' :: rest) = (c :: c' :: group) :: groups := by
    rw [splitOn_cons, hrest]
    simp [hc, extendFirst]
  rw [groupedDigits?_eq, groupedDigits?_eq, hsplit, hrest, List.mapM_cons, List.mapM_cons,
    groupValues?_cons_cons]
  cases digitValue? c with
  | none => rfl
  | some d =>
    cases groupValues? (c' :: group) with
    | none => rfl
    | some values => cases groups.mapM groupValues? <;> rfl

end Grouped

theorem Digits.exists_first (h : Digits text values) :
    ∃ c d, text.head? = some c ∧ digitValue? c = some d := by
  cases h with
  | last h => exact ⟨_, _, rfl, h⟩
  | next h => exact ⟨_, _, rfl, h⟩
  | joined h => exact ⟨_, _, rfl, h⟩

theorem Digits.exists_last (h : Digits text values) :
    ∃ c d, text.getLast? = some c ∧ digitValue? c = some d := by
  induction h with
  | last h => exact ⟨_, _, rfl, h⟩
  | next _ _ ih | joined _ _ ih =>
    obtain ⟨c, d, hlast, hd⟩ := ih
    exact ⟨c, d, by simp [hlast, List.getLast?_cons], hd⟩

/-- Digits do not begin with an underscore. -/
theorem not_digits_underscore (rest : List Char) (values : List Nat) :
    ¬ Digits ('_' :: rest) values := by
  intro h
  obtain ⟨c, d, hfirst, hd⟩ := h.exists_first
  cases hfirst
  exact (of_digitValue? hd).2.2.2 rfl

-- The cases are those of the equations: whether another digit follows at once, behind an
-- underscore, or not at all.
/-- **Cutting at underscores** finds the digits. -/
theorem groupedDigits?_eq_some_iff : ∀ {text : List Char} {values : List Nat},
    groupedDigits? text = some values ↔ Digits text values
  | [], values => by
    rw [groupedDigits?_nil]
    exact ⟨nofun, nofun⟩
  | [c], values => by
    by_cases hc : c = '_'
    · subst hc
      simp [groupedDigits?_underscore, not_digits_underscore]
    rw [groupedDigits?_singleton hc, Option.map_eq_some_iff]
    constructor
    · rintro ⟨d, hd, rfl⟩
      exact .last hd
    · intro h
      cases h with
      | last hd => exact ⟨_, hd, rfl⟩
      | next _ hrest => cases hrest
  | c :: c' :: rest, values => by
    by_cases hc : c = '_'
    · subst hc
      simp [groupedDigits?_underscore, not_digits_underscore]
    by_cases hc' : c' = '_'
    · subst hc'
      rw [groupedDigits?_joined hc]
      simp only [Option.bind_eq_some_iff, Option.map_eq_some_iff, groupedDigits?_eq_some_iff]
      constructor
      · rintro ⟨d, hd, values, hrest, rfl⟩
        exact .joined hd hrest
      · intro h
        cases h with
        | next _ hrest => exact absurd hrest (not_digits_underscore _ _)
        | joined hd hrest => exact ⟨_, hd, _, hrest, rfl⟩
    · rw [groupedDigits?_next hc hc']
      simp only [Option.bind_eq_some_iff, Option.map_eq_some_iff, groupedDigits?_eq_some_iff]
      constructor
      · rintro ⟨d, hd, values, hrest, rfl⟩
        exact .next hd hrest
      · intro h
        cases h with
        | next hd hrest => exact ⟨_, hd, _, hrest, rfl⟩
        | joined => exact absurd rfl hc'

/-! ## 4. Reading -/

/-- The number that a row of digits stands for. -/
theorem ofDigits_eq_reverse (values : List Nat) :
    ofDigits values = Nat.ofDigits 10 values.reverse := by
  rw [ofDigits, Nat.ofDigits_eq_foldr, List.foldr_reverse]
  simp [Nat.add_comm]

/-- A sign and digits begin with no margin. -/
theorem Sign.exists_first (h : Sign sign negative) (hd : Digits digits values) :
    ∃ c, (sign ++ digits).head? = some c ∧ isMargin c = false := by
  cases h with
  | none =>
    obtain ⟨c, d, hfirst, hvalue⟩ := hd.exists_first
    exact ⟨c, hfirst, (of_digitValue? hvalue).1⟩
  | plus => exact ⟨'+', rfl, by decide⟩
  | minus => exact ⟨'-', rfl, by decide⟩

section

variable {n : Int} (h : Handwriting n text)

include h

/-- Trimming leaves the sign and the digits. -/
theorem Handwriting.trim_eq : trim isMargin text = h.sign ++ h.digits := by
  obtain ⟨first, hfirst, hf⟩ := h.signs.exists_first h.spells
  obtain ⟨last, d, hlast, hl⟩ := h.spells.exists_last
  have hend : (h.sign ++ h.digits).getLast? = some last := by
    simp [List.getLast?_append, hlast]
  exact (congrArg (trim isMargin) h.parts).trans <|
    trim_append (fun c hc => isMargin_iff.mpr (h.space_front c hc))
      (fun c hc => isMargin_iff.mpr (h.space_back c hc)) hfirst hf hend (of_digitValue? hl).1

/-- Taking the sign leaves the digits. -/
theorem Handwriting.takeSign_eq : takeSign (h.sign ++ h.digits) = (h.negative, h.digits) := by
  obtain ⟨first, d, hfirst, hd⟩ := h.spells.exists_first
  obtain ⟨-, hminus, hplus, -⟩ := of_digitValue? hd
  exact takeSign_append h.signs hfirst hminus hplus

end

/-- The stages of the reader, put together. -/
theorem readInteger_eq_some {text : String} {n : Int} :
    readInteger text = some n ↔
      ∃ values, groupedDigits? (takeSign (trim isMargin text.toList)).2 = some values ∧
        values.length ≤ digitLimit ∧
        n = signed (takeSign (trim isMargin text.toList)).1 (ofDigits values) := by
  unfold readInteger
  generalize takeSign (trim isMargin text.toList) = taken
  obtain ⟨negative, digits⟩ := taken
  cases hvalues : groupedDigits? digits with
  | none => simp [hvalues]
  | some values =>
    by_cases hlength : values.length ≤ digitLimit
    · simp [hvalues, hlength, signed, eq_comm]
    · simp [hvalues, hlength]

/-- **What is read is what is written by hand.** -/
theorem readInteger_eq_some_iff {text : String} {n : Int} :
    readInteger text = some n ↔ Handwritten n text := by
  rw [readInteger_eq_some]
  constructor
  · rintro ⟨values, hvalues, hlength, hn⟩
    obtain ⟨front, back, htext, hfront, hback⟩ := exists_trim isMargin text.toList
    obtain ⟨sign, hcore, hsign⟩ := exists_sign (trim isMargin text.toList)
    exact ⟨{
      front, sign, back, values
      digits := (takeSign (trim isMargin text.toList)).2
      negative := (takeSign (trim isMargin text.toList)).1
      parts := by rw [← hcore, ← htext]
      space_front := fun c hc => isMargin_iff.mp (hfront c hc)
      space_back := fun c hc => isMargin_iff.mp (hback c hc)
      signs := hsign
      spells := groupedDigits?_eq_some_iff.mp hvalues
      short := hlength
      value := by rw [hn, ofDigits_eq_reverse] }⟩
  · rintro ⟨h⟩
    rw [h.trim_eq, h.takeSign_eq]
    exact ⟨h.values, groupedDigits?_eq_some_iff.mpr h.spells, h.short,
      h.value.trans (congrArg _ (ofDigits_eq_reverse _).symm)⟩

end LedgerScript.Text
