/-
# Blank characters, and cutting text at a class of characters

Script text is cut twice: into lines at the line feed, and each line into fragments at blanks.
Blank is every character of the Unicode whitespace and separator classes together with the four
information separators U+001C to U+001F.

`intercalate_lines` says that cutting into lines loses nothing but the line feeds.
-/

namespace LedgerScript.Text

/-! ## 1. The class of blanks -/

/-- The blocks of blank characters, as first and last code point. -/
def blankBlocks : List (Nat × Nat) :=
  [(0x0009, 0x000D), (0x001C, 0x0020), (0x0085, 0x0085), (0x00A0, 0x00A0), (0x1680, 0x1680),
   (0x2000, 0x200A), (0x2028, 0x2029), (0x202F, 0x202F), (0x205F, 0x205F), (0x3000, 0x3000)]

/-- Whether a code point lies in one of some blocks. -/
def inBlocks (blocks : List (Nat × Nat)) (n : Nat) : Bool :=
  blocks.any fun b => decide (b.1 ≤ n ∧ n ≤ b.2)

/-- A blank ends a fragment and belongs to none. -/
def isBlank (c : Char) : Bool := inBlocks blankBlocks c.toNat

/-! ## 2. Cutting -/

/-- Puts a character in front of the first segment. -/
def extendFirst (c : Char) : List (List Char) → List (List Char)
  | [] => [[c]]
  | segment :: rest => (c :: segment) :: rest

/-- The segments between the characters of a class; `k` cuts make `k + 1` segments. -/
def splitOn (cut : Char → Bool) (text : List Char) : List (List Char) :=
  text.foldr (fun c segments => if cut c then [] :: segments else extendFirst c segments) [[]]

/-- Lines end at a line feed and at nothing else. -/
def lines (text : List Char) : List (List Char) := splitOn (· == '\n') text

/-- The fragments of a line: its longest runs without a blank. -/
def fragments (line : List Char) : List (List Char) :=
  (splitOn isBlank line).filter fun segment => !segment.isEmpty

/-! ## 3. What cutting keeps -/

theorem splitOn_nil (cut : Char → Bool) : splitOn cut [] = [[]] := rfl

theorem splitOn_cons (cut : Char → Bool) (c : Char) (text : List Char) :
    splitOn cut (c :: text) =
      if cut c then [] :: splitOn cut text else extendFirst c (splitOn cut text) := rfl

theorem splitOn_ne_nil (cut : Char → Bool) (text : List Char) : splitOn cut text ≠ [] := by
  induction text with
  | nil => simp [splitOn_nil]
  | cons c rest ih =>
    rw [splitOn_cons]
    split
    · simp
    · cases hs : splitOn cut rest with
      | nil => exact absurd hs ih
      | cons s ss => simp [extendFirst]

/-- Joining the lines by line feeds gives the text back. -/
theorem intercalate_lines (text : List Char) : List.intercalate ['\n'] (lines text) = text := by
  unfold lines
  induction text with
  | nil => simp [splitOn_nil, List.intercalate]
  | cons c rest ih =>
    rw [splitOn_cons]
    cases hs : splitOn (· == '\n') rest with
    | nil => exact absurd hs (splitOn_ne_nil _ _)
    | cons s ss =>
      rw [hs] at ih
      by_cases hc : c = '\n'
      · subst hc; simp [List.intercalate] at ih ⊢; exact ih
      · cases ss with
        | nil => simpa [List.intercalate, extendFirst, hc] using ih
        | cons s' ss' =>
          simp [List.intercalate, extendFirst, hc] at ih ⊢
          exact ih

end LedgerScript.Text
