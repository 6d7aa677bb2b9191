/-
# Similar words

How alike two words are is measured by what they have in common: their longest common block, and
then, on either side of it, the same again.  The measure is twice the common length over the length
of both words.  Of several longest blocks the one that starts first in the first word counts, and
then the one that starts first in the second.
-/

namespace LedgerScript.Text

/-- The length of the common start of two words. -/
def commonStart : List Char → List Char → Nat
  | a :: as, b :: bs => if a = b then commonStart as bs + 1 else 0
  | _, _ => 0

/-- A block that two words share: where it starts in each, and its length. -/
structure CommonBlock where
  first : Nat
  second : Nat
  length : Nat

/-- The longest common block of two words. -/
def longestBlock (a b : List Char) : CommonBlock :=
  (List.range a.length).foldl (fun best i =>
    (List.range b.length).foldl (fun best j =>
      let n := commonStart (a.drop i) (b.drop j)
      if best.length < n then ⟨i, j, n⟩ else best) best) ⟨0, 0, 0⟩

/-- The length that two words have in common, found in at most `bound` rounds. -/
def commonLength : (bound : Nat) → List Char → List Char → Nat
  | 0, _, _ => 0
  | bound + 1, a, b =>
    let block := longestBlock a b
    if block.length = 0 then 0
    else commonLength bound (a.take block.first) (b.take block.second) + block.length
      + commonLength bound (a.drop (block.first + block.length))
          (b.drop (block.second + block.length))

/-- The measure of likeness, as numerator and denominator. -/
def likeness (a b : String) : Nat × Nat :=
  (2 * commonLength (a.length + 1) a.toList b.toList, a.length + b.length)

/-- The words that are alike to a given one in at least six parts of ten: the best three, sorted. -/
def similarWords (word : String) (words : List String) : List String :=
  let rated := words.map fun w => (likeness w word, w)
  let close := rated.filter fun r => decide (6 * r.1.2 ≤ 10 * r.1.1)
  let better := fun (x y : (Nat × Nat) × String) =>
    let left := x.1.1 * y.1.2
    let right := y.1.1 * x.1.2
    decide (right < left) || (left == right && decide (y.2 ≤ x.2))
  (((close.mergeSort better).take 3).map Prod.snd).mergeSort fun a b => decide (a ≤ b)

end LedgerScript.Text
