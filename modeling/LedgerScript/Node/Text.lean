/-
# Forms and their text

The forms of a token row are built with a stack: the list being filled, youngest form first, and
the lists around it.  A row is read exactly if its parentheses balance.

A list is written in parentheses with a blank between its children, a forest with one form a line.
The text is produced with a work list, so that no nesting is too deep for it: each step writes a
piece or replaces a list by its parts, and `Piece.costs` counts the steps that are left.  Only a
number that is too long to be written keeps a form from having a text.
-/
import LedgerScript.Node
import LedgerScript.ScriptError
import LedgerScript.Token

namespace LedgerScript.Node

/-! ## 1. From tokens to forms -/

/-- The form of a token that is no parenthesis. -/
def ofToken : Token → Node
  | .number _ value => .number value
  | .identifier text => .ident text
  | token => .operator token.text

/-- Reads the tokens from a position on, inside the lists that are open there. -/
def parseFrom (position : Nat) (current : List Node) (around : List (List Node)) :
    List Token → Except ScriptError (List Node)
  | [] => if around.isEmpty then .ok current.reverse else .error (.unclosed around.length)
  | .openParen :: rest => parseFrom (position + 1) [] (current :: around) rest
  | .closeParen :: rest =>
    match around with
    | [] => .error (.unexpectedClose position)
    | outer :: further =>
      parseFrom (position + 1) (.list current.reverse :: outer) further rest
  | token :: rest => parseFrom (position + 1) (ofToken token :: current) around rest

/-- The forest of a token row. -/
def ofTokens (tokens : List Token) : Except ScriptError (List Node) := parseFrom 0 [] [] tokens

/-! ## 2. Pieces of pending text -/

/-- What is still to be written: literal text, or a form. -/
inductive Piece where
  | text (s : String)
  | form (node : Node)

namespace Piece

/-- The children of a list, with a blank before each of them but the first. -/
def spaced : List Node → List Piece
  | [] => []
  | [node] => [.form node]
  | node :: rest => .form node :: .text " " :: spaced rest

/-- The most steps that writing a piece can take. -/
def cost : Piece → Nat
  | .text _ => 1
  | .form node => 4 * node.size - 1

/-- The most steps that writing pieces can take. -/
def costs : List Piece → Nat
  | [] => 0
  | piece :: rest => cost piece + costs rest

theorem costs_append (xs ys : List Piece) : costs (xs ++ ys) = costs xs + costs ys := by
  induction xs with
  | nil => simp [costs]
  | cons x xs ih => simp [costs, ih, Nat.add_assoc]

theorem costs_spaced (children : List Node) : costs (spaced children) ≤ 4 * sizes children := by
  fun_induction spaced children with
  | case1 => simp [costs]
  | case2 node => simp [costs, cost, sizes]
  | case3 node rest _ ih =>
    have := size_pos node
    simp only [costs, cost, sizes]
    omega

/-! ## 3. Writing -/

/-- Writes pieces after what is already written; the first number that is too long ends it. -/
def write (out : String) : List Piece → Except HostFault String
  | [] => .ok out
  | .text s :: rest => write (out ++ s) rest
  | .form (.list children) :: rest =>
    write out (.text "(" :: (spaced children ++ .text ")" :: rest))
  | .form atom :: rest => do
    let shown ← atom.headText
    write (out ++ shown) rest
termination_by pieces => costs pieces
decreasing_by
  · simp [costs, cost]
  · have := costs_spaced children
    simp only [costs, cost, costs_append, size]
    omega
  · have := size_pos atom
    simp only [costs, cost]
    omega

end Piece

/-- The text of a form. -/
def text (node : Node) : Except HostFault String := Piece.write "" [.form node]

/-- The text of a forest, one form a line. -/
def forestText (forms : List Node) : Except HostFault String := do
  let texts ← forms.mapM text
  return "\n".intercalate texts

end LedgerScript.Node
