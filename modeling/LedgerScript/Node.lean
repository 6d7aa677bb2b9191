/-
# Forms

A script is a forest of forms: numbers, identifiers, operators, and lists of forms.  A list that
starts with a form gives it the role of a head; the rest are operands.
-/
import LedgerScript.Text.Decimal

namespace LedgerScript

/-- A form of the language. -/
inductive Node where
  | number (value : Int)
  | ident (name : String)
  /-- Any other bare symbol. -/
  | operator (symbol : String)
  | list (children : List Node)

namespace Node

/-- The text by which a form is recognised: an atom's own, a list's from its first child if that
is an atom.  A number that is too long to be written has none. -/
def headText : Node → Except HostFault String
  | number value => Text.writeInteger value
  | ident name => .ok name
  | operator symbol => .ok symbol
  | list [] => .ok ""
  | list (list _ :: _) => .ok ""
  | list (number value :: _) => Text.writeInteger value
  | list (ident name :: _) => .ok name
  | list (operator symbol :: _) => .ok symbol

/-- The operands of a list; an atom has none to speak of. -/
def operands? : Node → Option (List Node)
  | list children => some children.tail
  | _ => none

mutual

/-- The number of forms in a form, itself included. -/
def size : Node → Nat
  | list children => sizes children + 1
  | _ => 1

/-- The number of forms in a forest. -/
def sizes : List Node → Nat
  | [] => 0
  | node :: rest => size node + sizes rest

end

theorem size_pos (node : Node) : 0 < size node := by cases node <;> simp [size]

end Node

end LedgerScript
