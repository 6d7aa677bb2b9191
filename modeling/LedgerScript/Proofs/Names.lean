/-
# The names in a script

A form can refer to a binding only through a name that is written in it, and every name of a form
was written as an identifier or a symbol of the script (`within_ofTokens`).  A closure carries its
body along, so what can be referred to through a value is bounded by the names in that body.
-/
import LedgerScript.Proofs.Parsing
import LedgerScript.Value

namespace LedgerScript

variable {N : String → Prop}

/-! ## 1. Forms and values -/

namespace Node

mutual

/-- Every name in a form is one of some names. -/
def Within (N : String → Prop) : Node → Prop
  | number _ => True
  | ident name => N name
  | operator symbol => N symbol
  | list children => AllWithin N children

/-- Every name in a forest is one of some names. -/
def AllWithin (N : String → Prop) : List Node → Prop
  | [] => True
  | node :: rest => Within N node ∧ AllWithin N rest

end

theorem allWithin_iff : ∀ {forms : List Node},
    AllWithin N forms ↔ ∀ form ∈ forms, form.Within N
  | [] => ⟨fun _ _ h => absurd h List.not_mem_nil, fun _ => trivial⟩
  | form :: rest => by rw [AllWithin, allWithin_iff, List.forall_mem_cons]

theorem within_list {children : List Node} :
    (list children).Within N ↔ ∀ child ∈ children, child.Within N := by
  rw [Within, allWithin_iff]

mutual

theorem within_true : ∀ form : Node, form.Within fun _ => True
  | number _ => trivial
  | ident _ => trivial
  | operator _ => trivial
  | list children => allWithin_true children

theorem allWithin_true : ∀ forms : List Node, AllWithin (fun _ => True) forms
  | [] => trivial
  | form :: rest => ⟨within_true form, allWithin_true rest⟩

end

end Node

/-- Every name in the body of a closure is one of some names. -/
def Value.Within (N : String → Prop) : Value → Prop
  | .closure _ body _ => body.Within N
  | _ => True

theorem Value.within_true (v : Value) : v.Within fun _ => True := by
  cases v with
  | closure _ body _ => exact body.within_true
  | _ => trivial

/-! ## 2. What is read from tokens -/

/-- A token that gives a form its name. -/
def Token.Naming (token : Token) : Prop := token.kind = .identifier ∨ token.kind = .symbol

namespace Node

/-- The form of a token has no other name than the token's text. -/
theorem within_ofToken {token : Token} (h : token.Naming → N token.text)
    (ho : token ≠ .openParen) (hc : token ≠ .closeParen) : (ofToken token).Within N := by
  cases token with
  | openParen => exact absurd rfl ho
  | closeParen => exact absurd rfl hc
  | number => exact trivial
  | identifier text => exact h (.inl rfl)
  | symbol text => exact h (.inr rfl)

/-- **The names of a forest** are the texts of identifiers and symbols that it was read from. -/
theorem within_ofTokens {tokens : List Token} {forms : List Node}
    (ht : ∀ token ∈ tokens, token.Naming → N token.text) (h : ofTokens tokens = .ok forms) :
    ∀ form ∈ forms, form.Within N :=
  forall_of_ofTokens (fun _ hw => within_list.mpr hw)
    (fun token hmem ho hc => within_ofToken (ht token hmem) ho hc) h

end Node

end LedgerScript
