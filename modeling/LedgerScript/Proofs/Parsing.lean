/-
# Forms and their tokens

A form was read from a row of tokens, and the row can be told from the form but for the leading
zeros of its numbers.  So reading undoes the listing of tokens (`ofTokens_allTokens`), and listing
them undoes the reading (`allTokens_of_ofTokens`).

What holds of the atoms of a token row, and of a list if it holds of its children, holds of all
that is read from the row (`forall_of_ofTokens`).
-/
import LedgerScript.Node.Text

namespace LedgerScript

/-- A number token with the text of its value; another token is as it was. -/
def Token.normal : Token → Token
  | .number _ value => .number (toString value) value
  | token => token

namespace Node

/-! ## 1. What is read from tokens -/

section Invariant

variable {P : Node → Prop}

theorem forall_reverse {forms : List Node} (h : ∀ form ∈ forms, P form) :
    ∀ form ∈ forms.reverse, P form :=
  fun form hmem => h form (List.mem_reverse.mp hmem)

theorem forall_of_parseFrom
    (hlist : ∀ children, (∀ child ∈ children, P child) → P (list children)) :
    ∀ (tokens : List Token) {position : Nat} {current : List Node} {around : List (List Node)}
      {forms : List Node},
    (∀ token ∈ tokens, token ≠ .openParen → token ≠ .closeParen → P (ofToken token)) →
    (∀ form ∈ current, P form) → (∀ row ∈ around, ∀ form ∈ row, P form) →
    parseFrom position current around tokens = .ok forms → ∀ form ∈ forms, P form
  | [], _, current, around, forms, _, hc, _, h => by
    unfold parseFrom at h
    split at h
    · cases h
      exact forall_reverse hc
    · cases h
  | token :: rest, position, current, around, forms, ht, hc, ha, h => by
    obtain ⟨hfirst, hrest⟩ := List.forall_mem_cons.mp ht
    -- the tokens that are no parentheses give forms of their own
    have hatom (hopen : token ≠ .openParen) (hclose : token ≠ .closeParen)
        (h : parseFrom (position + 1) (ofToken token :: current) around rest = .ok forms) :
        ∀ form ∈ forms, P form := by
      have hform := hfirst hopen hclose
      exact forall_of_parseFrom hlist rest hrest (List.forall_mem_cons.mpr ⟨hform, hc⟩) ha h
    cases token with
    | openParen =>
      have ha : ∀ row ∈ current :: around, ∀ form ∈ row, P form :=
        List.forall_mem_cons.mpr ⟨hc, ha⟩
      exact forall_of_parseFrom hlist rest hrest (fun _ h => absurd h List.not_mem_nil) ha h
    | closeParen =>
      cases around with
      | nil => cases h
      | cons outer further =>
        obtain ⟨houter, hfurther⟩ := List.forall_mem_cons.mp ha
        have hclosed : P (list current.reverse) := hlist _ (forall_reverse hc)
        exact forall_of_parseFrom hlist rest hrest (List.forall_mem_cons.mpr ⟨hclosed, houter⟩)
          hfurther h
    | number => exact hatom nofun nofun h
    | identifier => exact hatom nofun nofun h
    | symbol => exact hatom nofun nofun h

/-- **What holds of the atoms** of a row, and of lists of such forms, holds of the forms that are
read from it. -/
theorem forall_of_ofTokens {tokens : List Token} {forms : List Node}
    (hlist : ∀ children, (∀ child ∈ children, P child) → P (list children))
    (hatom : ∀ token ∈ tokens, token ≠ .openParen → token ≠ .closeParen → P (ofToken token))
    (h : ofTokens tokens = .ok forms) : ∀ form ∈ forms, P form :=
  forall_of_parseFrom hlist tokens hatom (fun _ h => absurd h List.not_mem_nil)
    (fun _ h => absurd h List.not_mem_nil) h

end Invariant

/-! ## 2. The tokens of a form -/

mutual

/-- The tokens of a form; a number is written without leading zeros. -/
def tokens : Node → List Token
  | number value => [.number (toString value) value]
  | ident name => [.identifier name]
  | operator symbol => [.symbol symbol]
  | list children => .openParen :: (allTokens children ++ [.closeParen])

/-- The tokens of a forest. -/
def allTokens : List Node → List Token
  | [] => []
  | node :: rest => tokens node ++ allTokens rest

end

theorem allTokens_append (forms others : List Node) :
    allTokens (forms ++ others) = allTokens forms ++ allTokens others := by
  induction forms with
  | nil => rfl
  | cons node rest ih => rw [List.cons_append, allTokens, allTokens, ih, List.append_assoc]

theorem allTokens_singleton (node : Node) : allTokens [node] = tokens node := by
  rw [allTokens, allTokens, List.append_nil]

mutual

/-- Reading the tokens of a form adds the form to the list that is being filled. -/
theorem parseFrom_tokens : ∀ (node : Node) (position : Nat) (current : List Node)
    (around : List (List Node)) (rest : List Token), ∃ next,
    parseFrom position current around (node.tokens ++ rest) =
      parseFrom next (node :: current) around rest
  | number _, position, _, _, _ => ⟨position + 1, rfl⟩
  | ident _, position, _, _, _ => ⟨position + 1, rfl⟩
  | operator _, position, _, _, _ => ⟨position + 1, rfl⟩
  | list children, position, current, around, rest => by
    obtain ⟨next, h⟩ := parseFrom_allTokens children (position + 1) [] (current :: around)
      (.closeParen :: rest)
    refine ⟨next + 1, ?_⟩
    rw [tokens, List.cons_append, List.append_assoc, parseFrom, List.singleton_append, h]
    rw [parseFrom, List.append_nil, List.reverse_reverse]

theorem parseFrom_allTokens : ∀ (forms : List Node) (position : Nat) (current : List Node)
    (around : List (List Node)) (rest : List Token), ∃ next,
    parseFrom position current around (allTokens forms ++ rest) =
      parseFrom next (forms.reverse ++ current) around rest
  | [], position, _, _, _ => ⟨position, rfl⟩
  | node :: forms, position, current, around, rest => by
    obtain ⟨middle, hnode⟩ := parseFrom_tokens node position current around
      (allTokens forms ++ rest)
    obtain ⟨next, hforms⟩ := parseFrom_allTokens forms middle (node :: current) around rest
    refine ⟨next, ?_⟩
    rw [allTokens, List.append_assoc, hnode, hforms]
    simp

end

/-- **The tokens of a forest** are read as the forest. -/
theorem ofTokens_allTokens (forms : List Node) : ofTokens (allTokens forms) = .ok forms := by
  obtain ⟨next, h⟩ := parseFrom_allTokens forms 0 [] [] []
  rw [List.append_nil, List.append_nil] at h
  rw [ofTokens, h, parseFrom, List.reverse_reverse]
  rfl

/-! ## 3. The tokens of what was read -/

/-- The tokens of the lists that are open while a row is read. -/
def openTokens (current : List Node) : List (List Node) → List Token
  | [] => allTokens current.reverse
  | outer :: further => openTokens outer further ++ .openParen :: allTokens current.reverse

theorem openTokens_cons (node : Node) (current : List Node) (around : List (List Node)) :
    openTokens (node :: current) around = openTokens current around ++ node.tokens := by
  cases around with
  | nil => rw [openTokens, openTokens, List.reverse_cons, allTokens_append, allTokens_singleton]
  | cons outer further =>
    rw [openTokens, openTokens, List.reverse_cons, allTokens_append, allTokens_singleton]
    simp

theorem tokens_ofToken {token : Token} (ho : token ≠ .openParen) (hc : token ≠ .closeParen) :
    (ofToken token).tokens = [token.normal] := by
  cases token with
  | openParen => exact absurd rfl ho
  | closeParen => exact absurd rfl hc
  | number text value => rfl
  | identifier text => rfl
  | symbol text => rfl

theorem allTokens_of_parseFrom : ∀ (tokens : List Token) {position : Nat} {current : List Node}
    {around : List (List Node)} {forms : List Node},
    parseFrom position current around tokens = .ok forms →
      allTokens forms = openTokens current around ++ tokens.map Token.normal
  | [], _, current, around, forms, h => by
    unfold parseFrom at h
    split at h
    · next ha =>
      cases h
      rw [List.isEmpty_iff.mp ha]
      simp [openTokens]
    · cases h
  | token :: rest, position, current, around, forms, h => by
    have hatom (hopen : token ≠ .openParen) (hclose : token ≠ .closeParen)
        (h : parseFrom (position + 1) (ofToken token :: current) around rest = .ok forms) :
        allTokens forms = openTokens current around ++ (token :: rest).map Token.normal := by
      rw [allTokens_of_parseFrom rest h, openTokens_cons, tokens_ofToken hopen hclose]
      simp
    cases token with
    | openParen =>
      rw [allTokens_of_parseFrom rest h, openTokens]
      simp [allTokens, Token.normal]
    | closeParen =>
      cases around with
      | nil => cases h
      | cons outer further =>
        rw [allTokens_of_parseFrom rest h, openTokens_cons, openTokens, tokens]
        simp [Token.normal]
    | number => exact hatom nofun nofun h
    | identifier => exact hatom nofun nofun h
    | symbol => exact hatom nofun nofun h

/-- **The tokens of what was read** are those of the row, with the numbers written anew. -/
theorem allTokens_of_ofTokens {tokens : List Token} {forms : List Node}
    (h : ofTokens tokens = .ok forms) : allTokens forms = tokens.map Token.normal :=
  allTokens_of_parseFrom tokens h

/-- Leading zeros do not matter to reading. -/
theorem parseFrom_normal : ∀ (tokens : List Token) (position : Nat) (current : List Node)
    (around : List (List Node)),
    parseFrom position current around (tokens.map Token.normal) =
      parseFrom position current around tokens
  | [], _, _, _ => rfl
  | .openParen :: rest, position, current, around =>
    parseFrom_normal rest (position + 1) [] (current :: around)
  | .closeParen :: _, _, _, [] => rfl
  | .closeParen :: rest, position, current, outer :: further =>
    parseFrom_normal rest (position + 1) (.list current.reverse :: outer) further
  | .number _ value :: rest, position, current, around =>
    parseFrom_normal rest (position + 1) (.number value :: current) around
  | .identifier text :: rest, position, current, around =>
    parseFrom_normal rest (position + 1) (.ident text :: current) around
  | .symbol text :: rest, position, current, around =>
    parseFrom_normal rest (position + 1) (.operator text :: current) around

end Node

end LedgerScript
