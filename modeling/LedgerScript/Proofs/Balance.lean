/-
# Balanced rows

A row of tokens is read exactly if its parentheses balance: no part of it from the front closes
more lists than it opens, and as a whole it closes as many (`Balanced`).  What a row that does not
balance is refused for can be told from the counts alone, without reading it: for the first place
at which it closes more than it opens, or else for the number of lists that it leaves open
(`Unbalanced`).

Both are stated for a row that is read inside lists, because that is how the rest of a row is
read.  A token then counts for or against the lists around it (`Covered.cons`,
`FirstExcess.cons`), and the stack of reading holds as many of them as there are
(`parseFrom_counted`).
-/
import LedgerScript.Proofs.Parsing

namespace LedgerScript

/-! ## 1. Counting parentheses -/

namespace Token

/-- How many lists a row opens. -/
def opens (tokens : List Token) : Nat := tokens.count .openParen

/-- How many lists a row closes. -/
def closes (tokens : List Token) : Nat := tokens.count .closeParen

/-- Inside so many lists, no part of the row from the front closes more than are open. -/
def Covered (depth : Nat) (tokens : List Token) : Prop :=
  ∀ n, closes (tokens.take n) ≤ depth + opens (tokens.take n)

/-- Inside so many lists, this is the first token with which the row closes more than are open. -/
structure FirstExcess (depth : Nat) (tokens : List Token) (p : Nat) : Prop where
  lt : p < tokens.length
  excess : depth + opens (tokens.take (p + 1)) < closes (tokens.take (p + 1))
  first : ∀ q < p, closes (tokens.take (q + 1)) ≤ depth + opens (tokens.take (q + 1))

/-- The parentheses of a row balance. -/
structure Balanced (tokens : List Token) : Prop where
  covered : Covered 0 tokens
  settled : opens tokens = closes tokens

/-- What the parentheses of a row are wrong with. -/
inductive Unbalanced (tokens : List Token) : ScriptError → Prop
  | unexpectedClose {p : Nat} (h : FirstExcess 0 tokens p) :
    Unbalanced tokens (.unexpectedClose p)
  | unclosed {k : Nat} (hc : Covered 0 tokens) (hk : 0 < k)
    (h : opens tokens = closes tokens + k) : Unbalanced tokens (.unclosed k)

theorem Unbalanced.kind {tokens : List Token} {error : ScriptError}
    (h : Unbalanced tokens error) : error.kind = .unbalancedParens := by
  cases h <;> rfl

@[simp] theorem opens_nil : opens [] = 0 := rfl

@[simp] theorem closes_nil : closes [] = 0 := rfl

variable {depth inside p : Nat} {token : Token} {rest : List Token}

theorem opens_cons (token : Token) (rest : List Token) :
    opens (token :: rest) = opens [token] + opens rest := by
  unfold opens
  rw [← List.singleton_append, List.count_append]

theorem closes_cons (token : Token) (rest : List Token) :
    closes (token :: rest) = closes [token] + closes rest := by
  unfold closes
  rw [← List.singleton_append, List.count_append]

/-! ## 2. One token more in front -/

/-- A token leads from so many open lists to as many as it opens more, or closes. -/
theorem Covered.cons (hd : depth + opens [token] = inside + closes [token])
    (h : Covered inside rest) : Covered depth (token :: rest) := by
  intro n
  cases n with
  | zero => simp
  | succ n =>
    have hn := h n
    rw [List.take_succ_cons, opens_cons, closes_cons]
    omega

theorem FirstExcess.cons (hd : depth + opens [token] = inside + closes [token])
    (h : FirstExcess inside rest p) : FirstExcess depth (token :: rest) (p + 1) where
  lt := by simpa using h.lt
  excess := by
    have hp := h.excess
    rw [List.take_succ_cons, opens_cons, closes_cons]
    omega
  first := by
    intro q hq
    cases q with
    | zero => simp; omega
    | succ q =>
      have hq := h.first q (by omega)
      rw [List.take_succ_cons, opens_cons, closes_cons]
      omega

theorem FirstExcess.zero (rest : List Token) : FirstExcess 0 (.closeParen :: rest) 0 where
  lt := by simp
  excess := by simp [opens, closes]
  first := by simp

theorem Covered.not_firstExcess {tokens : List Token} (h : Covered depth tokens) :
    ¬ FirstExcess depth tokens p := by
  intro hp
  have := h (p + 1)
  have := hp.excess
  omega

/-- There is one first token. -/
theorem FirstExcess.unique {tokens : List Token} {p q : Nat} (hp : FirstExcess depth tokens p)
    (hq : FirstExcess depth tokens q) : p = q := by
  rcases Nat.lt_trichotomy p q with h | h | h
  · have := hq.first p h
    have := hp.excess
    omega
  · exact h
  · have := hp.first q h
    have := hq.excess
    omega

end Token

namespace Node

open Token

/-! ## 3. Reading and counting -/

/-- What reading comes to inside so many lists, told by the counts. -/
inductive Counted (position depth : Nat) (tokens : List Token) :
    Except ScriptError (List Node) → Prop
  | excess {p : Nat} (h : FirstExcess depth tokens p) :
    Counted position depth tokens (.error (.unexpectedClose (position + p)))
  | unclosed {k : Nat} (hc : Covered depth tokens) (hk : 0 < k)
    (h : depth + opens tokens = closes tokens + k) :
    Counted position depth tokens (.error (.unclosed k))
  | read {forms : List Node} (hc : Covered depth tokens)
    (h : depth + opens tokens = closes tokens) : Counted position depth tokens (.ok forms)

theorem Counted.cons {position depth inside : Nat} {token : Token} {rest : List Token}
    {r : Except ScriptError (List Node)}
    (hd : depth + Token.opens [token] = inside + Token.closes [token])
    (h : Counted (position + 1) inside rest r) : Counted position depth (token :: rest) r := by
  cases h with
  | @excess p h =>
    have hp : position + 1 + p = position + (p + 1) := by omega
    rw [hp]
    exact .excess (h.cons hd)
  | unclosed hc hk h =>
    refine .unclosed (hc.cons hd) hk ?_
    rw [opens_cons, closes_cons]
    omega
  | read hc h =>
    refine .read (hc.cons hd) ?_
    rw [opens_cons, closes_cons]
    omega

/-- **Reading goes by the counts.** -/
theorem parseFrom_counted (tokens : List Token) : ∀ (position : Nat) (current : List Node)
    (around : List (List Node)),
    Counted position around.length tokens (parseFrom position current around tokens) := by
  induction tokens with
  | nil =>
    intro position current around
    have hc : Covered around.length [] := by simp [Covered]
    cases around with
    | nil => exact .read hc rfl
    | cons outer further => exact .unclosed hc (Nat.succ_pos _) (by simp)
  | cons token rest ih =>
    intro position current around
    cases token with
    | openParen => exact (ih _ [] (current :: around)).cons (by simp [opens, closes])
    | closeParen =>
      cases around with
      | nil => exact .excess (p := 0) (.zero rest)
      | cons outer further => exact (ih _ _ further).cons (by simp [opens, closes])
    | number => exact (ih _ _ around).cons (by simp [opens, closes])
    | identifier => exact (ih _ _ around).cons (by simp [opens, closes])
    | symbol => exact (ih _ _ around).cons (by simp [opens, closes])

/-- What a row is refused for, and that it is. -/
theorem ofTokens_eq_error_iff {tokens : List Token} {error : ScriptError} :
    ofTokens tokens = .error error ↔ Unbalanced tokens error := by
  have hcounted : Counted 0 0 tokens (ofTokens tokens) := parseFrom_counted tokens 0 [] []
  constructor
  · intro h
    rw [h] at hcounted
    cases hcounted with
    | @excess p hp =>
      rw [Nat.zero_add]
      exact .unexpectedClose hp
    | unclosed hc hk h => exact .unclosed hc hk (by omega)
  · intro h
    generalize ofTokens tokens = r at hcounted
    cases h with
    | @unexpectedClose p hp =>
      cases hcounted with
      | @excess p' hp' =>
        rw [Nat.zero_add, hp.unique hp']
      | unclosed hc => exact absurd hp hc.not_firstExcess
      | read hc => exact absurd hp hc.not_firstExcess
    | @unclosed k hc hk h =>
      cases hcounted with
      | excess hp => exact absurd hp hc.not_firstExcess
      | @unclosed k' _ _ h' =>
        have hk : k' = k := by omega
        rw [hk]
      | read _ h' => omega

/-- A row is read if it balances. -/
theorem exists_ofTokens_iff {tokens : List Token} :
    (∃ forms, ofTokens tokens = .ok forms) ↔ Balanced tokens := by
  have hcounted : Counted 0 0 tokens (ofTokens tokens) := parseFrom_counted tokens 0 [] []
  constructor
  · rintro ⟨forms, h⟩
    rw [h] at hcounted
    cases hcounted with
    | read hc h => exact ⟨hc, by omega⟩
  · rintro ⟨hc, h⟩
    generalize ofTokens tokens = r at hcounted
    cases hcounted with
    | excess hp => exact absurd hp hc.not_firstExcess
    | unclosed _ _ h' => omega
    | read => exact ⟨_, rfl⟩

/-- A row is read as the forest that has its tokens. -/
theorem ofTokens_eq_ok_iff {tokens : List Token} {forms : List Node} :
    ofTokens tokens = .ok forms ↔ allTokens forms = tokens.map Token.normal := by
  constructor
  · exact allTokens_of_ofTokens
  · intro h
    have hread := ofTokens_allTokens forms
    rwa [h, ofTokens, parseFrom_normal] at hread

/-- **Exactly the balanced rows are read, and nothing is lost.**  A row is read if and only if its
parentheses balance.  It is read as the forest whose tokens, listed from left to right, are those
of the row but for the leading zeros of numbers, so that rows are read as one forest only if they
do not differ otherwise; and every forest is read from a row.  A row that does not balance is
refused for the first token that closes more lists than are open, or else for the number of lists
that are left open. -/
theorem ofTokens_balanced :
    (∀ tokens, (∃ forms, ofTokens tokens = .ok forms) ↔ Balanced tokens) ∧
    (∀ tokens forms, ofTokens tokens = .ok forms ↔ allTokens forms = tokens.map Token.normal) ∧
    (∀ forms, ∃ tokens, Balanced tokens ∧ ofTokens tokens = .ok forms) ∧
    (∀ tokens error, ofTokens tokens = .error error ↔ Unbalanced tokens error) ∧
    (∀ p, (ScriptError.unexpectedClose p).kind = .unbalancedParens ∧
      (ScriptError.unexpectedClose p).message = s!"Unexpected ')' at token {p}") ∧
    ∀ k, (ScriptError.unclosed k).kind = .unbalancedParens ∧
      (ScriptError.unclosed k).message = s!"{k} unclosed '(' at end of input" := by
  refine ⟨fun _ => exists_ofTokens_iff, fun _ _ => ofTokens_eq_ok_iff, fun forms => ?_,
    fun _ _ => ofTokens_eq_error_iff, fun p => ⟨rfl, rfl⟩, fun k => ⟨rfl, rfl⟩⟩
  have hread := ofTokens_allTokens forms
  exact ⟨allTokens forms, exists_ofTokens_iff.mp ⟨forms, hread⟩, hread⟩

/-- A row that closes more than it opens and then leaves lists open is refused for the former. -/
example : ofTokens [.openParen, .closeParen, .closeParen, .openParen] =
    .error (.unexpectedClose 2) := rfl

end Node

end LedgerScript
