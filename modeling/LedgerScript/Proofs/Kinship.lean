/-
# Runs that are akin

Two runs are set side by side by a relation between their states, and their faults may be alike
without being the same.  The relation is told for a world, which says what there is in both runs:
worlds grow as the runs go on, and what holds in one world holds in every later one.

Much of an evaluation only works on the values of operands.  For that part it does not matter how
the scopes of the two runs are related.  It is enough that values come in pairs, plain values with
themselves and closures with closures, and that the ledgers do the same: a `Bond` is a kinship with
such pairs.  Section 3 has, for every bond, the rules of the ledger, of output and of arithmetic;
what a bond needs of their operands is that they are evaluated to pairs (`Bond.Rows`).
-/
import LedgerScript.Proofs.Course
import LedgerScript.Proofs.Scopes
import Mathlib.Data.List.Forall2
import Mathlib.Order.Defs.PartialOrder

namespace LedgerScript

/-- Two texts are written, or both are refused because of a number that is too long. -/
inductive BothWritten {α : Type} : Except HostFault α → Except HostFault α → Prop
  | texts (a b : α) : BothWritten (.ok a) (.ok b)
  | tooLong : BothWritten (.error .integerTooLong) (.error .integerTooLong)

namespace Value

/-- Two values are the same, or both are closures. -/
inductive Alike : Value → Value → Prop
  | plain {v : Value} (h : v.capture? = none) : Alike v v
  | closure (params params' : List String) (body body' : Node) (captured captured' : ScopeId) :
    Alike (.closure params body captured) (.closure params' body' captured')

variable {a b : Value}

/-- The text of a closure can always be written. -/
theorem Alike.shown (h : a.Alike b) : BothWritten a.shown b.shown := by
  cases h with
  | closure => exact .texts _ _
  | plain =>
    cases a with
    | integer n =>
      show BothWritten (Text.writeInteger n) (Text.writeInteger n)
      unfold Text.writeInteger
      split
      · exact .texts _ _
      · exact .tooLong
    | truth b => cases b <;> exact .texts _ _
    | _ => exact .texts _ _

theorem allShown_alike {values values' : List Value} (h : List.Forall₂ Alike values values') :
    BothWritten (allShown values) (allShown values') := by
  induction h with
  | nil => exact .texts [] []
  | @cons v v' rest rest' hv _ ih =>
    have hshown := hv.shown
    unfold allShown at ih ⊢
    rw [List.mapM_cons, List.mapM_cons]
    generalize v.shown = x, v'.shown = y at hshown ⊢
    generalize rest.mapM Value.shown = xs, rest'.mapM Value.shown = ys at ih ⊢
    cases hshown with
    | tooLong => exact .tooLong
    | texts x y =>
      cases ih with
      | tooLong => exact .tooLong
      | texts xs ys => exact .texts _ _

end Value

namespace Run

open Eval

variable {α β γ δ : Type} {W : Type} [Preorder W]

/-! ## 1. Computations that correspond -/

/-- How the states of two runs are related in a world, and which faults are alike. -/
structure Kinship (W : Type) where
  Rel : W → State → State → Prop
  Like : Fault → Fault → Prop

namespace Kinship

/-- Two ends meet: two values, or two faults that are alike, in states that are related in a later
world. -/
inductive Meets (K : Kinship W) (w : W) (Q : W → α → β → Prop) :
    EStateM.Result Fault State α → EStateM.Result Fault State β → Prop
  | value {w' : W} {a : α} {b : β} {s t : State} (hw : w ≤ w') (h : K.Rel w' s t)
    (hq : Q w' a b) : Meets K w Q (.ok a s) (.ok b t)
  | fault {w' : W} {f g : Fault} {s t : State} (hw : w ≤ w') (h : K.Rel w' s t)
    (hl : K.Like f g) : Meets K w Q (.error f s) (.error g t)

/-- From related states, two computations come to ends that meet. -/
def Corresponds (K : Kinship W) (w : W) (Q : W → α → β → Prop) (m : Eval α) (n : Eval β) : Prop :=
  ∀ s t, K.Rel w s t → K.Meets w Q (m.run s) (n.run t)

variable {K : Kinship W} {w : W} {Q Q₁ : W → α → β → Prop} {Q' : W → γ → δ → Prop}
variable {m : Eval α} {n : Eval β}

theorem Corresponds.mono (h : K.Corresponds w Q m n)
    (hq : ∀ w' a b, w ≤ w' → Q w' a b → Q₁ w' a b) : K.Corresponds w Q₁ m n := by
  intro s t hst
  have h := h s t hst
  generalize m.run s = r, n.run t = r' at h ⊢
  cases h with
  | value hw h ha => exact .value hw h (hq _ _ _ hw ha)
  | fault hw h hl => exact .fault hw h hl

theorem corresponds_pure {a : α} {b : β} (h : Q w a b) :
    K.Corresponds w Q (pure a) (pure b) := fun _ _ hst => .value le_rfl hst h

theorem corresponds_throw {f g : Fault} (h : K.Like f g) :
    K.Corresponds w Q (throw f : Eval α) (throw g : Eval β) := fun _ _ hst => .fault le_rfl hst h

/-- One computation after another. -/
theorem Corresponds.bind {f : α → Eval γ} {g : β → Eval δ} (h : K.Corresponds w Q m n)
    (hf : ∀ w' a b, w ≤ w' → Q w' a b → K.Corresponds w' Q' (f a) (g b)) :
    K.Corresponds w Q' (m >>= f) (n >>= g) := by
  intro s t hst
  have h := h s t hst
  rw [EStateM.run_bind, EStateM.run_bind]
  generalize m.run s = r, n.run t = r' at h ⊢
  cases h with
  | fault hw h hl => exact .fault hw h hl
  | @value w' a b s t hw h ha =>
    have h := hf w' a b hw ha s t h
    dsimp only
    generalize (f a).run s = r, (g b).run t = r' at h ⊢
    cases h with
    | value hw' h hb => exact .value (le_trans hw hw') h hb
    | fault hw' h hl => exact .fault (le_trans hw hw') h hl

/-- A fault is handled alike, if the handlers do. -/
theorem Corresponds.tryCatch {f : Fault → Eval α} {g : Fault → Eval β}
    (h : K.Corresponds w Q m n)
    (hf : ∀ w' x y, w ≤ w' → K.Like x y → K.Corresponds w' Q (f x) (g y)) :
    K.Corresponds w Q (tryCatch m f) (tryCatch n g) := by
  intro s t hst
  have h := h s t hst
  rw [run_tryCatch, run_tryCatch]
  generalize m.run s = r, n.run t = r' at h ⊢
  cases h with
  | value hw h ha => exact .value hw h ha
  | @fault w' x y s t hw h hl =>
    have h := hf w' x y hw hl s t h
    dsimp only
    generalize (f x).run s = r, (g y).run t = r' at h ⊢
    cases h with
    | value hw' h hb => exact .value (le_trans hw hw') h hb
    | fault hw' h hl => exact .fault (le_trans hw hw') h hl

theorem corresponds_ite {c c' : Prop} [Decidable c] [Decidable c'] {m₁ : Eval α} {n₁ : Eval β}
    (hc : c ↔ c') (h : c → K.Corresponds w Q m n) (h' : ¬ c → K.Corresponds w Q m₁ n₁) :
    K.Corresponds w Q (if c then m else m₁) (if c' then n else n₁) := by
  by_cases hp : c
  · rw [if_pos hp, if_pos (hc.mp hp)]
    exact h hp
  · rw [if_neg hp, if_neg fun hp' => hp (hc.mpr hp')]
    exact h' hp

/-- What is done on a condition, before what is done in any case. -/
theorem corresponds_when {c c' : Prop} [Decidable c] [Decidable c'] {u v : Eval Unit}
    {k : Unit → Eval α} {l : Unit → Eval β} (hc : c ↔ c')
    (h : c → K.Corresponds w (fun _ _ _ => True) u v)
    (hk : ∀ w', w ≤ w' → K.Corresponds w' Q (k ()) (l ())) :
    K.Corresponds w Q (if c then u >>= k else k ()) (if c' then v >>= l else l ()) :=
  corresponds_ite hc (fun hp => (h hp).bind fun w' _ _ hw _ => hk w' hw) fun _ => hk w le_rfl

/-- The same on both sides, and `P` holds of it in the world. -/
def Same (P : W → α → Prop) (w : W) (a b : α) : Prop := a = b ∧ P w a

/-- What is an image under a map, of something of which `P` holds in the world. -/
def Image (r : α → β) (P : W → α → Prop) (w : W) (a : α) (b : β) : Prop := b = r a ∧ P w a

/-- Computations over two rows, from left to right, of which each corresponds to its counterpart. -/
theorem corresponds_mapM {ι κ : Type} {f : ι → Eval α} {g : κ → Eval β}
    (hq : ∀ {w w' a b}, w ≤ w' → Q w a b → Q w' a b) {xs : List ι} {ys : List κ}
    (h : List.Forall₂ (fun x y => ∀ w', w ≤ w' → K.Corresponds w' Q (f x) (g y)) xs ys) :
    K.Corresponds w (fun w => List.Forall₂ (Q w)) (xs.mapM f) (ys.mapM g) := by
  suffices hlater : ∀ w', w ≤ w' → K.Corresponds w' (fun w => List.Forall₂ (Q w))
      (xs.mapM f) (ys.mapM g) from hlater w le_rfl
  induction h with
  | nil => exact fun _ _ => corresponds_pure .nil
  | cons hx _ ih =>
    intro w₁ hw₁
    rw [List.mapM_cons, List.mapM_cons]
    refine (hx w₁ hw₁).bind fun w₂ a b hw₂ hab => ?_
    refine (ih w₂ (le_trans hw₁ hw₂)).bind fun w₃ as bs hw₃ habs => ?_
    exact corresponds_pure (.cons (hq hw₃ hab) habs)

/-- Two operations of the host that give the same or are refused alike. -/
theorem corresponds_ofHost {x : Except HostFault α} {y : Except HostFault β}
    (h : ∀ a, x = .ok a → ∃ b, y = .ok b ∧ Q w a b)
    (hf : ∀ fault, x = .error fault → ∃ fault', y = .error fault' ∧
      K.Like (.host fault) (.host fault')) :
    K.Corresponds w Q (ofHost x) (ofHost y) := by
  cases x with
  | ok a =>
    obtain ⟨b, rfl, hq⟩ := h a rfl
    exact corresponds_pure hq
  | error fault =>
    obtain ⟨fault', rfl, hl⟩ := hf fault rfl
    exact corresponds_throw hl

/-- What the two runs have of a ledger is the same, so it says the same of an account. -/
theorem corresponds_balance (hledger : ∀ {s t}, K.Rel w s t → t.ledger = s.ledger)
    {P : W → Int → Prop} (hp : ∀ {s t} account, K.Rel w s t → P w (s.ledger.balance account))
    (account : Account) :
    K.Corresponds w (Same P) (balance account) (balance account) := by
  intro s t h
  rw [run_balance, run_balance, hledger h]
  exact .value le_rfl h ⟨rfl, hp account h⟩

/-- A balance is set in both runs, or refused in both. -/
theorem corresponds_setBalance (hledger : ∀ {s t}, K.Rel w s t → t.ledger = s.ledger)
    (hset : ∀ {s t} ledger, K.Rel w s t → K.Rel w { s with ledger } { t with ledger })
    (hlike : ∀ fault, K.Like (.host fault) (.host fault)) (account : Account) (amount : Int) :
    K.Corresponds w (fun _ _ _ => True) (setBalance account amount)
      (setBalance account amount) := by
  intro s t h
  rw [run_setBalance, run_setBalance, hledger h]
  cases s.ledger.setBalance account amount with
  | ok ledger => exact .value le_rfl (hset ledger h) trivial
  | error fault => exact .fault le_rfl h (hlike fault)

end Kinship

/-! ## 2. Bonds -/

open Kinship

/-- A kinship in which values come in pairs, and what the rules that work on values need of it. -/
structure Bond (W : Type) [Preorder W] extends Kinship W where
  /-- The values that the two runs have in each other's place. -/
  Pair : W → Value → Value → Prop
  /-- The balances that accounts may have. -/
  Balance : Int → Prop
  pair_mono {w w' : W} {a b : Value} : w ≤ w' → Pair w a b → Pair w' a b
  pair_plain {w : W} {v : Value} : v.capture? = none → Pair w v v
  /-- Only closures are paired with anything but themselves. -/
  alike {w : W} {a b : Value} : Pair w a b → a.Alike b
  balance_debit {held amount : Int} : Balance held → amount ≤ held → Balance (held - amount)
  balance_credit {held amount : Int} : Balance held → 0 ≤ amount → Balance (held + amount)
  like_error {e : ScriptError} : e.kind ≠ .unbalancedParens → Like (.script e) (.script e)
  /-- Errors are alike that tell paired values. -/
  like_telling {w : W} {a b : Value} {text text' : String} {e : String → ScriptError} :
    (∀ x y, (e x).kind = (e y).kind) → (∀ x, (e x).kind ≠ .unbalancedParens) → Pair w a b →
      a.shown = .ok text → b.shown = .ok text' → Like (.script (e text)) (.script (e text'))
  like_tooLong : Like (.host .integerTooLong) (.host .integerTooLong)
  write {w : W} {a b : Value} {line line' : String} : Pair w a b → a.shown = .ok line →
    b.shown = .ok line' →
      toKinship.Corresponds w (fun _ _ _ => True) (writeLine line) (writeLine line')
  log (w : W) (record record' : Record) :
    toKinship.Corresponds w (fun _ _ _ => True) (Eval.log record) (Eval.log record')
  balance (w : W) (account : Account) : toKinship.Corresponds w (Same fun _ => Balance)
    (Eval.balance account) (Eval.balance account)
  setBalance (w : W) (account : Account) {amount : Int} : Balance amount →
    toKinship.Corresponds w (fun _ _ _ => True)
      (Eval.setBalance account amount) (Eval.setBalance account amount)

namespace Bond

variable {B : Bond W} {setting : Setting} {w : W} {a b : Value}

/-- Two computations come to values that are paired. -/
abbrev Paired (B : Bond W) (w : W) (m n : Eval Value) : Prop := B.Corresponds w B.Pair m n

theorem corresponds_plain {v : Value} (h : v.capture? = none) :
    B.Paired w (pure v) (pure v) := corresponds_pure (B.pair_plain h)

theorem corresponds_fail {Q : W → α → β → Prop} {e : ScriptError}
    (h : e.kind ≠ .unbalancedParens) : B.Corresponds w Q (fail e) (fail e) :=
  corresponds_throw (B.like_error h)

/-- Texts are written in both runs or in none. -/
theorem corresponds_written {x y : Except HostFault α} (h : BothWritten x y) :
    B.Corresponds w (fun _ a b => x = .ok a ∧ y = .ok b) (ofHost x) (ofHost y) := by
  cases h with
  | texts a b => exact corresponds_pure ⟨rfl, rfl⟩
  | tooLong => exact corresponds_throw B.like_tooLong

theorem corresponds_integer (n : Int) :
    B.Corresponds w (Same fun _ _ => True) (ofHost (Text.writeInteger n))
      (ofHost (Text.writeInteger n)) := by
  unfold Text.writeInteger
  split
  · exact corresponds_pure ⟨rfl, trivial⟩
  · exact corresponds_throw B.like_tooLong

/-- An error that tells a value is alike for the value that it is paired with. -/
theorem corresponds_failTelling {Q : W → α → β → Prop} {e : String → ScriptError}
    (hk : ∀ x y, (e x).kind = (e y).kind) (hp : ∀ x, (e x).kind ≠ .unbalancedParens)
    (h : B.Pair w a b) :
    B.Corresponds w Q (failTelling e a.shown) (failTelling e b.shown) := by
  have hlike {text text' : String} (ha : a.shown = .ok text) (hb : b.shown = .ok text') :
      B.Like (.script (e text)) (.script (e text')) := B.like_telling hk hp h ha hb
  have hshown := (B.alike h).shown
  generalize a.shown = x, b.shown = y at hlike hshown ⊢
  cases hshown with
  | texts x y => exact corresponds_throw (hlike rfl rfl)
  | tooLong => exact corresponds_throw B.like_tooLong

/-! ## 3. The rules that work on values -/

theorem corresponds_moveFunds {amount : Int} (hn : 0 ≤ amount) (destination : Account) :
    B.Corresponds w (fun _ _ _ => True)
      (moveFunds setting amount destination) (moveFunds setting amount destination) := by
  unfold moveFunds
  refine (B.balance w setting.me).bind ?_
  rintro w₁ held _ - ⟨rfl, hheld⟩
  refine corresponds_ite Iff.rfl (fun _ => ?_) fun henough => ?_
  · refine (corresponds_integer held).bind ?_
    rintro w₂ text _ - ⟨rfl, -⟩
    refine (corresponds_integer amount).bind ?_
    rintro w₃ text' _ - ⟨rfl, -⟩
    exact corresponds_fail nofun
  have hdebit : B.Balance (held - amount) := B.balance_debit hheld (Int.not_lt.mp henough)
  refine (B.setBalance w₁ setting.me hdebit).bind fun w₂ _ _ _ _ => ?_
  refine Corresponds.bind (Q := fun _ _ _ => True) ?_ fun w₃ _ _ _ _ => ?_
  -- A credit that is refused gives the debit back, on both sides before the fault goes on.
  · refine Corresponds.tryCatch ?_ fun w₃ f g _ hl => ?_
    · refine (B.balance w₂ destination).bind ?_
      rintro w₃ there _ - ⟨rfl, hthere⟩
      exact B.setBalance w₃ destination (B.balance_credit hthere hn)
    · exact (B.setBalance w₃ setting.me hheld).bind fun _ _ _ _ _ => corresponds_throw hl
  · unfold logTransfer
    refine corresponds_when Iff.rfl (fun _ => ?_) fun w₄ _ => B.log w₄ _ _
    unfold Text.writeInteger
    split
    · exact corresponds_pure trivial
    · exact corresponds_throw B.like_tooLong

theorem corresponds_evalBalance (operands : List Node) :
    B.Paired w (evalBalance setting operands) (evalBalance setting operands) := by
  unfold evalBalance
  split
  · refine corresponds_ite Iff.rfl (fun _ => ?_) fun _ => corresponds_fail nofun
    refine (B.balance w setting.me).bind ?_
    rintro w₁ held _ - ⟨rfl, -⟩
    exact corresponds_plain rfl
  · exact corresponds_fail nofun

theorem corresponds_amountOf (h : B.Pair w a b) :
    B.Corresponds w (Same fun _ n => 0 ≤ n) (amountOf a) (amountOf b) := by
  have hfail {Q : W → Int → Int → Prop} :
      B.Corresponds w Q (failTelling .transferAmount a.shown)
        (failTelling .transferAmount b.shown) :=
    corresponds_failTelling (fun _ _ => rfl) (fun _ => nofun) h
  cases B.alike h with
  | closure => exact hfail
  | plain =>
    cases a with
    | integer n =>
      exact corresponds_ite Iff.rfl (fun hn => corresponds_pure ⟨rfl, hn⟩) fun _ => hfail
    | _ => exact hfail

theorem corresponds_destinationOf (h : B.Pair w a b) :
    B.Corresponds w (Same fun _ _ => True) (destinationOf a) (destinationOf b) := by
  have hfail {Q : W → Account → Account → Prop} : B.Corresponds w Q
      (failTelling .transferDestination a.shown) (failTelling .transferDestination b.shown) :=
    corresponds_failTelling (fun _ _ => rfl) (fun _ => nofun) h
  cases B.alike h with
  | closure => exact hfail
  | plain =>
    cases a with
    | account account => exact corresponds_pure ⟨rfl, trivial⟩
    | _ => exact hfail

/-- Two ways to evaluate forms, each in a scope of its own, come to paired values for a form and its
counterpart, in this world and every later one. -/
def Evaluates (B : Bond W) (w : W) (recur recur' : Node → ScopeId → Eval Value) (l r : ScopeId)
    (form form' : Node) : Prop :=
  ∀ w', w ≤ w' → B.Paired w' (recur form l) (recur' form' r)

/-- The same for two rows of operands. -/
abbrev Rows (B : Bond W) (w : W) (recur recur' : Node → ScopeId → Eval Value) (l r : ScopeId) :
    List Node → List Node → Prop :=
  List.Forall₂ (B.Evaluates w recur recur' l r)

section Rules

variable {recur recur' : Node → ScopeId → Eval Value} {l r : ScopeId}
variable {operands operands' : List Node}

theorem corresponds_integerOperand (name : String) {form form' : Node}
    (h : B.Paired w (recur form l) (recur' form' r)) :
    B.Corresponds w (fun _ => Eq) (integerOperand recur l name form)
      (integerOperand recur' r name form') := by
  unfold integerOperand
  refine h.bind fun w₁ a b _ hab => ?_
  have hfail {Q : W → Int → Int → Prop} : B.Corresponds w₁ Q
      (failTelling (.notInteger name) a.shown) (failTelling (.notInteger name) b.shown) :=
    corresponds_failTelling (fun _ _ => rfl) (fun _ => nofun) hab
  cases B.alike hab with
  | closure => exact hfail
  | plain =>
    cases a with
    | integer n => exact corresponds_pure rfl
    | _ => exact hfail

theorem corresponds_integerOperands (name : String)
    (h : B.Rows w recur recur' l r operands operands') :
    B.Corresponds w (fun _ => Eq) (integerOperands recur l name operands)
      (integerOperands recur' r name operands') := by
  unfold integerOperands
  rw [h.length_eq]
  refine corresponds_ite Iff.rfl (fun _ => corresponds_fail nofun) fun _ => ?_
  have hall := h.imp fun _ _ hform w' hw => corresponds_integerOperand name (hform w' hw)
  exact (corresponds_mapM (fun _ h => h) hall).mono fun _ _ _ _ h => List.forall₂_eq_eq_eq ▸ h

theorem corresponds_integerPair (name : String)
    (h : B.Rows w recur recur' l r operands operands') :
    B.Corresponds w (fun _ => Eq) (integerPair recur l name operands)
      (integerPair recur' r name operands') := by
  rcases h with _ | ⟨hfirst, _ | ⟨hsecond, _ | ⟨hthird, hrest⟩⟩⟩
  · exact corresponds_fail nofun
  · exact corresponds_fail nofun
  · refine (corresponds_integerOperand name (hfirst w le_rfl)).bind ?_
    rintro w₁ a _ hw₁ rfl
    refine (corresponds_integerOperand name (hsecond w₁ hw₁)).bind ?_
    rintro w₂ b _ - rfl
    exact corresponds_pure rfl
  · simp only [integerPair, List.length_cons, hrest.length_eq]
    exact corresponds_fail nofun

theorem corresponds_evalAdd (h : B.Rows w recur recur' l r operands operands') :
    B.Paired w (evalAdd recur l operands) (evalAdd recur' r operands') := by
  refine (corresponds_integerOperands "+" h).bind ?_
  rintro _ ns _ - rfl
  exact corresponds_plain rfl

theorem corresponds_evalSub (h : B.Rows w recur recur' l r operands operands') :
    B.Paired w (evalSub recur l operands) (evalSub recur' r operands') := by
  refine (corresponds_integerPair "-" h).bind ?_
  rintro _ ⟨a, b⟩ _ - rfl
  exact corresponds_plain rfl

theorem corresponds_evalMul (h : B.Rows w recur recur' l r operands operands') :
    B.Paired w (evalMul setting recur l operands) (evalMul setting recur' r operands') := by
  refine (corresponds_integerOperands "*" h).bind ?_
  rintro _ ns _ - rfl
  exact corresponds_plain rfl

theorem corresponds_evalDiv (h : B.Rows w recur recur' l r operands operands') :
    B.Paired w (evalDiv recur l operands) (evalDiv recur' r operands') := by
  unfold evalDiv
  refine (corresponds_integerPair "/" h).bind ?_
  rintro w₁ ⟨a, b⟩ _ - rfl
  refine corresponds_ite Iff.rfl (fun _ => ?_) fun _ => corresponds_plain rfl
  refine (corresponds_integer b).bind ?_
  rintro w₂ text _ - ⟨rfl, -⟩
  exact Corresponds.bind (Q := fun _ _ _ => True) (corresponds_fail nofun) fun _ _ _ _ _ =>
    corresponds_plain rfl

theorem corresponds_evalTransfer (h : B.Rows w recur recur' l r operands operands') :
    B.Paired w (evalTransfer setting recur l operands)
      (evalTransfer setting recur' r operands') := by
  rcases h with _ | ⟨hamount, _ | ⟨hdestination, _ | ⟨hthird, hrest⟩⟩⟩
  · exact corresponds_fail nofun
  · exact corresponds_fail nofun
  · refine (hamount w le_rfl).bind fun w₁ a b hw₁ hab => ?_
    refine (hdestination w₁ hw₁).bind fun w₂ a' b' hw₂ hab' => ?_
    refine (corresponds_amountOf (B.pair_mono hw₂ hab)).bind ?_
    rintro w₃ amount _ hw₃ ⟨rfl, hn⟩
    refine (corresponds_destinationOf (B.pair_mono hw₃ hab')).bind ?_
    rintro w₄ destination _ - ⟨rfl, -⟩
    refine (corresponds_moveFunds hn destination).bind fun _ _ _ _ _ => ?_
    exact corresponds_plain rfl
  · simp only [evalTransfer, List.length_cons, hrest.length_eq]
    exact corresponds_fail nofun

theorem corresponds_evalPrintln (h : B.Rows w recur recur' l r operands operands') :
    B.Paired w (evalPrintln recur l operands) (evalPrintln recur' r operands') := by
  rcases h with _ | ⟨hform, _ | ⟨hsecond, hrest⟩⟩
  · exact corresponds_fail nofun
  · refine (hform w le_rfl).bind fun w₁ a b _ hab => ?_
    refine (corresponds_written (B.alike hab).shown).bind fun w₂ line line' hw₂ hshown => ?_
    refine (B.write (B.pair_mono hw₂ hab) hshown.1 hshown.2).bind fun _ _ _ _ _ => ?_
    exact corresponds_plain rfl
  · simp only [evalPrintln, List.length_cons, hrest.length_eq]
    exact corresponds_fail nofun

/-- The rules that work on the values of their operands. -/
def valued : List SpecialForm := [.transfer, .println, .add, .sub, .mul, .div]

/-- **The rules that work on values** come to paired values, if their operands do. -/
theorem corresponds_evalRule (h : B.Rows w recur recur' l r operands operands') {head head' : Node}
    {rule : SpecialForm} (hr : rule ∈ valued) :
    B.Paired w (evalRule setting recur l head operands rule)
      (evalRule setting recur' r head' operands' rule) := by
  cases rule with
  | transfer => exact corresponds_evalTransfer h
  | println => exact corresponds_evalPrintln h
  | add => exact corresponds_evalAdd h
  | sub => exact corresponds_evalSub h
  | mul => exact corresponds_evalMul h
  | div => exact corresponds_evalDiv h
  | balance | provide | define | lambda | call => exact absurd hr (by decide)

end Rules

end Bond

end Run

end LedgerScript
