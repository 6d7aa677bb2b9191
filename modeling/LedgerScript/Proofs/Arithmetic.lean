/-
# What arithmetic comes to

An arithmetic expression is built from numbers, from names of integers, and from sums, products,
differences and quotients.  Its value is told by recursion over the expression, and so are the
divisions that are made on the way to it, in the order in which they are made.  Evaluation returns
the value, unless a division has the divisor zero; then it ends at the first such division
(`evaluate_arithmetic`).  Either way it changes nothing but the count of steps, one for each part of
the expression that it has begun.

The divisions carry the proof.  Each is listed with the steps that are counted when it is made, so
one predicate (`Computes`) says of a computation what it returns, after how many steps, and where it
ends if it does not return.  It has a rule for one computation after another (`Computes.bind`), by
which it is built up along an expression (`computes_evaluate`).
-/
import LedgerScript.Proofs.Calls
import Mathlib

namespace LedgerScript

/-! ## 1. Expressions -/

/-- An arithmetic expression.  A sum or a product has two operands at least. -/
inductive Arith where
  | number (n : Int)
  | variable (name : String)
  | sum (first second : Arith) (more : List Arith)
  | product (first second : Arith) (more : List Arith)
  /-- `second` less `first`. -/
  | difference (first second : Arith)
  /-- `second` divided by `first`, rounded down. -/
  | quotient (first second : Arith)

namespace Arith

mutual

/-- An expression as it is written. -/
def form : Arith → Node
  | .number n => .number n
  | .variable name => .ident name
  | .sum first second more => .list (.operator "+" :: form first :: form second :: forms more)
  | .product first second more => .list (.operator "*" :: form first :: form second :: forms more)
  | .difference first second => .list [.operator "-", form first, form second]
  | .quotient first second => .list [.operator "/", form first, form second]

/-- A row of expressions as it is written. -/
def forms : List Arith → List Node
  | [] => []
  | e :: rest => form e :: forms rest

end

mutual

/-- The parts of an expression, itself included. -/
def nodes : Arith → Nat
  | .number _ | .variable _ => 1
  | .sum first second more | .product first second more =>
    1 + (nodes first + (nodes second + nodesOf more))
  | .difference first second | .quotient first second => 1 + (nodes first + nodes second)

/-- The parts of a row of expressions. -/
def nodesOf : List Arith → Nat
  | [] => 0
  | e :: rest => nodes e + nodesOf rest

end

mutual

/-- How deep the parts of an expression are nested. -/
def height : Arith → Nat
  | .number _ | .variable _ => 1
  | .sum first second more | .product first second more =>
    max (height first) (max (height second) (heightOf more)) + 1
  | .difference first second | .quotient first second => max (height first) (height second) + 1

/-- How deep the parts of a row of expressions are nested. -/
def heightOf : List Arith → Nat
  | [] => 0
  | e :: rest => max (height e) (heightOf rest)

end

mutual

/-- The names in an expression. -/
def names : Arith → List String
  | .number _ => []
  | .variable name => [name]
  | .sum first second more | .product first second more =>
    names first ++ (names second ++ namesOf more)
  | .difference first second | .quotient first second => names first ++ names second

/-- The names in a row of expressions. -/
def namesOf : List Arith → List String
  | [] => []
  | e :: rest => names e ++ namesOf rest

end

/-! ## 2. Values and divisions -/

/-- One division on the way to a value. -/
structure Division where
  /-- The steps that are counted by then. -/
  steps : Nat
  divisor : Int
  dividend : Int

section Meaning

variable (legacy : Bool) (env : String → Int)

mutual

/-- The value of an expression, given those of the names.  A product is a sum under the legacy
rules. -/
def value : Arith → Int
  | .number n => n
  | .variable name => env name
  | .sum first second more => (value first :: value second :: values more).sum
  | .product first second more =>
    if legacy then (value first :: value second :: values more).sum
    else (value first :: value second :: values more).prod
  | .difference first second => value second - value first
  | .quotient first second => (value second).fdiv (value first)

/-- The values of a row of expressions. -/
def values : List Arith → List Int
  | [] => []
  | e :: rest => value e :: values rest

end

mutual

/-- The divisions of an expression, in the order in which they are made: those of the operands from
left to right, and then its own.  So many steps are counted before the expression is begun. -/
def divisions (counted : Nat) : Arith → List Division
  | .number _ | .variable _ => []
  | .sum first second more | .product first second more =>
    divisions (counted + 1) first ++ (divisions (counted + 1 + nodes first) second ++
      divisionsOf (counted + 1 + nodes first + nodes second) more)
  | .difference first second =>
    divisions (counted + 1) first ++ divisions (counted + 1 + nodes first) second
  | .quotient first second =>
    divisions (counted + 1) first ++ (divisions (counted + 1 + nodes first) second ++
      [⟨counted + 1 + nodes first + nodes second, value legacy env first, value legacy env second⟩])

/-- The divisions of a row of expressions. -/
def divisionsOf (counted : Nat) : List Arith → List Division
  | [] => []
  | e :: rest => divisions counted e ++ divisionsOf (counted + nodes e) rest

end

end Meaning

/-- The remainders of a positive divisor. -/
theorem remainder_iff_of_pos {a r : Int} (ha : 0 < a) :
    (r = 0 ∨ r.sign = a.sign) ∧ r.natAbs < a.natAbs ↔ 0 ≤ r ∧ r < a := by
  rw [Int.sign_eq_one_of_pos ha, Int.sign_eq_one_iff_pos]
  omega

/-- The remainders of a negative divisor. -/
theorem remainder_iff_of_neg {a r : Int} (ha : a < 0) :
    (r = 0 ∨ r.sign = a.sign) ∧ r.natAbs < a.natAbs ↔ a < r ∧ r ≤ 0 := by
  rw [Int.sign_eq_neg_one_of_neg ha, Int.sign_eq_neg_one_iff_neg]
  omega

/-- The quotient of a division that rounds down is the one that leaves a remainder of zero, or a
smaller one with the sign of the divisor. -/
theorem eq_fdiv_iff {a b q : Int} (ha : a ≠ 0) :
    q = b.fdiv a ↔ ∃ r, b = q * a + r ∧ (r = 0 ∨ r.sign = a.sign) ∧ r.natAbs < a.natAbs := by
  have hmod : q = b.fdiv a ↔ ∃ r, b.fdiv a = q ∧ b.fmod a = r := by
    simp [eq_comm]
  rw [hmod]
  refine exists_congr fun r => ?_
  rw [show b = q * a + r ↔ r + a * q = b by rw [Int.mul_comm, Int.add_comm, eq_comm]]
  rcases Int.lt_or_gt_of_ne ha with hneg | hpos
  · rw [Int.fdiv_fmod_unique' hneg, remainder_iff_of_neg hneg]
  · rw [Int.fdiv_fmod_unique hpos, remainder_iff_of_pos hpos]

end Arith

namespace Run

open Arith Eval

/-! ## 3. Computations that divide -/

/-- So many steps may be counted. -/
def Setting.Allows (setting : Setting) (steps : Nat) : Prop :=
  ∀ most, setting.config.maxSteps = some most → (steps : Int) ≤ most

theorem Setting.Allows.mono {setting : Setting} {m n : Nat} (h : setting.Allows n) (hm : m ≤ n) :
    setting.Allows m :=
  fun most hmost => Int.le_trans (Int.ofNat_le.mpr hm) (h most hmost)

/-- How a division by zero ends a run: it tells the dividend, which may be too long for that. -/
def zeroDivisor (dividend : Int) : Fault :=
  if Text.isWritable dividend then .script (.divisionByZero (toString dividend))
  else .host .integerTooLong

/-- The first division by zero. -/
def firstZero (divisions : List Division) : Option Division := divisions.find? (·.divisor == 0)

/-- The steps that are counted at the end: at a division by zero, if there is one. -/
def lastStep (zero : Option Division) (steps : Nat) : Nat := (zero.map Division.steps).getD steps

variable {α β : Type}

/-- What a computation comes to that goes on to a division by zero, or else returns after so many
steps. -/
def comesTo (s : State) (a : α) (steps : Nat) : Option Division → EStateM.Result Fault State α
  | none => .ok a { s with steps }
  | some d => .error (zeroDivisor d.dividend) { s with steps := d.steps }

/-- From an arena, a computation makes some divisions, told by the steps counted before it, and then
returns a value.  It counts so many steps in all, and no division is made before it or after it. -/
structure Computes (setting : Setting) (arena : Arena) (m : Eval α)
    (divisions : Nat → List Division) (a : α) (parts : Nat) : Prop where
  within (counted : Nat) :
    ∀ d ∈ divisions counted, counted ≤ d.steps ∧ d.steps ≤ counted + parts
  run (s : State) : s.arena = arena →
    setting.Allows (lastStep (firstZero (divisions s.steps)) (s.steps + parts)) →
      m.run s = comesTo s a (s.steps + parts) (firstZero (divisions s.steps))

namespace Computes

variable {setting : Setting} {arena : Arena} {m : Eval α} {ds es : Nat → List Division} {a : α}
  {p q : Nat}

theorem pure (a : α) : Computes setting arena (Pure.pure a : Eval α) (fun _ => []) a 0 where
  within _ _ h := absurd h List.not_mem_nil
  run _ _ _ := rfl

/-- One computation after another divides as the first and then as the second. -/
theorem bind {f : α → Eval β} {b : β} (hm : Computes setting arena m ds a p)
    (hf : Computes setting arena (f a) es b q) :
    Computes setting arena (m >>= f) (fun counted => ds counted ++ es (counted + p)) b (p + q) where
  within counted d h := by
    rcases List.mem_append.mp h with h | h
    · have := hm.within counted d h
      omega
    · have := hf.within (counted + p) d h
      omega
  run s hs hallowed := by
    have hsplit : firstZero (ds s.steps ++ es (s.steps + p)) =
        (firstZero (ds s.steps)).or (firstZero (es (s.steps + p))) := List.find?_append
    rw [hsplit] at hallowed ⊢
    cases hz : firstZero (ds s.steps) with
    | some d =>
      rw [hz] at hallowed
      have hrun := hm.run s hs (by rw [hz]; exact hallowed)
      rw [hz] at hrun
      exact run_bind_error hrun
    | none =>
      rw [hz, Option.none_or, ← Nat.add_assoc] at hallowed
      -- the first computation ends before the second does
      have hbefore : s.steps + p ≤ lastStep (firstZero (es (s.steps + p))) (s.steps + p + q) := by
        cases hz' : firstZero (es (s.steps + p)) with
        | none => exact Nat.le_add_right _ _
        | some d => exact (hf.within _ d (List.mem_of_find?_eq_some hz')).1
      have hrun := hm.run s hs (by rw [hz]; exact hallowed.mono hbefore)
      rw [hz] at hrun
      rw [run_bind_ok hrun, hf.run { s with steps := s.steps + p } hs hallowed, Option.none_or,
        ← Nat.add_assoc]
      cases firstZero (es (s.steps + p)) <;> rfl

/-- The same divisions, value and steps, told otherwise. -/
theorem congr {a' : α} (h : Computes setting arena m ds a p)
    (hd : ∀ counted, ds counted = es counted) (ha : a = a') (hp : p = q) :
    Computes setting arena m es a' q := by
  obtain rfl : ds = es := funext hd
  subst ha hp
  exact h

/-- Counting a step. -/
theorem countStep :
    Computes setting arena (Eval.countStep setting.config.maxSteps) (fun _ => []) () 1 where
  within _ _ h := absurd h List.not_mem_nil
  run s _ hallowed := State.HasStep.run_countStep (s := s) hallowed

/-- Dividing. -/
theorem divide (a b : Int) :
    Computes setting arena (do
        if a = 0 then fail (.divisionByZero (← ofHost (Text.writeInteger b)))
        Pure.pure (.integer (b.fdiv a)))
      (fun counted => [⟨counted, a, b⟩]) (Value.integer (b.fdiv a)) 0 where
  within counted d h := by
    obtain rfl := List.mem_singleton.mp h
    exact ⟨Nat.le_refl _, Nat.le_refl _⟩
  run s _ _ := by
    by_cases ha : a = 0
    · subst ha
      show _ = EStateM.Result.error (zeroDivisor b) s
      rw [if_pos rfl]
      unfold zeroDivisor Text.writeInteger
      cases Text.isWritable b <;> rfl
    · have hz : firstZero [⟨s.steps, a, b⟩] = none := by
        simp [firstZero, ha]
      rw [if_neg ha, hz]
      rfl

end Computes

/-! ## 4. Evaluation -/

section

variable {setting : Setting} {arena : Arena} {env : String → Int} {depth : Nat} {scope : ScopeId}

/-- An operand that evaluates to an integer. -/
theorem computes_integerOperand (op : String) {e : Node} {ds : Nat → List Division} {n : Int}
    {p : Nat} (h : Computes setting arena (evaluate setting depth e scope) ds (.integer n) p) :
    Computes setting arena (integerOperand (evaluate setting depth) scope op e) ds n p :=
  (h.bind (.pure n)).congr (fun _ => List.append_nil _) rfl (Nat.add_zero p)

/-- A list counts a step of its own before its rule is followed. -/
theorem computes_list {head : Node} {operands : List Node} {ds : Nat → List Division} {v : Value}
    {p : Nat}
    (h : Computes setting arena (evalList setting (evaluate setting depth) scope head operands)
      ds v p) :
    Computes setting arena (evaluate setting (depth + 1) (.list (head :: operands)) scope)
      (fun counted => ds (counted + 1)) v (1 + p) :=
  Computes.countStep.bind h

/-- The rule for sums and products, with the operands and what becomes of their integers. -/
theorem computes_integerOperands (op : String) {first second : Node} {more : List Node}
    {ds : Nat → List Division} {ns : List Int} {p : Nat} (total : List Int → Int)
    (h : Computes setting arena ((first :: second :: more).mapM
      (integerOperand (evaluate setting depth) scope op)) ds ns p) :
    Computes setting arena (do
      let integers ← integerOperands (evaluate setting depth) scope op (first :: second :: more)
      pure (.integer (total integers))) ds (Value.integer (total ns)) p := by
  have hlength : ¬ (first :: second :: more).length < 2 := by
    rw [List.length_cons, List.length_cons]
    omega
  unfold integerOperands
  rw [if_neg hlength]
  exact (h.bind (.pure (Value.integer (total ns)))).congr (fun _ => List.append_nil _) rfl
    (Nat.add_zero p)

/-- The rule for differences and quotients, with the operands and what becomes of their integers. -/
theorem computes_integerPair (op : String) {first second : Node} {ds es fs : Nat → List Division}
    {a b : Int} {p q : Nat} {v : Value} {finish : Int × Int → Eval Value}
    (hfirst : Computes setting arena (evaluate setting depth first scope) ds (.integer a) p)
    (hsecond : Computes setting arena (evaluate setting depth second scope) es (.integer b) q)
    (hfinish : Computes setting arena (finish (a, b)) fs v 0) :
    Computes setting arena
      (integerPair (evaluate setting depth) scope op [first, second] >>= finish)
      (fun counted => ds counted ++ (es (counted + p) ++ fs (counted + p + q))) v (p + q) := by
  have hpair : Computes setting arena
      (integerPair (evaluate setting depth) scope op [first, second])
      (fun counted => ds counted ++ (es (counted + p) ++ [])) (a, b) (p + (q + 0)) :=
    ((computes_integerOperand op hfirst).bind (f := fun a => do
      let b ← integerOperand (evaluate setting depth) scope op second
      pure (a, b)) ((computes_integerOperand op hsecond).bind (.pure (a, b)))).congr
        (fun _ => rfl) rfl rfl
  exact (hpair.bind hfinish).congr (fun counted => by simp [Nat.add_assoc]) rfl (by simp)

/-- A row of operands, the first one before the others. -/
theorem computes_cons (op : String) {e : Node} {rest : List Node} {ds es : Nat → List Division}
    {n : Int} {ns : List Int} {p q : Nat}
    (h : Computes setting arena (evaluate setting depth e scope) ds (.integer n) p)
    (hrest : Computes setting arena
      (rest.mapM (integerOperand (evaluate setting depth) scope op)) es ns q) :
    Computes setting arena ((e :: rest).mapM (integerOperand (evaluate setting depth) scope op))
      (fun counted => ds counted ++ es (counted + p)) (n :: ns) (p + q) := by
  rw [List.mapM_cons]
  have hcons : Computes setting arena (do
      let ns ← rest.mapM (integerOperand (evaluate setting depth) scope op)
      pure (n :: ns)) es (n :: ns) q :=
    (hrest.bind (f := fun ns => pure (n :: ns)) (.pure _)).congr (fun _ => List.append_nil _) rfl
      (Nat.add_zero q)
  exact (computes_integerOperand op h).bind (f := fun n => do
    let ns ← rest.mapM (integerOperand (evaluate setting depth) scope op)
    pure (n :: ns)) hcons

/-- Looking up a name of an integer. -/
theorem computes_lookup {name : String} {n : Int}
    (h : arena.lookup (some scope) name = .ok (some (.integer n))) :
    Computes setting arena (lookup (some scope) name) (fun _ => []) (.integer n) 0 where
  within _ _ h := absurd h List.not_mem_nil
  run s hs _ := by
    subst hs
    unfold lookup
    rw [run_bind_ok (run_lookup?_of_eq h)]
    rfl

mutual

/-- **Evaluation computes the value of an expression.** -/
theorem computes_evaluate : ∀ (e : Arith) {depth : Nat}, height e ≤ depth →
    (∀ x ∈ names e, arena.lookup (some scope) x = .ok (some (.integer (env x)))) →
      Computes setting arena (evaluate setting depth (form e) scope)
        (divisions setting.config.legacy env · e)
        (.integer (value setting.config.legacy env e)) (nodes e)
  | .number n, depth + 1, _, _ =>
    (Computes.countStep.bind (f := fun _ => pure (Value.integer n)) (.pure _)).congr
      (fun _ => rfl) rfl rfl
  | .variable name, depth + 1, _, hn =>
    (Computes.countStep.bind (f := fun _ => lookup (some scope) name)
      (computes_lookup (hn name (by simp [names])))).congr (fun _ => rfl) rfl rfl
  | .sum first second more, depth + 1, hd, hn => by
    simp only [height, Nat.add_le_add_iff_right, Nat.max_le] at hd
    simp only [names, List.forall_mem_append] at hn
    have hrow := computes_cons "+" (computes_evaluate first hd.1 hn.1)
      (computes_cons "+" (computes_evaluate second hd.2.1 hn.2.1)
        (computes_operands "+" more hd.2.2 hn.2.2))
    have hrule : Computes setting arena (evalList setting (evaluate setting depth) scope
        (.operator "+") (form first :: form second :: forms more)) _ _ _ :=
      computes_integerOperands "+" sumOf hrow
    exact computes_list hrule
  | .product first second more, depth + 1, hd, hn => by
    simp only [height, Nat.add_le_add_iff_right, Nat.max_le] at hd
    simp only [names, List.forall_mem_append] at hn
    have hrow := computes_cons "*" (computes_evaluate first hd.1 hn.1)
      (computes_cons "*" (computes_evaluate second hd.2.1 hn.2.1)
        (computes_operands "*" more hd.2.2 hn.2.2))
    have hrule : Computes setting arena (evalList setting (evaluate setting depth) scope
        (.operator "*") (form first :: form second :: forms more)) _ _ _ :=
      computes_integerOperands "*"
        (fun integers => if setting.config.legacy then sumOf integers else productOf integers) hrow
    refine (computes_list hrule).congr (fun _ => rfl) ?_ rfl
    rw [value]
    cases setting.config.legacy <;> rfl
  | .difference first second, depth + 1, hd, hn => by
    simp only [height, Nat.add_le_add_iff_right, Nat.max_le] at hd
    simp only [names, List.forall_mem_append] at hn
    have hrule : Computes setting arena (evalList setting (evaluate setting depth) scope
        (.operator "-") [form first, form second]) _ _ _ :=
      computes_integerPair "-" (computes_evaluate first hd.1 hn.1)
        (computes_evaluate second hd.2 hn.2) (.pure (Value.integer _))
    exact (computes_list hrule).congr (fun _ => by rw [divisions, List.append_nil]) rfl rfl
  | .quotient first second, depth + 1, hd, hn => by
    simp only [height, Nat.add_le_add_iff_right, Nat.max_le] at hd
    simp only [names, List.forall_mem_append] at hn
    have hrule : Computes setting arena (evalList setting (evaluate setting depth) scope
        (.operator "/") [form first, form second]) _ _ _ :=
      computes_integerPair "/" (computes_evaluate first hd.1 hn.1)
        (computes_evaluate second hd.2 hn.2) (.divide _ _)
    exact computes_list hrule
  | e, 0, hd, _ => by
    cases e <;> cases hd

/-- Its operands are evaluated from left to right. -/
theorem computes_operands (op : String) : ∀ (es : List Arith) {depth : Nat}, heightOf es ≤ depth →
    (∀ x ∈ namesOf es, arena.lookup (some scope) x = .ok (some (.integer (env x)))) →
      Computes setting arena ((forms es).mapM (integerOperand (evaluate setting depth) scope op))
        (divisionsOf setting.config.legacy env · es)
        (values setting.config.legacy env es) (nodesOf es)
  | [], _, _, _ => .pure _
  | e :: rest, depth, hd, hn => by
    simp only [heightOf, Nat.max_le] at hd
    simp only [namesOf, List.forall_mem_append] at hn
    exact computes_cons op (computes_evaluate e hd.1 hn.1) (computes_operands op rest hd.2 hn.2)

end

end

/-- The first division by zero, by its place in the row. -/
theorem firstZero_eq_some {before after : List Division} {d : Division}
    (hbefore : ∀ b ∈ before, b.divisor ≠ 0) (hd : d.divisor = 0) :
    firstZero (before ++ d :: after) = some d := by
  refine List.find?_eq_some_iff_append.mpr ⟨by simp [hd], before, after, rfl, fun b hb => ?_⟩
  simp [hbefore b hb]

/-- **Arithmetic means what it should.**  In a state in which its names resolve to integers, and
with an evaluation to spare for every level of its nesting, an expression is evaluated as follows.

If no divisor is zero, and so many steps may be counted, it comes to its value; one step is counted
for each of its parts and nothing else is changed.  If a divisor is zero, and the steps up to the
first such division may be counted, evaluation ends there; it tells the dividend, and nothing but
these steps is changed.  A quotient is the one whose remainder is zero, or smaller than the divisor
and of the same sign. -/
theorem evaluate_arithmetic (setting : Setting) (s : State) (scope : ScopeId) (env : String → Int)
    (e : Arith)
    (hnames : ∀ x ∈ e.names, s.arena.lookup (some scope) x = .ok (some (.integer (env x))))
    {depth : Nat} (hdepth : e.height ≤ depth) :
    ((∀ d ∈ e.divisions setting.config.legacy env s.steps, d.divisor ≠ 0) →
      setting.Allows (s.steps + e.nodes) →
        (evaluate setting depth e.form scope).run s =
          .ok (.integer (e.value setting.config.legacy env))
            { s with steps := s.steps + e.nodes }) ∧
    (∀ before d after, e.divisions setting.config.legacy env s.steps = before ++ d :: after →
      (∀ b ∈ before, b.divisor ≠ 0) → d.divisor = 0 → setting.Allows d.steps →
        (s.steps ≤ d.steps ∧ d.steps ≤ s.steps + e.nodes) ∧
        (evaluate setting depth e.form scope).run s =
          .error (zeroDivisor d.dividend) { s with steps := d.steps }) ∧
    ∀ first second : Arith, first.value setting.config.legacy env ≠ 0 → ∀ q : Int,
      q = (Arith.quotient first second).value setting.config.legacy env ↔
        ∃ r : Int, second.value setting.config.legacy env =
            q * first.value setting.config.legacy env + r ∧
          (r = 0 ∨ r.sign = (first.value setting.config.legacy env).sign) ∧
          r.natAbs < (first.value setting.config.legacy env).natAbs := by
  have hcomputes : Computes setting s.arena _ _ _ _ := computes_evaluate e hdepth hnames
  refine ⟨fun hdivisors hallowed => ?_, fun before d after hdivisions hbefore hd hallowed => ?_,
    fun first second hfirst q => eq_fdiv_iff hfirst⟩
  · have hz : firstZero (e.divisions setting.config.legacy env s.steps) = none := by
      refine List.find?_eq_none.mpr fun d hd => ?_
      simpa using hdivisors d hd
    have hrun := hcomputes.run s rfl (by rw [hz]; exact hallowed)
    rw [hz] at hrun
    exact hrun
  · have hz : firstZero (e.divisions setting.config.legacy env s.steps) = some d := by
      rw [hdivisions]
      exact firstZero_eq_some hbefore hd
    have hmem : d ∈ e.divisions setting.config.legacy env s.steps := List.mem_of_find?_eq_some hz
    have hrun := hcomputes.run s rfl (by rw [hz]; exact hallowed)
    rw [hz] at hrun
    exact ⟨hcomputes.within _ d hmem, hrun⟩

/-- A root scope in which `x` is minus seven. -/
def owing : State := .initial {} [("x", .integer (-7))] false

/-- `(+ (/ 2 x) 1)`. -/
def halved : Arith := .sum (.quotient (.number 2) (.variable "x")) (.number 1) []

/-- `(* 3 (/ (- x x) x) (/ 0 1))`. -/
def undefined : Arith :=
  .product (.number 3)
    (.quotient (.difference (.variable "x") (.variable "x")) (.variable "x"))
    [.quotient (.number 0) (.number 1)]

/-- A contract with a limit of seven steps. -/
def brief : Setting := { bank with config := { bank.config with maxSteps := some 7 } }

/-- The half of minus seven is rounded down to minus four.  Of two divisions by zero, the one on the
left ends the evaluation, and the parts on its right are not counted. -/
theorem evaluate_arithmetic_owing :
    (evaluate brief 3 halved.form Arena.rootId).run owing =
      .ok (.integer (-3)) { owing with steps := 5 } ∧
    (evaluate brief 4 undefined.form Arena.rootId).run owing =
      .error (.script (.divisionByZero "-7")) { owing with steps := 7 } := by
  have hx : owing.arena.lookup (some Arena.rootId) "x" = .ok (some (.integer (-7))) := rfl
  have hallowed : brief.Allows 7 := by
    intro most hmost
    cases hmost
    decide
  have hnames : ∀ x ∈ ["x", "x", "x"],
      owing.arena.lookup (some Arena.rootId) x = .ok (some (.integer (-7))) := by
    intro x hmem
    obtain rfl : x = "x" := by simpa using hmem
    exact hx
  have hhalved := evaluate_arithmetic brief owing Arena.rootId (fun _ => -7) halved
    (fun x hmem => hnames x (List.mem_cons_of_mem _ (List.mem_cons_of_mem _ hmem)))
    (by decide : halved.height ≤ 3)
  have hundefined := evaluate_arithmetic brief owing Arena.rootId (fun _ => -7) undefined
    hnames (by decide : undefined.height ≤ 4)
  have hdividend : zeroDivisor (-7) = .script (.divisionByZero "-7") := by decide +kernel
  refine ⟨hhalved.1 ?_ (hallowed.mono (by decide)), ?_⟩
  · intro d hd
    obtain rfl : d = ⟨4, 2, -7⟩ := List.mem_singleton.mp hd
    decide
  · rw [← hdividend]
    exact (hundefined.2.1 [] ⟨7, 0, -7⟩ [⟨10, 0, 1⟩] rfl (fun _ h => nomatch h) rfl hallowed).2

end Run
end LedgerScript
