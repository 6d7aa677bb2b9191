/-
# Tables that keep the order of their keys

Balances, bindings and the members of a JSON object are all tables: a key stands where it was
first written, and a later entry for the same key replaces the value and leaves the place.  The
order is part of the value, because reports list a table in it.

`get?_put` says what a write does to every later read, `keys_put` what it does to the order.
-/

namespace LedgerScript

/-- A table is the list of its entries, oldest key first. -/
abbrev Table (κ α : Type) := List (κ × α)

namespace Table

variable {κ α : Type} [DecidableEq κ]

/-! ## 1. Reading and writing -/

/-- The value stored for a key. -/
def get? : Table κ α → κ → Option α
  | [], _ => none
  | (k, a) :: rest, x => if k = x then some a else get? rest x

/-- Writes a value: in place if the key is there, at the end otherwise. -/
def put : Table κ α → κ → α → Table κ α
  | [], x, b => [(x, b)]
  | (k, a) :: rest, x, b => if k = x then (k, b) :: rest else (k, a) :: put rest x b

/-- The keys, in the order of their first writing. -/
def keys (t : Table κ α) : List κ := t.map Prod.fst

/-- The table that results from writing the pairs one after another. -/
def ofPairs (pairs : List (κ × α)) : Table κ α := pairs.foldl (fun t p => put t p.1 p.2) []

/-! ## 2. What a write changes -/

theorem get?_put (t : Table κ α) (x y : κ) (b : α) :
    get? (put t x b) y = if x = y then some b else get? t y := by
  induction t with
  | nil => simp [put, get?]
  | cons p rest ih =>
    obtain ⟨k, a⟩ := p
    by_cases hk : k = x
    · subst hk; by_cases hy : k = y <;> simp [put, get?, hy]
    · by_cases hy : k = y
      · subst hy; simp [put, get?, hk, Ne.symm hk]
      · simp [put, get?, hk, hy, ih]

/-- A key that is not there has no value. -/
theorem get?_of_not_mem : ∀ {t : Table κ α} {x : κ}, x ∉ keys t → get? t x = none
  | [], _, _ => rfl
  | (k, a) :: rest, x, h => by
    simp only [keys, List.map_cons, List.mem_cons, not_or] at h
    rw [get?, if_neg (Ne.symm h.1)]
    exact get?_of_not_mem h.2

/-- Where no key is repeated, every entry is found. -/
theorem get?_of_mem : ∀ {t : Table κ α} {x : κ} {a : α}, (keys t).Nodup → (x, a) ∈ t →
    get? t x = some a
  | (k, b) :: rest, x, a, hn, h => by
    simp only [keys, List.map_cons, List.nodup_cons] at hn
    rcases List.mem_cons.mp h with heq | h
    · cases heq
      rw [get?, if_pos rfl]
    · have hne : k ≠ x := fun hk => hn.1 (hk ▸ List.mem_map_of_mem h)
      rw [get?, if_neg hne]
      exact get?_of_mem hn.2 h

/-- What is there after a write was there or was written. -/
theorem mem_put {t : Table κ α} {x : κ} {b : α} {entry : κ × α} (h : entry ∈ put t x b) :
    entry ∈ t ∨ entry = (x, b) := by
  induction t with
  | nil => exact Or.inr (List.mem_singleton.mp h)
  | cons first rest ih =>
    obtain ⟨k, a⟩ := first
    unfold put at h
    split at h
    · next hk =>
      subst hk
      rcases List.mem_cons.mp h with rfl | h
      · exact Or.inr rfl
      · exact Or.inl (List.mem_cons_of_mem _ h)
    · rcases List.mem_cons.mp h with rfl | h
      · exact Or.inl List.mem_cons_self
      · exact (ih h).imp_left (List.mem_cons_of_mem _)

/-- A write adds its key at the end, or nothing. -/
theorem keys_put (t : Table κ α) (x : κ) (b : α) :
    keys (put t x b) = if x ∈ keys t then keys t else keys t ++ [x] := by
  induction t with
  | nil => simp [put, keys]
  | cons p rest ih =>
    obtain ⟨k, a⟩ := p
    by_cases hk : k = x
    · subst hk; simp [put, keys]
    · have hx : ¬ x = k := fun h => hk h.symm
      simp only [keys] at ih
      by_cases hm : x ∈ rest.map Prod.fst
      · simp only [put, keys, hk, if_false, List.map_cons, List.mem_cons, hx, hm, or_true, if_true,
          ih]
      · simp only [put, keys, hk, if_false, List.map_cons, List.mem_cons, hx, hm, or_self, ih,
          List.cons_append]

/-- A write repeats no key. -/
theorem nodup_keys_put {t : Table κ α} (h : (keys t).Nodup) (x : κ) (b : α) :
    (keys (put t x b)).Nodup := by
  rw [keys_put]
  split
  · exact h
  · next hnew =>
    rw [List.nodup_append]
    refine ⟨h, List.pairwise_singleton _ _, fun k hk y hy heq => ?_⟩
    rw [List.mem_singleton.mp hy] at heq
    exact hnew (heq ▸ hk)

/-- A new key comes last. -/
theorem put_of_not_mem : ∀ {t : Table κ α} {x : κ} {b : α}, x ∉ keys t → put t x b = t ++ [(x, b)]
  | [], _, _, _ => rfl
  | (k, a) :: rest, x, b, h => by
    simp only [keys, List.map_cons, List.mem_cons, not_or] at h
    rw [put, if_neg (Ne.symm h.1), put_of_not_mem h.2]
    rfl

/-- Pairs whose keys are different make the table that lists them. -/
theorem ofPairs_of_nodup {pairs : Table κ α} (h : pairs.keys.Nodup) : ofPairs pairs = pairs := by
  have hfrom : ∀ {pairs start : Table κ α}, (keys start ++ keys pairs).Nodup →
      pairs.foldl (fun t pair => t.put pair.1 pair.2) start = start ++ pairs := by
    intro pairs
    induction pairs with
    | nil => exact fun _ => (List.append_nil _).symm
    | cons pair rest ih =>
      intro start h
      have hnew : pair.1 ∉ keys start := by
        intro hmem
        rw [List.nodup_append] at h
        exact h.2.2 _ hmem _ List.mem_cons_self rfl
      rw [List.foldl_cons, put_of_not_mem hnew, ih]
      · rw [List.append_assoc]
        rfl
      · simpa [keys] using h
  exact hfrom h

end Table

end LedgerScript
