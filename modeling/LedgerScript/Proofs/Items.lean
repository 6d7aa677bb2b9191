/-
# Which items are balances

An item is right, and gives a name and an amount, or it is faulty, and then in one way only: the
first of three checks that it fails (`gives_or_faulty`).  So items are read up to the first that is
faulty, and that is the one that is reported.

If none is, the table that is made of their pairs has each name where it was first given, with the
amount that was given last (`merges_ofPairs`).  A later item replaces an amount and moves no name,
so the two cannot be told by the same end of the list: the order grows by names that are new, the
amounts by the last pair.  Both are shown by induction from the end.
-/
import LedgerScript.Proofs.Amounts
import LedgerScript.Proofs.Funds
import LedgerScript.Proofs.Scanning
import Mathlib.Data.List.Forall2
import Mathlib.Data.List.Induction

namespace LedgerScript

/-! ## 1. Pairs that are merged -/

namespace Table

variable {κ α : Type} [DecidableEq κ]

/-- A table merges pairs: the keys stand in the order of their first pairs, each once, with the
values of their last pairs. -/
structure Merges (pairs : List (κ × α)) (t : Table κ α) : Prop where
  order : t.keys = (pairs.map Prod.fst).eraseDups
  nodup : t.keys.Nodup
  last {before after : List (κ × α)} {key : κ} {a : α} (h : pairs = before ++ (key, a) :: after)
    (hkey : key ∉ after.map Prod.fst) : t.get? key = some a

theorem Merges.mem_keys {pairs : List (κ × α)} {t : Table κ α} (h : Merges pairs t) {key : κ} :
    key ∈ t.keys ↔ key ∈ pairs.map Prod.fst := by
  rw [h.order, List.mem_eraseDups]

/-- One more pair is written into the table. -/
theorem Merges.put {pairs : List (κ × α)} {t : Table κ α} (h : Merges pairs t) (key : κ) (a : α) :
    Merges (pairs ++ [(key, a)]) (t.put key a) where
  order := by
    rw [keys_put, List.map_append, List.eraseDups_append, ← h.order]
    by_cases hmem : key ∈ t.keys
    · have hold := h.mem_keys.mp hmem
      simp [hmem, List.removeAll, hold]
    · have hnew : key ∉ pairs.map Prod.fst := fun hold => hmem (h.mem_keys.mpr hold)
      simp [hmem, List.removeAll, hnew, List.eraseDups_cons]
  nodup := nodup_keys_put h.nodup key a
  last := by
    intro before after other b hpairs hother
    rw [get?_put]
    rcases List.eq_nil_or_concat' after with rfl | ⟨init, final, rfl⟩
    · obtain ⟨-, heq⟩ := List.append_inj' hpairs rfl
      cases heq
      exact if_pos rfl
    · rw [← List.cons_append, ← List.append_assoc] at hpairs
      obtain ⟨hinit, heq⟩ := List.append_inj' hpairs rfl
      cases heq
      have hne : key ≠ other := by
        rintro rfl
        exact hother (by simp)
      rw [if_neg hne]
      exact h.last hinit fun hmem => hother (by simpa using .inl (by simpa using hmem))

/-- **Pairs that are written one after another** are merged. -/
theorem merges_ofPairs (pairs : List (κ × α)) : Merges pairs (ofPairs pairs) := by
  induction pairs using List.reverseRecOn with
  | nil =>
    constructor
    · rfl
    · exact List.nodup_nil
    · intro before after key a h
      simp at h
  | append_singleton pairs pair ih =>
    have hput : ofPairs (pairs ++ [pair]) = (ofPairs pairs).put pair.1 pair.2 := by
      simp [ofPairs]
    rw [hput]
    exact ih.put pair.1 pair.2

/-- What is written one after another is all that the table holds. -/
theorem mem_of_mem_ofPairs {pairs : List (κ × α)} {entry : κ × α} (h : entry ∈ ofPairs pairs) :
    entry ∈ pairs := by
  induction pairs using List.reverseRecOn with
  | nil => exact absurd h List.not_mem_nil
  | append_singleton pairs pair ih =>
    simp only [ofPairs, List.foldl_append, List.foldl_cons, List.foldl_nil] at h
    rcases mem_put h with h | rfl
    · exact List.mem_append_left _ (ih h)
    · simp

end Table

namespace CommandLine

open Text

variable {text name amount : String} {pair : String × Int} {error : BalanceError}

/-! ## 2. One item -/

/-- A right item, and the pair that it gives: a name, an equals sign, and an integer that is not
negative. -/
inductive Gives (text : String) : String × Int → Prop
  | mk {name amount : String} {n : Int} (htext : text = name ++ "=" ++ amount)
    (hname : IsItemName name) (hn : Handwritten n amount) (h0 : 0 ≤ n) : Gives text (name, n)

/-- A faulty item, and what is wrong with it. -/
inductive Faulty (text : String) : BalanceError → Prop
  | unsplit (h : '=' ∉ text.toList) : Faulty text (.shape text)
  | unnamed {amount : String} (htext : text = "=" ++ amount) : Faulty text (.shape text)
  | notInteger {name amount : String} (htext : text = name ++ "=" ++ amount)
    (hname : IsItemName name) (h : ∀ n, ¬ Handwritten n amount) :
    Faulty text (.notInteger name amount)
  | negative {name amount : String} {n : Int} (htext : text = name ++ "=" ++ amount)
    (hname : IsItemName name) (hn : Handwritten n amount) (h0 : n < 0) :
    Faulty text (.negative name)

/-- Without an equals sign there is nothing to split at. -/
theorem splitItem_of_not_mem (h : '=' ∉ text.toList) : splitItem text = none := by
  have hall : text.toList.takeWhile (· != '=') = text.toList :=
    List.takeWhile_eq_self_iff.mpr fun c hc => bne_iff_ne.mpr fun heq => h (heq ▸ hc)
  rw [splitItem, hall]
  simp

/-- With one, there is a first. -/
theorem exists_split (h : '=' ∈ text.toList) :
    ∃ name amount, '=' ∉ name.toList ∧ text = name ++ "=" ++ amount := by
  obtain ⟨before, after, htext, hbefore⟩ := List.eq_append_cons_of_mem h
  refine ⟨String.ofList before, String.ofList after, by simpa using hbefore, ?_⟩
  apply String.toList_injective
  simp [htext]

theorem readInteger_eq_none (h : ∀ n, ¬ Handwritten n amount) : readInteger amount = none := by
  cases hn : readInteger amount with
  | none => rfl
  | some n => exact absurd (readInteger_eq_some_iff.mp hn) (h n)

theorem Gives.readBalance (h : Gives text pair) : readBalance text = .ok pair := by
  obtain ⟨rfl, hname, hn, h0⟩ := h
  rw [readBalance_append hname, readInteger_eq_some_iff.mpr hn]
  exact if_neg (Int.not_lt.mpr h0)

theorem Faulty.readBalance (h : Faulty text error) : readBalance text = .error error := by
  cases h with
  | unsplit h => rw [CommandLine.readBalance, splitItem_of_not_mem h]
  | @unnamed amount htext =>
    have htext : text = "" ++ "=" ++ amount := htext.trans (by simp)
    have hsplit : splitItem text = some ("", amount) := by
      rw [htext, splitItem_append (by simp)]
    rw [CommandLine.readBalance, hsplit]
    rfl
  | notInteger htext hname h => rw [htext, readBalance_append hname, readInteger_eq_none h]
  | negative htext hname hn h0 =>
    rw [htext, readBalance_append hname, readInteger_eq_some_iff.mpr hn]
    exact if_pos h0

/-- **An item is right, or it is faulty.** -/
theorem gives_or_faulty (text : String) :
    (∃ pair, Gives text pair) ∨ ∃ error, Faulty text error := by
  by_cases hsign : '=' ∈ text.toList
  · obtain ⟨name, amount, hname, htext⟩ := exists_split hsign
    by_cases hempty : name = ""
    · subst hempty
      have htext : text = "=" ++ amount := by simpa using htext
      exact .inr ⟨_, .unnamed htext⟩
    by_cases hn : ∃ n, Handwritten n amount
    · obtain ⟨n, hn⟩ := hn
      rcases Int.lt_or_le n 0 with h0 | h0
      · exact .inr ⟨_, .negative htext ⟨hempty, hname⟩ hn h0⟩
      · exact .inl ⟨_, .mk htext ⟨hempty, hname⟩ hn h0⟩
    · exact .inr ⟨_, .notInteger htext ⟨hempty, hname⟩ fun n h => hn ⟨n, h⟩⟩
  · exact .inr ⟨_, .unsplit hsign⟩

theorem readBalance_eq_ok_iff : readBalance text = .ok pair ↔ Gives text pair := by
  constructor
  · intro h
    rcases gives_or_faulty text with ⟨other, hg⟩ | ⟨error, hf⟩
    · rw [hg.readBalance] at h
      cases h
      exact hg
    · rw [hf.readBalance] at h
      cases h
  · exact Gives.readBalance

theorem readBalance_eq_error_iff : readBalance text = .error error ↔ Faulty text error := by
  constructor
  · intro h
    rcases gives_or_faulty text with ⟨pair, hg⟩ | ⟨other, hf⟩
    · rw [hg.readBalance] at h
      cases h
    · rw [hf.readBalance] at h
      cases h
      exact hf
  · exact Faulty.readBalance

/-- A right item is not faulty. -/
theorem exists_gives_iff : (∃ pair, Gives text pair) ↔ ¬ ∃ error, Faulty text error := by
  constructor
  · rintro ⟨pair, hg⟩ ⟨error, hf⟩
    have h := hg.readBalance
    rw [hf.readBalance] at h
    cases h
  · exact (gives_or_faulty text).resolve_right

/-! ## 3. A list of items -/

variable {items : List String} {pairs : List (String × Int)} {balances : Table String Int}

/-- A row is taken without fault if and only if each of its members is. -/
theorem mapM_eq_ok_iff {α β ε : Type} {f : α → Except ε β} : ∀ {xs : List α} {ys : List β},
    xs.mapM f = .ok ys ↔ List.Forall₂ (fun x y => f x = .ok y) xs ys
  | [], ys => by
    rw [List.forall₂_nil_left_iff, List.mapM_nil]
    exact ⟨fun h => by cases h; rfl, fun h => by rw [h]; rfl⟩
  | x :: rest, ys => by
    rw [List.mapM_cons, List.forall₂_cons_left_iff]
    constructor
    · intro h
      cases hx : f x with
      | error error => rw [hx] at h; cases h
      | ok y =>
        cases hr : rest.mapM f with
        | error error => rw [hx, hr] at h; cases h
        | ok others =>
          rw [hx, hr] at h
          cases h
          exact ⟨y, others, rfl, mapM_eq_ok_iff.mp hr, rfl⟩
    · rintro ⟨y, others, hy, hothers, rfl⟩
      rw [hy, mapM_eq_ok_iff.mpr hothers]
      rfl

/-- The first faulty item is the one that is reported. -/
theorem readBalances_eq_error_iff :
    readBalances items = .error error ↔ ∃ before text after, items = before ++ text :: after ∧
      (∀ other ∈ before, ¬ ∃ error, Faulty other error) ∧ Faulty text error := by
  have hmap : readBalances items = .error error ↔ items.mapM readBalance = .error error := by
    rw [readBalances_eq_mapM]
    cases items.mapM readBalance with
    | error other => exact Iff.rfl
    | ok pairs => exact ⟨nofun, nofun⟩
  rw [hmap, Token.mapM_eq_error_iff]
  simp only [readBalance_eq_ok_iff, readBalance_eq_error_iff, exists_gives_iff]

/-- Items are read without fault into the table of what they give. -/
theorem readBalances_eq_ok_iff :
    readBalances items = .ok balances ↔
      ∃ pairs, List.Forall₂ Gives items pairs ∧ balances = Table.ofPairs pairs := by
  have hrow (pairs : List (String × Int)) :
      items.mapM readBalance = .ok pairs ↔ List.Forall₂ Gives items pairs := by
    simp only [mapM_eq_ok_iff, readBalance_eq_ok_iff]
  rw [readBalances_eq_mapM]
  constructor
  · intro h
    cases hp : items.mapM readBalance with
    | error error => rw [hp] at h; cases h
    | ok pairs =>
      rw [hp] at h
      cases h
      exact ⟨pairs, (hrow pairs).mp hp, rfl⟩
  · rintro ⟨pairs, hpairs, rfl⟩
    rw [(hrow pairs).mpr hpairs]
    rfl

/-- Every one of some right items gives a pair. -/
theorem exists_gives_of_mem (h : List.Forall₂ Gives items pairs) (hmem : text ∈ items) :
    ∃ pair, Gives text pair := by
  induction h with
  | nil => cases hmem
  | cons hgives _ ih =>
    rcases List.mem_cons.mp hmem with rfl | hmem
    · exact ⟨_, hgives⟩
    · exact ih hmem

/-- Items fail if and only if one of them is faulty. -/
theorem exists_error_iff :
    (∃ error, readBalances items = .error error) ↔ ∃ text ∈ items, ∃ error, Faulty text error := by
  constructor
  · rintro ⟨error, h⟩
    obtain ⟨before, text, after, rfl, -, hfaulty⟩ := readBalances_eq_error_iff.mp h
    exact ⟨text, by simp, error, hfaulty⟩
  · rintro ⟨text, hmem, error, hfaulty⟩
    cases h : readBalances items with
    | error other => exact ⟨other, rfl⟩
    | ok balances =>
      obtain ⟨pairs, hpairs, -⟩ := readBalances_eq_ok_iff.mp h
      exact absurd ⟨error, hfaulty⟩ (exists_gives_iff.mp (exists_gives_of_mem hpairs hmem))

/-- What right items give is not negative. -/
theorem nonneg_of_forall₂ (h : List.Forall₂ Gives items pairs) : ∀ pair ∈ pairs, 0 ≤ pair.2 := by
  induction h with
  | nil => simp
  | cons hgives _ ih =>
    obtain ⟨-, -, -, h0⟩ := hgives
    exact List.forall_mem_cons.mpr ⟨h0, ih⟩

/-- **What a list of items comes to.**  It fails if and only if some item is faulty: it has no
equals sign, or nothing before the first, or behind that no integer as a user writes it, or a
negative one; and the error is that of the first such item.  Otherwise the pairs that the items
give are merged: every name has the amount of its last item, in the order of the first items.  No
amount is negative, and the table is loaded into a ledger that lists it again.  In particular the
items that are written for some pairs give these pairs, merged. -/
theorem readBalances_exact :
    (∀ items error, readBalances items = .error error ↔
      ∃ before text after, items = before ++ text :: after ∧
        (∀ other ∈ before, ¬ ∃ error, Faulty other error) ∧ Faulty text error) ∧
    (∀ items, (∃ error, readBalances items = .error error) ↔
      ∃ text ∈ items, ∃ error, Faulty text error) ∧
    (∀ items balances, readBalances items = .ok balances →
      (∃ pairs, List.Forall₂ Gives items pairs ∧ Table.Merges pairs balances) ∧
      (∀ pair ∈ balances, 0 ≤ pair.2) ∧
      ∃ ledger, Ledger.ofPairs balances = .ok ledger ∧ ledger.toPairs = balances) ∧
    ∀ pairs : List (String × Int), (∀ pair ∈ pairs, IsItemName pair.1) →
      (∀ pair ∈ pairs, 0 ≤ pair.2 ∧ isWritable pair.2 = true) →
        ∃ balances, readBalances (pairs.map item) = .ok balances ∧
          Table.Merges pairs balances := by
  refine ⟨fun items error => readBalances_eq_error_iff, fun items => exists_error_iff,
    fun items balances h => ?_, fun pairs hnames hamounts => ?_⟩
  · obtain ⟨pairs, hpairs, rfl⟩ := readBalances_eq_ok_iff.mp h
    have hmerged := Table.merges_ofPairs pairs
    have h0 : ∀ pair ∈ Table.ofPairs pairs, 0 ≤ pair.2 := fun pair hmem =>
      nonneg_of_forall₂ hpairs pair (Table.mem_of_mem_ofPairs hmem)
    exact ⟨⟨pairs, hpairs, hmerged⟩, h0, Ledger.exists_loaded hmerged.nodup h0⟩
  · exact ⟨_, readBalances_items hnames hamounts, Table.merges_ofPairs pairs⟩

/-- Some amounts as users write them, the last one in Arabic-Indic digits. -/
def purses : List String := ["shop= +1_0 ", "bank=5", "shop=\u0662"]

/-- The shop is given twice, and keeps its place with the later amount.  An amount goes on behind a
second equals sign, so the second item of the next list is the first that is faulty.  A pair that is
written twice is merged. -/
theorem readBalances_exact_purses :
    readBalances purses = .ok [("shop", 2), ("bank", 5)] ∧
    (∃ ledger, Ledger.ofPairs [("shop", 2), ("bank", 5)] = .ok ledger ∧
      ledger.toPairs = [("shop", 2), ("bank", 5)]) ∧
    readBalances ["bank=5", "shop=-2=", "=3"] = .error (.notInteger "shop" "-2=") ∧
    ∃ balances, readBalances ["a=1", "b=0", "a=7"] = .ok balances ∧
      balances.keys = ["a", "b"] ∧ balances.get? "a" = some 7 := by
  obtain ⟨herror, -, hok, hitems⟩ := readBalances_exact
  have hpurses : readBalances purses = .ok [("shop", 2), ("bank", 5)] := by
    have hsome : (readBalances purses).toOption = some [("shop", 2), ("bank", 5)] := by
      decide +kernel
    cases h : readBalances purses with
    | error error => rw [h] at hsome; cases hsome
    | ok balances => rw [h] at hsome; cases hsome; rfl
  refine ⟨hpurses, (hok purses _ hpurses).2.2, ?_, ?_⟩
  · have hbank : IsItemName "bank" := ⟨by decide, by decide⟩
    have hshop : IsItemName "shop" := ⟨by decide, by decide⟩
    have hfive : Handwritten 5 "5" := readInteger_eq_some_iff.mp (by decide +kernel)
    have hnone : readInteger "-2=" = none := by decide +kernel
    refine (herror _ _).mpr ⟨["bank=5"], "shop=-2=", ["=3"], rfl, ?_, ?_⟩
    · intro other hmem
      rw [List.mem_singleton.mp hmem]
      exact exists_gives_iff.mp ⟨_, .mk rfl hbank hfive (by decide)⟩
    · refine .notInteger rfl hshop fun n hn => ?_
      rw [readInteger_eq_some_iff.mpr hn] at hnone
      cases hnone
  · obtain ⟨balances, hread, hmerged⟩ := hitems [("a", 1), ("b", 0), ("a", 7)]
      (by unfold IsItemName; decide) (by decide +kernel)
    have hlast : [("a", (1 : Int)), ("b", 0), ("a", 7)] = [("a", 1), ("b", 0)] ++ [("a", 7)] := rfl
    exact ⟨balances, hread, hmerged.order.trans (by decide), hmerged.last hlast (by simp)⟩

end CommandLine

end LedgerScript
