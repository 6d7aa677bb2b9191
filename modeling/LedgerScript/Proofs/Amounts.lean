/-
# Balances that are written as items

An item `NAME=AMOUNT` is read back as the name and the amount it was made from: the name ends at
the first equals sign, and a name without one is cut off as it was, and an amount in decimal is
read as the number it stands for (`readInteger_toString`).  Items are read one after another into a
table, so a list of items is the table of its pairs (`readBalances_items`), which is the list
itself if no name is repeated.
-/
import LedgerScript.CommandLine.Balances
import LedgerScript.Proofs.Handwriting
import LedgerScript.Proofs.Numerals

namespace LedgerScript

/-! ## 1. Numbers in decimal -/

namespace Text

variable {n : Int}

theorem isDigit_of_mem_toDigits {n : Nat} {c : Char} (h : c ∈ Nat.toDigits 10 n) :
    c.isDigit = true := Nat.isDigit_of_mem_toDigits (by decide) (by decide) h

/-- ASCII digits are digits. -/
theorem digits_of_isDigit : ∀ {digits : List Char}, digits ≠ [] →
    (∀ c ∈ digits, c.isDigit = true) → Digits digits (digits.map fun c => c.toNat - 48)
  | [c], _, h => .last (digitValue?_of_isDigit c (h c List.mem_cons_self))
  | c :: c' :: rest, _, h => by
    obtain ⟨hc, hrest⟩ := List.forall_mem_cons.mp h
    exact .next (digitValue?_of_isDigit c hc) (digits_of_isDigit (List.cons_ne_nil _ _) hrest)

/-- A sign and the digits of a number, if they are not too many, say the number with its sign. -/
theorem handwritten_of_sign {text : String} {sign : List Char} {negative : Bool} {m : Nat}
    (hsign : Sign sign negative) (htext : text.toList = sign ++ Nat.toDigits 10 m)
    (hlength : (Nat.toDigits 10 m).length ≤ digitLimit) : Handwritten (signed negative m) text :=
  ⟨{ front := [], sign, digits := Nat.toDigits 10 m, back := [], negative
     values := (Nat.toDigits 10 m).map fun c => c.toNat - 48
     parts := by rw [htext, List.append_nil, List.nil_append]
     space_front := nofun
     space_back := nofun
     signs := hsign
     spells := digits_of_isDigit Nat.toDigits_ne_nil fun _ => isDigit_of_mem_toDigits
     short := by rwa [List.length_map]
     value := by rw [← ofDigits_eq_reverse, ofDigits_eq, Nat.ofDigitChars_ten_toDigits] }⟩

/-- **A number that is written in decimal is read back.** -/
theorem readInteger_toString (h : isWritable n = true) : readInteger (toString n) = some n := by
  have hlength := isWritable_iff_length.mp h
  refine readInteger_eq_some_iff.mpr ?_
  cases n with
  | ofNat m => exact handwritten_of_sign .none (toList_toString (Int.natCast_nonneg m)) hlength
  | negSucc m => exact handwritten_of_sign .minus (toList_toString_negSucc m) hlength

/-- A number that is too long to be written in decimal could not be read back. -/
theorem readInteger_eq_none_of_long (h0 : 0 ≤ n) (h : isWritable n = false) :
    readInteger (toString n) = none := by
  have hlong : digitLimit < (Nat.toDigits 10 n.natAbs).length := by
    rw [← Nat.not_le, ← isWritable_iff_length, h]
    exact Bool.false_ne_true
  have hnat : n.toNat = n.natAbs := by omega
  have hspells := digits_of_isDigit Nat.toDigits_ne_nil
    fun _ => isDigit_of_mem_toDigits (n := n.natAbs)
  obtain ⟨first, d, hfirst, hd⟩ := hspells.exists_first
  obtain ⟨last, e, hlast, he⟩ := hspells.exists_last
  obtain ⟨hmargin, hminus, hplus, -⟩ := of_digitValue? hd
  have htrim : trim isMargin ([] ++ Nat.toDigits 10 n.natAbs ++ []) = Nat.toDigits 10 n.natAbs :=
    trim_append nofun nofun hfirst hmargin hlast (of_digitValue? he).1
  have hsign : takeSign (Nat.toDigits 10 n.natAbs) = (false, Nat.toDigits 10 n.natAbs) :=
    takeSign_append .none hfirst hminus hplus
  rw [List.append_nil, List.nil_append] at htrim
  rw [readInteger, toList_toString h0, hnat, htrim, hsign]
  dsimp only
  rw [groupedDigits?_eq_some_iff.mpr hspells]
  exact if_neg (by rw [List.length_map]; omega)

end Text

/-! ## 2. Items -/

namespace CommandLine

/-- The item for an account and its balance. -/
def item (pair : String × Int) : String := pair.1 ++ "=" ++ toString pair.2

/-- A name that an item can be made of: it is not empty, and has no equals sign. -/
def IsItemName (name : String) : Prop := name ≠ "" ∧ '=' ∉ name.toList

/-- The name ends at the first equals sign. -/
theorem splitItem_append {name : String} (h : '=' ∉ name.toList) (amount : String) :
    splitItem (name ++ "=" ++ amount) = some (name, amount) := by
  have htext : (name ++ "=" ++ amount).toList = name.toList ++ '=' :: amount.toList := by
    rw [String.toList_append, String.toList_append, List.append_assoc]
    rfl
  have htake : (name.toList ++ '=' :: amount.toList).takeWhile (· != '=') = name.toList := by
    have hname : ∀ c ∈ name.toList, (c != '=') = true := fun c hc =>
      bne_iff_ne.mpr fun heq => h (heq ▸ hc)
    rw [List.takeWhile_append_of_pos hname]
    simp
  rw [splitItem, htext, htake]
  simp

/-- An item with a name is read by what stands behind the first equals sign. -/
theorem readBalance_append {name : String} (h : IsItemName name) (amount : String) :
    readBalance (name ++ "=" ++ amount) = match Text.readInteger amount with
      | none => .error (.notInteger name amount)
      | some n => if n < 0 then .error (.negative name) else .ok (name, n) := by
  rw [readBalance, splitItem_append h.2]
  exact if_neg h.1

/-- **An item is read back.** -/
theorem readBalance_item {pair : String × Int} (hname : IsItemName pair.1) (h0 : 0 ≤ pair.2)
    (hw : Text.isWritable pair.2 = true) : readBalance (item pair) = .ok pair := by
  rw [item, readBalance_append hname, Text.readInteger_toString hw]
  exact if_neg (Int.not_lt.mpr h0)

/-- Writes the balance of an item into a table. -/
def putItem (balances : Table String Int) (text : String) :
    Except BalanceError (Table String Int) :=
  (readBalance text).map fun pair => balances.put pair.1 pair.2

theorem readBalances_eq (items : List String) : readBalances items = items.foldlM putItem [] := by
  have hstep : ∀ (balances : Table String Int) (text : String),
      (readBalance text >>= fun pair => pure (balances.put pair.1 pair.2)) =
        putItem balances text := by
    intro balances text
    rw [putItem]
    cases readBalance text <;> rfl
  exact congrArg (fun step => items.foldlM step []) (funext fun t => funext (hstep t))

/-- Items that are read one after another are read each by itself, into a table. -/
theorem readBalances_eq_mapM (items : List String) :
    readBalances items = (items.mapM readBalance).map Table.ofPairs := by
  have hfrom : ∀ {items : List String} {start : Table String Int},
      items.foldlM putItem start = (items.mapM readBalance).map fun pairs =>
        pairs.foldl (fun t pair => Table.put t pair.1 pair.2) start := by
    intro items
    induction items with
    | nil => exact rfl
    | cons text rest ih =>
      intro start
      rw [List.foldlM_cons, List.mapM_cons, putItem]
      cases readBalance text with
      | error error => rfl
      | ok pair =>
        refine ih.trans ?_
        cases rest.mapM readBalance <;> rfl
  rw [readBalances_eq]
  exact hfrom

/-- **The items for some pairs** make the table of the pairs. -/
theorem readBalances_items {pairs : Table String Int}
    (hname : ∀ pair ∈ pairs, IsItemName pair.1)
    (hamount : ∀ pair ∈ pairs, 0 ≤ pair.2 ∧ Text.isWritable pair.2 = true) :
    readBalances (pairs.map item) = .ok (Table.ofPairs pairs) := by
  have hread : (pairs.map item).mapM readBalance = .ok pairs := by
    induction pairs with
    | nil => rfl
    | cons pair rest ih =>
      obtain ⟨hn, hnames⟩ := List.forall_mem_cons.mp hname
      obtain ⟨⟨h0, hw⟩, hamounts⟩ := List.forall_mem_cons.mp hamount
      rw [List.map_cons, List.mapM_cons, readBalance_item hn h0 hw, ih hnames hamounts]
      rfl
  rw [readBalances_eq_mapM, hread]
  rfl

end CommandLine

end LedgerScript
