/-
# Numbers and their digits

A number that is written and read again is the same number.  A row of digits that is read and
written again loses the zeros in front, and nothing else (`toDigits_ofDigitChars`).
-/
import LedgerScript.Text.Decimal

namespace LedgerScript.Text

/-! ## 1. Digits -/

theorem toNat_of_isDigit {c : Char} (h : c.isDigit = true) : 48 ≤ c.toNat ∧ c.toNat ≤ 57 :=
  Char.isDigit_iff_toNat.mp h

/-- A digit is the digit of its own value. -/
theorem digitChar_of_isDigit {c : Char} (h : c.isDigit = true) :
    Nat.digitChar (c.toNat - 48) = c ∧ c.toNat - 48 < 10 := by
  obtain ⟨hlow, hhigh⟩ := toNat_of_isDigit h
  have hlt : c.toNat - 48 < 10 := by omega
  have hval : (Nat.digitChar (c.toNat - 48)).toNat = c.toNat := by
    rw [Nat.toNat_digitChar_of_lt_ten hlt]
    omega
  exact ⟨Char.toNat_inj.mp hval, hlt⟩

theorem ofDigits_eq (digits : List Char) :
    ofDigits (digits.map fun c => c.toNat - 48) = Nat.ofDigitChars 10 digits 0 := by
  rw [ofDigits, List.foldl_map, Nat.ofDigitChars_eq_foldl]
  rfl

/-! ## 2. Writing what was read -/

/-- Digits without the zeros in front; a zero that stands alone is kept. -/
def withoutZeros : List Char → List Char
  | '0' :: next :: rest => withoutZeros (next :: rest)
  | digits => digits

theorem length_withoutZeros_le (digits : List Char) :
    (withoutZeros digits).length ≤ digits.length := by
  fun_induction withoutZeros digits with
  | case1 next rest ih => exact Nat.le_succ_of_le ih
  | case2 => exact Nat.le_refl _

/-- The digits that follow a number that is not zero are written after it. -/
theorem toDigits_ofDigitChars_of_pos : ∀ (digits : List Char) {n : Nat}, 0 < n →
    (∀ c ∈ digits, c.isDigit = true) →
      Nat.toDigits 10 (Nat.ofDigitChars 10 digits n) = Nat.toDigits 10 n ++ digits
  | [], n, _, _ => by rw [Nat.ofDigitChars_nil, List.append_nil]
  | c :: rest, n, hn, hd => by
    obtain ⟨hc, hrest⟩ := List.forall_mem_cons.mp hd
    obtain ⟨hchar, hlt⟩ := digitChar_of_isDigit hc
    have hzero : '0'.toNat = 48 := rfl
    have hpos : 0 < 10 * n + (c.toNat - 48) := by omega
    have hn : Nat.toDigits 10 (10 * n + (c.toNat - 48)) = Nat.toDigits 10 n ++ [c] := by
      rw [Nat.toDigits_of_base_le (by decide) (by omega)]
      have hdiv : (10 * n + (c.toNat - 48)) / 10 = n := by omega
      have hmod : (10 * n + (c.toNat - 48)) % 10 = c.toNat - 48 := by omega
      rw [hdiv, hmod, hchar]
    rw [Nat.ofDigitChars_cons, hzero, toDigits_ofDigitChars_of_pos rest hpos hrest, hn]
    simp

/-- **Digits that are read and written again** lose the zeros in front. -/
theorem toDigits_ofDigitChars {digits : List Char} (hne : digits ≠ [])
    (hd : ∀ c ∈ digits, c.isDigit = true) :
    Nat.toDigits 10 (Nat.ofDigitChars 10 digits 0) = withoutZeros digits := by
  fun_induction withoutZeros digits with
  | case1 next rest ih =>
    have hrest := (List.forall_mem_cons.mp hd).2
    rw [← ih (List.cons_ne_nil _ _) hrest, Nat.ofDigitChars_cons]
    rfl
  | case2 digits hzero =>
    cases digits with
    | nil => exact absurd rfl hne
    | cons c rest =>
      obtain ⟨hc, hrest⟩ := List.forall_mem_cons.mp hd
      obtain ⟨hchar, hlt⟩ := digitChar_of_isDigit hc
      have hfirst : Nat.toDigits 10 (c.toNat - 48) = [c] := by
        rw [Nat.toDigits_of_lt_base hlt, hchar]
      have hvalue : Nat.ofDigitChars 10 (c :: rest) 0 =
          Nat.ofDigitChars 10 rest (c.toNat - 48) := by
        rw [Nat.ofDigitChars_cons, Nat.mul_zero, Nat.zero_add]
        rfl
      rw [hvalue]
      cases rest with
      | nil => rw [Nat.ofDigitChars_nil, hfirst]
      | cons next rest =>
        have hpos : 0 < c.toNat - 48 := by
          rcases Nat.eq_zero_or_pos (c.toNat - 48) with h | h
          · rw [h] at hchar
            exact absurd hchar.symm fun h => hzero next rest (h ▸ rfl)
          · exact h
        rw [toDigits_ofDigitChars_of_pos _ hpos hrest, hfirst]
        rfl

/-! ## 3. Reading what was written -/

/-- The digits of a number that is not negative. -/
theorem toList_toString {n : Int} (h : 0 ≤ n) :
    (toString n).toList = Nat.toDigits 10 n.toNat := by
  obtain ⟨m, rfl⟩ := Int.eq_ofNat_of_zero_le h
  have hm : toString (m : Int) = toString m := rfl
  rw [hm, Nat.toString_eq_ofList_toDigits, String.toList_ofList, Int.toNat_natCast]

/-- The minus sign and the digits of a negative number. -/
theorem toList_toString_negSucc (m : Nat) :
    (toString (Int.negSucc m)).toList = '-' :: Nat.toDigits 10 (m + 1) := by
  have hm : toString (Int.negSucc m) = "-" ++ toString (m + 1) := rfl
  rw [hm, Nat.toString_eq_ofList_toDigits, String.toList_append, String.toList_ofList]
  simp

theorem readDigits_toDigits {n : Nat} (h : (Nat.toDigits 10 n).length ≤ digitLimit) :
    readDigits (Nat.toDigits 10 n) = .ok n := by
  rw [readDigits, if_pos h, ofDigits_eq, Nat.ofDigitChars_ten_toDigits]

/-! ## 4. Numbers that can be written -/

theorem length_toDigits_le_iff {m digits : Nat} (h : 0 < digits) :
    (Nat.toDigits 10 m).length ≤ digits ↔ m < powerOfTen digits := by
  rw [powerOfTen]
  exact Nat.length_toDigits_le_iff (by decide) h

theorem powerOfTen_pos (digits : Nat) : 0 < powerOfTen digits := by
  rw [powerOfTen]
  exact Nat.pow_pos (by decide)

/-- The least number that is too long to be written. -/
theorem not_isWritable_powerOfTen : isWritable (powerOfTen digitLimit) = false := by
  rw [isWritable, Int.natAbs_natCast]
  exact decide_eq_false (Nat.lt_irrefl _)

/-- A number can be written if and only if its digits are not too many to be read. -/
theorem isWritable_iff_length {n : Int} :
    isWritable n = true ↔ (Nat.toDigits 10 n.natAbs).length ≤ digitLimit := by
  rw [isWritable, decide_eq_true_iff, length_toDigits_le_iff (by decide)]

/-- A number is writable if its text is short enough to be read. -/
theorem isWritable_of_length {n : Int} (h : 0 ≤ n) (hl : (toString n).length ≤ digitLimit) :
    isWritable n = true := by
  rw [← String.length_toList, toList_toString h] at hl
  rw [isWritable_iff_length, show n.natAbs = n.toNat by omega]
  exact hl

end LedgerScript.Text
