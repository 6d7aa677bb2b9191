/-
# The text of a JSON value

The text of a value is printable ASCII, and line feeds between its parts if it is written over
several lines (`plain_pretty`): whatever else a string holds is escaped.  So the text holds no
escape character, and a command that says it leaves nothing out.

A value is written if every integer in it is short enough (`Writable`), and loses nothing if it has
no decimals either (`Exact`).  Both are asked of the parts of arrays and objects one by one.
-/
import LedgerScript.Json
import LedgerScript.Proofs.Amounts
import LedgerScript.Proofs.Lexing

namespace LedgerScript

namespace Json

/-! ## 1. Plain text -/

/-- A character of the text of JSON values: a line feed, or printable ASCII. -/
def IsPlain (c : Char) : Prop := c = '\n' ∨ 0x20 ≤ c.toNat ∧ c.toNat < 0x7F

/-- Text of such characters only. -/
def Plain (text : String) : Prop := ∀ c ∈ text.toList, IsPlain c

/-- Plain text holds no escape character. -/
theorem Plain.not_mem_escape {text : String} (h : Plain text) : '\x1b' ∉ text.toList := by
  intro hmem
  rcases h _ hmem with hc | ⟨hc, -⟩
  · exact absurd hc (by decide)
  · exact absurd hc (by decide)

theorem Plain.append {first second : String} (h1 : Plain first) (h2 : Plain second) :
    Plain (first ++ second) := by
  intro c hc
  rw [String.toList_append] at hc
  exact (List.mem_append.mp hc).elim (h1 c) (h2 c)

theorem Plain.intercalate {joint : String} {parts : List String} (hj : Plain joint)
    (hparts : ∀ part ∈ parts, Plain part) : Plain (joint.intercalate parts) := by
  intro c hc
  rw [String.toList_intercalate] at hc
  rcases Text.mem_intercalate hc with hc | ⟨segment, hsegment, hc⟩
  · exact hj c hc
  · obtain ⟨part, hpart, rfl⟩ := List.mem_map.mp hsegment
    exact hparts part hpart c hc

theorem isPlain_of_isDigit {c : Char} (h : c.isDigit = true) : IsPlain c := by
  obtain ⟨hlow, hhigh⟩ := Text.toNat_of_isDigit h
  exact .inr ⟨by omega, by omega⟩

theorem plain_toString (n : Int) : Plain (toString n) := by
  have hdigits {m : Nat} : ∀ c ∈ Nat.toDigits 10 m, IsPlain c := fun c hc =>
    isPlain_of_isDigit (Text.isDigit_of_mem_toDigits hc)
  intro c hc
  cases n with
  | ofNat m =>
    have htext : (toString (Int.ofNat m)).toList = Nat.toDigits 10 m :=
      Text.toList_toString (Int.natCast_nonneg m)
    rw [htext] at hc
    exact hdigits c hc
  | negSucc m =>
    rw [Text.toList_toString_negSucc] at hc
    rcases List.mem_cons.mp hc with rfl | hc
    · exact .inr (by decide)
    · exact hdigits c hc

/-! ## 2. Strings -/

theorem isPlain_hexDigit {n : Nat} (h : n < 16) : IsPlain (Text.hexDigit n) := by
  have hall : ∀ n < 16, (Text.hexDigit n).toNat < 0x7F ∧ 0x20 ≤ (Text.hexDigit n).toNat := by
    decide
  exact .inr ⟨(hall n h).2, (hall n h).1⟩

theorem isPlain_of_mem_hexDigits {c : Char} : ∀ {width n : Nat}, c ∈ Text.hexDigits width n →
    IsPlain c
  | 0, _, h => absurd h List.not_mem_nil
  | width + 1, n, h => by
    rw [Text.hexDigits] at h
    rcases List.mem_append.mp h with h | h
    · exact isPlain_of_mem_hexDigits h
    · rw [List.mem_singleton.mp h]
      exact isPlain_hexDigit (Nat.mod_lt n (by decide))

theorem isPlain_of_mem_unitEscape {c : Char} {unit : Nat} (h : c ∈ unitEscape unit) :
    IsPlain c := by
  rcases List.mem_cons.mp h with rfl | h
  · exact .inr (by decide)
  rcases List.mem_cons.mp h with rfl | h
  · exact .inr (by decide)
  · exact isPlain_of_mem_hexDigits h

/-- A backslash and a character that may follow it. -/
theorem isPlain_of_mem_pair {c d : Char} (hd : IsPlain d) (h : c ∈ ['\\', d]) : IsPlain c := by
  rcases List.mem_cons.mp h with rfl | h
  · exact .inr (by decide)
  · rwa [List.mem_singleton.mp h]

theorem isPlain_of_mem_escapeChar {c d : Char} (h : d ∈ escapeChar c) : IsPlain d := by
  unfold escapeChar at h
  split at h
  · next hc =>
    refine isPlain_of_mem_pair ?_ h
    rcases hc with rfl | rfl
    · exact .inr (by decide)
    · exact .inr (by decide)
  iterate 5
    split at h
    · exact isPlain_of_mem_pair (.inr (by decide)) h
  split at h
  · next hc => rwa [List.mem_singleton.mp h, IsPlain, or_iff_right_of_imp fun _ => hc]
  split at h
  · exact isPlain_of_mem_unitEscape h
  · exact (List.mem_append.mp h).elim isPlain_of_mem_unitEscape isPlain_of_mem_unitEscape

theorem plain_literal (s : String) : Plain (literal s) := by
  have hquote : IsPlain '"' := .inr (by decide)
  intro c hc
  rw [literal, String.toList_ofList] at hc
  rcases List.mem_cons.mp hc with rfl | hc
  · exact hquote
  rcases List.mem_append.mp hc with hc | hc
  · obtain ⟨d, -, hmem⟩ := List.mem_flatMap.mp hc
    exact isPlain_of_mem_escapeChar hmem
  · rwa [List.mem_singleton.mp hc]

/-! ## 3. Values -/

/-- Words and marks of JSON are plain. -/
theorem plain_of_all {text : String}
    (h : text.toList.all (fun c => decide (0x20 ≤ c.toNat ∧ c.toNat < 0x7F)) = true) :
    Plain text := fun c hc => .inr (of_decide_eq_true (List.all_eq_true.mp h c hc))

mutual

/-- The text of a value on one line is plain. -/
theorem plain_compact : ∀ value : Json, Plain value.compact
  | .null => plain_of_all (by decide)
  | .bool true => plain_of_all (by decide)
  | .bool false => plain_of_all (by decide)
  | .integer n => plain_toString n
  | .decimal mantissa exponent => by
    have he : Plain "e" := plain_of_all (by decide)
    have htext : (Json.decimal mantissa exponent).compact =
        toString mantissa ++ "e" ++ toString exponent := rfl
    rw [htext]
    exact ((plain_toString mantissa).append he).append (plain_toString exponent)
  | .notFinite => plain_of_all (by decide)
  | .string s => plain_literal s
  | .array items => by
    have hopen : Plain "[" := plain_of_all (by decide)
    have hcomma : Plain ", " := plain_of_all (by decide)
    have hclose : Plain "]" := plain_of_all (by decide)
    exact (hopen.append (hcomma.intercalate (plain_compactItems items))).append hclose
  | .object members => by
    have hopen : Plain "\x7b" := plain_of_all (by decide)
    have hcomma : Plain ", " := plain_of_all (by decide)
    have hclose : Plain "\x7d" := plain_of_all (by decide)
    exact (hopen.append (hcomma.intercalate (plain_compactMembers members))).append hclose

theorem plain_compactItems : ∀ items : List Json, ∀ part ∈ compactItems items, Plain part
  | [], _, h => absurd h List.not_mem_nil
  | item :: rest, part, h => by
    rcases List.mem_cons.mp h with rfl | h
    · exact plain_compact item
    · exact plain_compactItems rest part h

theorem plain_compactMembers : ∀ members : List (String × Json),
    ∀ part ∈ compactMembers members, Plain part
  | [], _, h => absurd h List.not_mem_nil
  | (key, value) :: rest, part, h => by
    rcases List.mem_cons.mp h with rfl | h
    · have hcolon : Plain ": " := plain_of_all (by decide)
      exact ((plain_literal key).append hcolon).append (plain_compact value)
    · exact plain_compactMembers rest part h

end

theorem plain_newline (level : Nat) : Plain (newline level) := by
  intro c hc
  rw [newline, String.toList_append] at hc
  rcases List.mem_append.mp hc with hc | hc
  · exact .inl (List.mem_singleton.mp hc)
  · rw [String.toList_ofList] at hc
    rw [(List.mem_replicate.mp hc).2]
    exact .inr (by decide)

theorem plain_block {opening closing : String} (ho : Plain opening) (hc : Plain closing)
    (level : Nat) {parts : List String} (hparts : ∀ part ∈ parts, Plain part) :
    Plain (block opening closing level parts) := by
  unfold block
  split
  · exact ho.append hc
  · have hcomma : Plain "," := plain_of_all (by decide)
    have hjoint := hcomma.append (plain_newline (level + 1))
    exact (((ho.append (plain_newline _)).append (hjoint.intercalate hparts)).append
      (plain_newline level)).append hc

mutual

theorem plain_prettyAt (level : Nat) : ∀ value : Json, Plain (value.prettyAt level)
  | .array items =>
    plain_block (plain_of_all (by decide)) (plain_of_all (by decide)) level
      (plain_prettyItems (level + 1) items)
  | .object members =>
    plain_block (plain_of_all (by decide)) (plain_of_all (by decide)) level
      (plain_prettyMembers (level + 1) members)
  | .null => plain_compact .null
  | .bool b => plain_compact (.bool b)
  | .integer n => plain_compact (.integer n)
  | .decimal mantissa exponent => plain_compact (.decimal mantissa exponent)
  | .notFinite => plain_compact .notFinite
  | .string s => plain_compact (.string s)

theorem plain_prettyItems (level : Nat) : ∀ items : List Json,
    ∀ part ∈ prettyItems level items, Plain part
  | [], _, h => absurd h List.not_mem_nil
  | item :: rest, part, h => by
    rcases List.mem_cons.mp h with rfl | h
    · exact plain_prettyAt level item
    · exact plain_prettyItems level rest part h

theorem plain_prettyMembers (level : Nat) : ∀ members : List (String × Json),
    ∀ part ∈ prettyMembers level members, Plain part
  | [], _, h => absurd h List.not_mem_nil
  | (key, value) :: rest, part, h => by
    rcases List.mem_cons.mp h with rfl | h
    · have hcolon : Plain ": " := plain_of_all (by decide)
      exact ((plain_literal key).append hcolon).append (plain_prettyAt level value)
    · exact plain_prettyMembers level rest part h

end

/-- **The text of a value** is printable ASCII and line feeds. -/
theorem plain_pretty (value : Json) : Plain value.pretty := plain_prettyAt 0 value

/-! ## 4. Atoms -/

/-- Every atom of a value has a property. -/
def Each (P : Json → Prop) (value : Json) : Prop := ∀ atom ∈ value.atoms, P atom

section Each

variable {P : Json → Prop}

/-- A value that is no array and no object. -/
theorem each_atom {value : Json} (h : value.atoms = [value]) : Each P value ↔ P value := by
  rw [Each, h, List.forall_mem_singleton]

theorem each_array {items : List Json} :
    Each P (.array items) ↔ ∀ item ∈ items, Each P item := by
  induction items with
  | nil => exact ⟨fun _ _ h => absurd h List.not_mem_nil, fun _ _ h => absurd h List.not_mem_nil⟩
  | cons item rest ih =>
    rw [List.forall_mem_cons, ← ih]
    exact List.forall_mem_append

theorem each_object {members : List (String × Json)} :
    Each P (.object members) ↔ ∀ member ∈ members, Each P member.2 := by
  induction members with
  | nil => exact ⟨fun _ _ h => absurd h List.not_mem_nil, fun _ _ h => absurd h List.not_mem_nil⟩
  | cons member rest ih =>
    rw [List.forall_mem_cons, ← ih]
    exact List.forall_mem_append

end Each

/-! ## 5. Integers that are short enough -/

/-- Every integer in a value is short enough to be written. -/
def Writable (value : Json) : Prop := value.Each fun atom => atom.tooLong? = none

theorem writable_integer {n : Int} : Writable (.integer n) ↔ Text.isWritable n = true := by
  rw [Writable, each_atom rfl, tooLong?]
  split
  · next h => exact ⟨fun _ => h, fun _ => rfl⟩
  · next h => exact ⟨nofun, fun hn => absurd hn h⟩

theorem writable_null : Writable .null := (each_atom rfl).mpr rfl

theorem writable_string (s : String) : Writable (.string s) := (each_atom rfl).mpr rfl

theorem writable_array {items : List Json} :
    Writable (.array items) ↔ ∀ item ∈ items, Writable item := each_array

theorem writable_strings (texts : List String) : Writable (.array (texts.map .string)) := by
  refine writable_array.mpr fun item hitem => ?_
  obtain ⟨text, -, rfl⟩ := List.mem_map.mp hitem
  exact writable_string text

theorem writable_object {members : List (String × Json)} :
    Writable (.object members) ↔ ∀ member ∈ members, Writable member.2 := each_object

theorem all_tooLong?_iff {value : Json} :
    (value.atoms.all fun atom => atom.tooLong?.isNone) = true ↔ Writable value := by
  simp only [List.all_eq_true, Option.isNone_iff_eq_none, Writable, Each]

theorem Writable.checked {value : Json} (h : Writable value) : value.checked = .ok value :=
  if_pos (all_tooLong?_iff.mpr h)

theorem checked_of_not_writable {value : Json} (h : ¬ Writable value) :
    value.checked = .error .integerTooLong := if_neg (mt all_tooLong?_iff.mp h)

/-! ## 6. Values that lose nothing -/

/-- Whether a value is no decimal and no integer that is too long. -/
def isExact : Json → Bool
  | .decimal _ _ => false
  | .notFinite => false
  | .integer n => Text.isWritable n
  | _ => true

/-- A value without decimals, all integers of which are short enough. -/
def Exact (value : Json) : Prop := value.Each fun atom => atom.isExact = true

theorem Exact.writable {value : Json} (h : Exact value) : Writable value := by
  intro atom hmem
  have hatom := h atom hmem
  cases atom with
  | integer n => exact if_pos hatom
  | _ => rfl

theorem exact_integer {n : Int} : Exact (.integer n) ↔ Text.isWritable n = true := each_atom rfl

theorem exact_null : Exact .null := (each_atom rfl).mpr rfl

theorem exact_bool (b : Bool) : Exact (.bool b) := (each_atom rfl).mpr rfl

theorem exact_string (s : String) : Exact (.string s) := (each_atom rfl).mpr rfl

theorem exact_strings (texts : List String) : Exact (.array (texts.map .string)) := by
  refine each_array.mpr fun item hitem => ?_
  obtain ⟨text, -, rfl⟩ := List.mem_map.mp hitem
  exact exact_string text

end Json

end LedgerScript
