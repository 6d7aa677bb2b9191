/-
# Forms and their text

A forest can be written and read again exactly if a text can say it: its numbers are not negative
and not too long, its names and symbols are fragments that are classified so (`Node.WellFormed`).
Then the fragments of its text are the texts of its tokens, whatever the nesting, because every
form ends where a word can end (`WellFormed.fragmented`).

Whatever was read is well-formed, so a script that is read and written again keeps its tokens, but
for the leading zeros of numbers (`text_roundTrip`).
-/
import LedgerScript.Proofs.Lexing
import LedgerScript.Proofs.Numerals
import LedgerScript.Proofs.Parsing
import LedgerScript.Proofs.Rendering

namespace LedgerScript

namespace Token

/-! ## 1. Words -/

/-- Word characters are digits, or lie in the block of the letters. -/
theorem toNat_of_isWordChar {c : Char} (h : isWordChar c = true) :
    48 ≤ c.toNat ∧ c.toNat ≤ 57 ∨ 65 ≤ c.toNat ∧ c.toNat ≤ 122 := by
  delta isWordChar Char.isAlphanum Char.isAlpha Char.isUpper Char.isLower Char.isDigit at h
  simp only [Bool.or_eq_true, Bool.and_eq_true, decide_eq_true_eq, beq_iff_eq,
    UInt32.le_iff_toNat_le, ge_iff_le] at h
  change ((65 ≤ c.toNat ∧ c.toNat ≤ 90 ∨ 97 ≤ c.toNat ∧ c.toNat ≤ 122) ∨
    48 ≤ c.toNat ∧ c.toNat ≤ 57) ∨ c = '_' at h
  rcases h with ((h | h) | h) | rfl
  · exact .inr ⟨h.1, by omega⟩
  · exact .inr ⟨by omega, h.2⟩
  · exact .inl h
  · exact .inr (by decide)

theorem isWord_iff {word : List Char} :
    isWord word = true ↔ word ≠ [] ∧ ∀ c ∈ word, isWordChar c = true := by
  simp [isWord]

theorem isNumeral_iff {word : List Char} :
    isNumeral word = true ↔ word ≠ [] ∧ ∀ c ∈ word, c.isDigit = true := by
  simp [isNumeral]

theorem isWord_of_isNumeral {word : List Char} (h : isNumeral word = true) :
    isWord word = true := by
  obtain ⟨hne, hdigit⟩ := isNumeral_iff.mp h
  refine isWord_iff.mpr ⟨hne, fun c hc => ?_⟩
  simp [isWordChar, Char.isAlphanum, hdigit c hc]

/-- Word characters make a word. -/
theorem word_of_isWord {word : List Char} (h : isWord word = true) : Word word where
  ne_nil := (isWord_iff.mp h).1
  not_blank c hc := by
    have hrange := toNat_of_isWordChar ((isWord_iff.mp h).2 c hc)
    simp only [Text.isBlank, Text.inBlocks, Text.blankBlocks, List.any_cons, List.any_nil,
      Bool.or_false, Bool.or_eq_false_iff, decide_eq_false_iff_not]
    omega
  not_paren c hc := by
    rintro (rfl | rfl)
    · exact absurd ((isWord_iff.mp h).2 _ hc) (by decide)
    · exact absurd ((isWord_iff.mp h).2 _ hc) (by decide)
  not_comment hc := absurd ((isWord_iff.mp h).2 _ hc) (by decide)

theorem Word.ne_paren {word : List Char} (h : Word word) {c : Char} (hc : IsParen c) :
    word ≠ [c] := by
  rintro rfl
  exact h.not_paren c (List.mem_singleton_self c) hc

/-! ## 2. Tokens that a text can have -/

/-- A token that is read from its own text, and a number token without leading zeros. -/
def WellFormed : Token → Prop
  | openParen | closeParen => True
  | number text value => text = toString value ∧ 0 ≤ value ∧ text.length ≤ digitLimit
  | identifier text => isName text.toList = true
  | symbol text => Word text.toList ∧ isWord text.toList = false

theorem isNumeral_toDigits (n : Nat) : isNumeral (Nat.toDigits 10 n) = true :=
  isNumeral_iff.mpr ⟨Nat.toDigits_ne_nil,
    fun _ hc => Nat.isDigit_of_mem_toDigits (by decide) (by decide) hc⟩

/-- The text of a token that is no parenthesis is a word. -/
theorem WellFormed.word {token : Token} (h : token.WellFormed) (ho : token ≠ .openParen)
    (hc : token ≠ .closeParen) : Word token.text.toList := by
  cases token with
  | openParen => exact absurd rfl ho
  | closeParen => exact absurd rfl hc
  | number text value =>
    obtain ⟨rfl, hpos, -⟩ := h
    refine word_of_isWord (isWord_of_isNumeral ?_)
    rw [text, Text.toList_toString hpos]
    exact isNumeral_toDigits _
  | identifier text =>
    have hname : (isWord text.toList && !isNumeral text.toList) = true := h
    exact word_of_isWord (Bool.and_eq_true_iff.mp hname).1
  | symbol text => exact h.1

/-- A word that is a numeral is a number, if it is not too long. -/
theorem ofFragment_numeral {word : List Char} (h : isNumeral word = true) :
    ofFragment word =
      (Text.readDigits word).map fun n => .number (String.ofList word) (n : Int) := by
  have hw : Word word := word_of_isWord (isWord_of_isNumeral h)
  rw [ofFragment, if_neg (hw.ne_paren (.inl rfl)), if_neg (hw.ne_paren (.inr rfl)), if_pos h]
  cases Text.readDigits word <;> rfl

theorem ofFragment_word {word : List Char} (hw : Word word) (hn : ¬ isNumeral word = true) :
    ofFragment word = if isWord word then .ok (.identifier (String.ofList word))
      else .ok (.symbol (String.ofList word)) := by
  rw [ofFragment, if_neg (hw.ne_paren (.inl rfl)), if_neg (hw.ne_paren (.inr rfl)), if_neg hn]

/-- **A token is read from its text.** -/
theorem WellFormed.ofFragment_text {token : Token} (h : token.WellFormed) :
    ofFragment token.text.toList = .ok token := by
  cases token with
  | openParen => rfl
  | closeParen => rfl
  | number text value =>
    obtain ⟨rfl, hpos, hlength⟩ := h
    have hdigits := Text.toList_toString hpos
    have hlimit : (Nat.toDigits 10 value.toNat).length ≤ digitLimit := by
      rwa [← hdigits, String.length_toList]
    have hvalue : ((value.toNat : Nat) : Int) = value := Int.toNat_of_nonneg hpos
    rw [Token.text, hdigits, ofFragment_numeral (isNumeral_toDigits _),
      Text.readDigits_toDigits hlimit, ← hdigits, String.ofList_toList, Except.map, hvalue]
  | identifier text =>
    have hname : (isWord text.toList && !isNumeral text.toList) = true := h
    obtain ⟨hword, hnumeral⟩ := Bool.and_eq_true_iff.mp hname
    rw [Token.text, ofFragment_word (word_of_isWord hword) (by simpa using hnumeral),
      if_pos hword, String.ofList_toList]
  | symbol text =>
    obtain ⟨hw, hword⟩ := h
    have hnumeral : ¬ isNumeral text.toList = true := by
      intro hn
      rw [isWord_of_isNumeral hn] at hword
      cases hword
    rw [Token.text, ofFragment_word hw hnumeral, if_neg (by simp [hword]), String.ofList_toList]

/-! ## 3. Tokens that were read -/

/-- The text of a token, a number's without the zeros in front. -/
def trimmedText : Token → String
  | number text _ => String.ofList (Text.withoutZeros text.toList)
  | token => token.text

/-- A token that was read is well-formed but for the zeros in front. -/
theorem normal_of_ofFragment {fragment : List Char} {token : Token}
    (hf : (∃ c, IsParen c ∧ fragment = [c]) ∨ Word fragment)
    (h : ofFragment fragment = .ok token) :
    token.normal.WellFormed ∧ token.normal.text = token.trimmedText := by
  rcases hf with ⟨c, rfl | rfl, rfl⟩ | hw
  · cases h
    exact ⟨trivial, rfl⟩
  · cases h
    exact ⟨trivial, rfl⟩
  by_cases hn : isNumeral fragment = true
  · rw [ofFragment_numeral hn, Text.readDigits] at h
    split at h
    · next hlimit =>
      cases h
      obtain ⟨hne, hdigits⟩ := isNumeral_iff.mp hn
      have htext : (toString (Nat.ofDigitChars 10 fragment 0 : Int)).toList =
          Text.withoutZeros fragment := by
        rw [Text.toList_toString (Int.natCast_nonneg _), Int.toNat_natCast,
          Text.toDigits_ofDigitChars hne hdigits]
      have hlength := Text.length_withoutZeros_le fragment
      rw [Text.ofDigits_eq, trimmedText, String.toList_ofList, ← htext, String.ofList_toList]
      refine ⟨⟨rfl, Int.natCast_nonneg _, ?_⟩, rfl⟩
      rw [← String.length_toList, htext]
      omega
    · cases h
  · rw [ofFragment_word hw hn] at h
    split at h
    · next hword =>
      cases h
      refine ⟨?_, rfl⟩
      show isName (String.ofList fragment).toList = true
      rw [String.toList_ofList, isName, hword, Bool.eq_false_iff.mpr hn]
      rfl
    · next hword =>
      cases h
      refine ⟨?_, rfl⟩
      show Word (String.ofList fragment).toList ∧ isWord (String.ofList fragment).toList = false
      rw [String.toList_ofList]
      exact ⟨hw, Bool.eq_false_iff.mpr hword⟩

theorem exists_of_mem_mapM {α β ε : Type} {f : α → Except ε β} {y : β} :
    ∀ {xs : List α} {ys : List β}, xs.mapM f = .ok ys → y ∈ ys → ∃ x ∈ xs, f x = .ok y
  | [], _, h, hy => by
    cases h
    exact absurd hy List.not_mem_nil
  | x :: rest, ys, h, hy => by
    rw [List.mapM_cons] at h
    cases hx : f x with
    | error fault => rw [hx] at h; cases h
    | ok first =>
      cases hrest : rest.mapM f with
      | error fault => rw [hx, hrest] at h; cases h
      | ok others =>
        rw [hx, hrest] at h
        cases h
        rcases List.mem_cons.mp hy with rfl | hy
        · exact ⟨x, List.mem_cons_self, hx⟩
        · obtain ⟨x', hmem, hx'⟩ := exists_of_mem_mapM hrest hy
          exact ⟨x', List.mem_cons_of_mem _ hmem, hx'⟩

/-- **The tokens of a text** are well-formed but for the zeros in front of numbers. -/
theorem normal_of_ofText {text : String} {tokens : List Token} (h : ofText text = .ok tokens) :
    ∀ token ∈ tokens, token.normal.WellFormed ∧ token.normal.text = token.trimmedText := by
  intro token hmem
  obtain ⟨fragment, hfragment, htoken⟩ := exists_of_mem_mapM h hmem
  obtain ⟨line, -, hline⟩ := List.mem_flatMap.mp hfragment
  exact normal_of_ofFragment (of_mem_lineFragments hline) htoken

end Token

namespace Node

open Token

/-! ## 4. Well-formed forms -/

/-- A form that a text can say. -/
inductive WellFormed : Node → Prop
  | number {value : Int} (h : 0 ≤ value) (hl : (toString value).length ≤ digitLimit) :
    WellFormed (.number value)
  | ident {name : String} (h : isName name.toList = true) : WellFormed (.ident name)
  | operator {symbol : String} (h : Word symbol.toList) (hw : isWord symbol.toList = false) :
    WellFormed (.operator symbol)
  | list {children : List Node} (h : ∀ child ∈ children, child.WellFormed) :
    WellFormed (.list children)

theorem mem_allTokens {token : Token} : ∀ {forms : List Node},
    token ∈ allTokens forms ↔ ∃ form ∈ forms, token ∈ form.tokens
  | [] => by simp [allTokens]
  | form :: rest => by simp [allTokens, mem_allTokens]

theorem WellFormed.tokens {node : Node} (h : node.WellFormed) :
    ∀ token ∈ node.tokens, token.WellFormed := by
  induction h with
  | number h hl =>
    intro token hmem
    rw [List.mem_singleton.mp hmem]
    exact ⟨rfl, h, hl⟩
  | ident h =>
    intro token hmem
    rw [List.mem_singleton.mp hmem]
    exact h
  | operator h hw =>
    intro token hmem
    rw [List.mem_singleton.mp hmem]
    exact ⟨h, hw⟩
  | list _ ih =>
    intro token hmem
    rw [Node.tokens] at hmem
    rcases List.mem_cons.mp hmem with rfl | hmem
    · trivial
    rcases List.mem_append.mp hmem with hmem | hmem
    · obtain ⟨child, hchild, htoken⟩ := mem_allTokens.mp hmem
      exact ih child hchild token htoken
    · rw [List.mem_singleton.mp hmem]
      trivial

/-- A text says no number that is too long to be written. -/
theorem WellFormed.isWritable {form : Node} (h : form.WellFormed) : form.isWritable = true := by
  induction h with
  | number h hl => exact Text.isWritable_of_length h hl
  | ident | operator => rfl
  | list _ ih =>
    rw [Node.isWritable, allWritable_eq_all]
    exact List.all_eq_true.mpr ih

/-- The form of a well-formed token. -/
theorem wellFormed_ofToken {token : Token} (h : token.normal.WellFormed)
    (ho : token ≠ .openParen) (hc : token ≠ .closeParen) : (ofToken token).WellFormed := by
  cases token with
  | openParen => exact absurd rfl ho
  | closeParen => exact absurd rfl hc
  | number text value => exact .number h.2.1 h.2.2
  | identifier text => exact .ident h
  | symbol text => exact .operator h.1 h.2

/-! ## 5. The text of well-formed forms -/

/-- The texts of some tokens, each to be classified on its own. -/
def textsOf (tokens : List Token) : List (List Char) := tokens.map fun token => token.text.toList

theorem textsOf_append (tokens others : List Token) :
    textsOf (tokens ++ others) = textsOf tokens ++ textsOf others := List.map_append

theorem boundary_blank {c : Char} (h : Text.isBlank c = true) (rest : List Char) :
    Boundary (c :: rest) := by
  rintro _ _ ⟨⟩
  exact .inl h

theorem boundary_paren {c : Char} (h : IsParen c) (rest : List Char) : Boundary (c :: rest) := by
  rintro _ _ ⟨⟩
  exact .inr h

/-- Wherever it ends, the text of a form has the fragments of the form. -/
def Fragmented (form : Node) : Prop :=
  ∀ rest, Boundary rest →
    fragmentsOf (form.written.toList ++ rest) = textsOf form.tokens ++ fragmentsOf rest

/-- Forms that are joined by a blank keep their fragments. -/
theorem fragmentsOf_forms {joint : String} {b : Char} (hj : joint.toList = [b])
    (hb : Text.isBlank b = true) : ∀ {forms : List Node}, (∀ form ∈ forms, form.Fragmented) →
    ∀ rest, Boundary rest →
      fragmentsOf ((joint.intercalate (forms.map written)).toList ++ rest) =
        textsOf (allTokens forms) ++ fragmentsOf rest
  | [], _, rest, _ => by simp [allTokens, textsOf]
  | [form], h, rest, hr => by
    rw [List.map_singleton, String.intercalate_singleton, allTokens_singleton]
    exact h form (List.mem_singleton_self form) rest hr
  | form :: next :: others, h, rest, hr => by
    obtain ⟨hform, hothers⟩ := List.forall_mem_cons.mp h
    have hne : (next :: others).map written ≠ [] := List.cons_ne_nil _ _
    have htokens : allTokens (form :: next :: others) =
        form.tokens ++ allTokens (next :: others) := rfl
    rw [List.map_cons, String.intercalate_cons_of_ne_nil hne, String.toList_append,
      String.toList_append, hj, List.append_assoc, List.append_assoc, List.singleton_append,
      hform _ (boundary_blank hb _), fragmentsOf_blank hb, fragmentsOf_forms hj hb hothers rest hr,
      htokens, textsOf_append, List.append_assoc]

theorem fragmented_atom {form : Node} {token : Token} (htokens : form.tokens = [token])
    (htext : form.written = token.text) (hw : Word token.text.toList) : form.Fragmented := by
  intro rest hr
  rw [htext, htokens, fragmentsOf_word hw hr]
  rfl

/-- **A well-formed form** is cut into the texts of its tokens. -/
theorem WellFormed.fragmented {form : Node} (h : form.WellFormed) : form.Fragmented := by
  induction h with
  | number h hl =>
    have htoken : (Token.number _ _).WellFormed := ⟨rfl, h, hl⟩
    exact fragmented_atom rfl (toString_eq_decimal _).symm (htoken.word nofun nofun)
  | ident h =>
    have htoken : (Token.identifier _).WellFormed := h
    exact fragmented_atom rfl rfl (htoken.word nofun nofun)
  | operator h hw => exact fragmented_atom rfl rfl h
  | @list children _ ih =>
    intro rest hr
    have hjoint : " ".toList = [' '] := rfl
    have hinside := fragmentsOf_forms hjoint isBlank_space ih (')' :: rest)
      (boundary_paren (.inr rfl) rest)
    rw [written, allWritten_eq_map, String.toList_append, String.toList_append,
      List.append_assoc, List.append_assoc]
    show fragmentsOf ('(' :: (_ ++ (')' :: rest))) = _
    rw [fragmentsOf_paren (.inl rfl), hinside, fragmentsOf_paren (.inr rfl), Node.tokens]
    simp [textsOf, Token.text]

/-- Joined forms hold no semicolon, if the forms hold none. -/
theorem comment_not_mem_forms {joint : String} (hj : ';' ∉ joint.toList) {forms : List Node}
    (h : ∀ form ∈ forms, ';' ∉ form.written.toList) :
    ';' ∉ (joint.intercalate (forms.map written)).toList := by
  rw [String.toList_intercalate]
  intro hmem
  rcases Text.mem_intercalate hmem with hmem | ⟨segment, hsegment, hmem⟩
  · exact hj hmem
  · simp only [List.mem_map, exists_exists_and_eq_and] at hsegment
    obtain ⟨form, hform, rfl⟩ := hsegment
    exact h form hform hmem

theorem WellFormed.comment_not_mem {form : Node} (h : form.WellFormed) :
    ';' ∉ form.written.toList := by
  induction h with
  | number h hl =>
    have htoken : (Token.number _ _).WellFormed := ⟨rfl, h, hl⟩
    rw [written, ← toString_eq_decimal]
    exact (htoken.word (by simp) (by simp)).not_comment
  | ident h =>
    have htoken : (Token.identifier _).WellFormed := h
    exact (htoken.word (by simp) (by simp)).not_comment
  | operator h hw => exact h.not_comment
  | @list children _ ih =>
    have hjoint : ';' ∉ " ".toList := by decide
    have hinside := comment_not_mem_forms hjoint ih
    rw [written, allWritten_eq_map, String.toList_append, String.toList_append]
    intro hmem
    rcases List.mem_append.mp hmem with hmem | hmem
    · rcases List.mem_append.mp hmem with hmem | hmem
      · exact absurd hmem (by decide)
      · exact hinside hmem
    · exact absurd hmem (by decide)

theorem mapM_ofFragment : ∀ {tokens : List Token}, (∀ token ∈ tokens, token.WellFormed) →
    (textsOf tokens).mapM ofFragment = .ok tokens
  | [], _ => rfl
  | token :: rest, h => by
    obtain ⟨htoken, hrest⟩ := List.forall_mem_cons.mp h
    have hrest : (textsOf rest).mapM ofFragment = .ok rest := mapM_ofFragment hrest
    show (token.text.toList :: textsOf rest).mapM ofFragment = _
    rw [List.mapM_cons, htoken.ofFragment_text, hrest]
    rfl

/-- A well-formed forest has a text. -/
theorem forestText_eq_written {forms : List Node} (h : ∀ form ∈ forms, form.WellFormed) :
    forestText forms = .ok ("\n".intercalate (forms.map written)) := by
  have hwritable : allWritable forms = true := by
    rw [allWritable_eq_all]
    exact List.all_eq_true.mpr fun form hmem => (h form hmem).isWritable
  rw [forestText, mapM_text, if_pos hwritable]
  rfl

/-- **The tokens of the text of a forest** are the tokens of the forest. -/
theorem ofText_forestText {forms : List Node} (h : ∀ form ∈ forms, form.WellFormed) :
    ∃ text, forestText forms = .ok text ∧ ofText text = .ok (allTokens forms) := by
  refine ⟨_, forestText_eq_written h, ?_⟩
  have hcomment : ';' ∉ ("\n".intercalate (forms.map written)).toList :=
    comment_not_mem_forms (by decide) fun form hmem => (h form hmem).comment_not_mem
  have hfragments : fragmentsOf ("\n".intercalate (forms.map written)).toList =
      textsOf (allTokens forms) := by
    have hjoint : "\n".toList = ['\n'] := rfl
    have hend : Boundary [] := fun _ _ hnil => nomatch hnil
    have hforms := fragmentsOf_forms hjoint isBlank_lineFeed
      (fun form hmem => (h form hmem).fragmented) [] hend
    rw [List.append_nil] at hforms
    rw [hforms]
    exact List.append_nil _
  have htokens : ∀ token ∈ allTokens forms, token.WellFormed := by
    intro token hmem
    obtain ⟨form, hform, htoken⟩ := mem_allTokens.mp hmem
    exact (h form hform).tokens token htoken
  rw [ofText, flatMap_lineFragments hcomment, hfragments, mapM_ofFragment htokens]

/-! ## 6. The round trip -/

/-- A text is read as a forest. -/
def Reads (text : String) (forms : List Node) : Prop :=
  ∃ tokens, ofText text = .ok tokens ∧ ofTokens tokens = .ok forms

/-- What was read is well-formed. -/
theorem wellFormed_of_ofTokens {text : String} {tokens : List Token} {forms : List Node}
    (ht : ofText text = .ok tokens) (hf : ofTokens tokens = .ok forms) :
    ∀ form ∈ forms, form.WellFormed :=
  forall_of_ofTokens (fun _ h => .list h)
    (fun token hmem ho hc => wellFormed_ofToken (normal_of_ofText ht token hmem).1 ho hc) hf

/-- A text is read in one way. -/
theorem Reads.unique {text : String} {forms others : List Node} (h : Reads text forms)
    (h' : Reads text others) : forms = others := by
  obtain ⟨tokens, ht, hf⟩ := h
  obtain ⟨tokens', ht', hf'⟩ := h'
  rw [ht] at ht'
  cases ht'
  rw [hf] at hf'
  exact Except.ok.inj hf'

theorem Reads.wellFormed {text : String} {forms : List Node} (h : Reads text forms) :
    ∀ form ∈ forms, form.WellFormed := by
  obtain ⟨tokens, ht, hf⟩ := h
  exact wellFormed_of_ofTokens ht hf

/-- **The text round trip.**  Every well-formed forest has a text, which is read as that forest;
every forest that is read from a text is well-formed; and a text that is read has the same tokens as
the text of what was read, but for the leading zeros of numbers. -/
theorem text_roundTrip :
    (∀ forms : List Node, (∀ form ∈ forms, form.WellFormed) →
      ∃ text, forestText forms = .ok text ∧ Reads text forms) ∧
    (∀ text forms, Reads text forms → ∀ form ∈ forms, form.WellFormed) ∧
    ∀ text tokens forms, ofText text = .ok tokens → ofTokens tokens = .ok forms →
      ∃ text' again, forestText forms = .ok text' ∧ ofText text' = .ok again ∧
        again.map kind = tokens.map kind ∧ again.map value? = tokens.map value? ∧
        again.map Token.text = tokens.map trimmedText := by
  refine ⟨fun forms h => ?_, ?_, fun text tokens forms ht hf => ?_⟩
  · obtain ⟨text, htext, htokens⟩ := ofText_forestText h
    exact ⟨text, htext, allTokens forms, htokens, ofTokens_allTokens forms⟩
  · rintro text forms ⟨tokens, ht, hf⟩
    exact wellFormed_of_ofTokens ht hf
  · have hnormal := allTokens_of_ofTokens hf
    obtain ⟨text', htext, htokens⟩ := ofText_forestText (wellFormed_of_ofTokens ht hf)
    refine ⟨text', allTokens forms, htext, htokens, ?_⟩
    rw [hnormal, List.map_map, List.map_map, List.map_map]
    refine ⟨List.map_congr_left fun token _ => ?_, List.map_congr_left fun token _ => ?_,
      List.map_congr_left fun token hmem => ?_⟩
    · cases token <;> rfl
    · cases token <;> rfl
    · exact (normal_of_ofText ht token hmem).2

/-- A text with a comment, leading zeros, an empty list and a symbol beyond ASCII. -/
def annotated : String := "(f 007 ()) ; zeros\n\t(λx 0 00)"

/-- The forms of the text. -/
def annotatedForms : List Node :=
  [.list [.ident "f", .number 7, .list []], .list [.operator "λx", .number 0, .number 0]]

/-- Written and read again, the text has lost its comment and three zeros. -/
theorem text_roundTrip_annotated :
    Reads annotated annotatedForms ∧ (∀ form ∈ annotatedForms, form.WellFormed) ∧
    ∃ text again, forestText annotatedForms = .ok text ∧ Reads text annotatedForms ∧
      ofText text = .ok again ∧
      again.map Token.text = ["(", "f", "7", "(", ")", ")", "(", "λx", "0", "0", ")"] := by
  obtain ⟨hwritten, hread, hagain⟩ := text_roundTrip
  have htokens : (ofText annotated).toOption = some
      [.openParen, .identifier "f", .number "007" 7, .openParen, .closeParen, .closeParen,
        .openParen, .symbol "λx", .number "0" 0, .number "00" 0, .closeParen] := by
    decide +kernel
  cases ht : ofText annotated with
  | error fault => rw [ht] at htokens; cases htokens
  | ok tokens =>
    rw [ht] at htokens
    cases htokens
    have hreads : Reads annotated annotatedForms := ⟨_, ht, rfl⟩
    have hwell := hread _ _ hreads
    obtain ⟨text, htext, hreads'⟩ := hwritten _ hwell
    obtain ⟨text', again, htext', hok, -, -, hshown⟩ := hagain _ _ _ ht rfl
    cases htext.symm.trans htext'
    refine ⟨hreads, hwell, text, again, htext, hreads', hok, hshown.trans ?_⟩
    decide +kernel

end Node

end LedgerScript
