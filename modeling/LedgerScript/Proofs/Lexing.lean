/-
# The fragments of a text

A fragment is a parenthesis or a run of other characters without blanks, and there is nothing to a
text but its fragments.  They are found from the front (`fragmentsOf_paren`, `fragmentsOf_word`,
`fragmentsOf_blank`): a word ends at a blank, at a parenthesis, or with the text (`Boundary`), so
what follows it is cut as if the word had not been there.

Lines matter to comments alone.  A text without a semicolon has the fragments that it would have
as one line, since a line feed is a blank (`flatMap_lineFragments`).
-/
import LedgerScript.Token
import Mathlib.Data.List.Basic
import Mathlib.Data.List.TakeWhile

namespace LedgerScript

/-! ## 1. Cutting -/

namespace Text

variable {cut : Char → Bool} {text : List Char} {c : Char}

theorem extendFirst_append {segments : List (List Char)} (h : segments ≠ []) (c : Char)
    (more : List (List Char)) :
    extendFirst c (segments ++ more) = extendFirst c segments ++ more := by
  cases segments with
  | nil => exact absurd rfl h
  | cons segment rest => rfl

/-- A cut separates what stands before it from what stands after it. -/
theorem splitOn_append_cons (hc : cut c = true) (before after : List Char) :
    splitOn cut (before ++ c :: after) = splitOn cut before ++ splitOn cut after := by
  induction before with
  | nil => rw [List.nil_append, splitOn_cons, if_pos hc, splitOn_nil]; rfl
  | cons d rest ih =>
    rw [List.cons_append, splitOn_cons, splitOn_cons, ih]
    split
    · rfl
    · exact extendFirst_append (splitOn_ne_nil _ _) _ _

/-- A text without a cut is one segment. -/
theorem splitOn_of_forall (h : ∀ c ∈ text, cut c = false) : splitOn cut text = [text] := by
  induction text with
  | nil => rfl
  | cons c rest ih =>
    obtain ⟨hc, hrest⟩ := List.forall_mem_cons.mp h
    rw [splitOn_cons, ih hrest, hc]
    rfl

/-- A segment holds characters of the text, and no cut. -/
theorem of_mem_splitOn : ∀ {text : List Char} {segment : List Char},
    segment ∈ splitOn cut text → ∀ c ∈ segment, c ∈ text ∧ cut c = false
  | [], segment, h, c, hc => by
    rw [splitOn_nil] at h
    rw [List.mem_singleton.mp h] at hc
    exact absurd hc List.not_mem_nil
  | d :: rest, segment, h, c, hc => by
    have hlater (h : segment ∈ splitOn cut rest) : c ∈ d :: rest ∧ cut c = false :=
      (of_mem_splitOn h c hc).imp_left (List.mem_cons_of_mem _)
    rw [splitOn_cons] at h
    split at h
    · rcases List.mem_cons.mp h with rfl | h
      · exact absurd hc List.not_mem_nil
      · exact hlater h
    · next hd =>
      cases hs : splitOn cut rest with
      | nil => exact absurd hs (splitOn_ne_nil _ _)
      | cons first others =>
        rw [hs, extendFirst] at h
        rcases List.mem_cons.mp h with rfl | h
        · rcases List.mem_cons.mp hc with rfl | hc
          · exact ⟨List.mem_cons_self, Bool.eq_false_iff.mpr hd⟩
          · have hfirst : first ∈ splitOn cut rest := hs ▸ List.mem_cons_self
            exact (of_mem_splitOn hfirst c hc).imp_left (List.mem_cons_of_mem _)
        · exact hlater (hs ▸ List.mem_cons_of_mem _ h)

theorem fragments_append_cons (hc : isBlank c = true) (before after : List Char) :
    fragments (before ++ c :: after) = fragments before ++ fragments after := by
  rw [fragments, splitOn_append_cons hc, List.filter_append]
  rfl

theorem fragments_word {word : List Char} (hne : word ≠ [])
    (hw : ∀ c ∈ word, isBlank c = false) : fragments word = [word] := by
  rw [fragments, splitOn_of_forall hw]
  cases word with
  | nil => exact absurd rfl hne
  | cons c rest => rfl

/-- The characters of joined segments are those of the segments and of what joins them. -/
theorem mem_intercalate {joint : List Char} : ∀ {segments : List (List Char)},
    c ∈ joint.intercalate segments → c ∈ joint ∨ ∃ segment ∈ segments, c ∈ segment
  | [], h => by simp at h
  | [segment], h => .inr ⟨segment, by simp, by simpa [List.intercalate] using h⟩
  | segment :: next :: rest, h => by
    rw [List.intercalate_cons_cons, List.append_assoc] at h
    rcases List.mem_append.mp h with h | h
    · exact .inr ⟨segment, List.mem_cons_self, h⟩
    rcases List.mem_append.mp h with h | h
    · exact .inl h
    · refine (mem_intercalate h).imp_right fun ⟨found, hmem, hc⟩ => ?_
      exact ⟨found, List.mem_cons_of_mem _ hmem, hc⟩

end Text

namespace Token

/-! ## 2. The fragments of one line -/

/-- A parenthesis is a fragment by itself. -/
def IsParen (c : Char) : Prop := c = '(' ∨ c = ')'

/-- A fragment that is no parenthesis. -/
structure Word (word : List Char) : Prop where
  ne_nil : word ≠ []
  not_blank : ∀ c ∈ word, Text.isBlank c = false
  not_paren : ∀ c ∈ word, ¬ IsParen c
  not_comment : ';' ∉ word

/-- Where a word can end: at a blank, at a parenthesis, or at the end of the text. -/
def Boundary (rest : List Char) : Prop :=
  ∀ c further, rest = c :: further → Text.isBlank c = true ∨ IsParen c

/-- The fragments of a text that holds no comment, read as one line. -/
def fragmentsOf (text : List Char) : List (List Char) := Text.fragments (text.flatMap padParen)

variable {c : Char} {text rest word : List Char}

theorem padParen_of_isParen (h : IsParen c) : padParen c = [' ', c, ' '] := if_pos h

theorem padParen_of_not (h : ¬ IsParen c) : padParen c = [c] := if_neg h

theorem not_isParen_of_isBlank (h : Text.isBlank c = true) : ¬ IsParen c := by
  rintro (rfl | rfl)
  · exact absurd h (by decide)
  · exact absurd h (by decide)

theorem isBlank_space : Text.isBlank ' ' = true := by decide

theorem isBlank_lineFeed : Text.isBlank '\n' = true := by decide

theorem not_isBlank_of_isParen (h : IsParen c) : Text.isBlank c = false :=
  Bool.eq_false_iff.mpr fun hb => not_isParen_of_isBlank hb h

/-- A blank separates what stands before it from what stands after it. -/
theorem fragmentsOf_append_blank (hc : Text.isBlank c = true) (before after : List Char) :
    fragmentsOf (before ++ c :: after) = fragmentsOf before ++ fragmentsOf after := by
  rw [fragmentsOf, List.flatMap_append, List.flatMap_cons,
    padParen_of_not (not_isParen_of_isBlank hc)]
  exact Text.fragments_append_cons hc _ _

theorem fragmentsOf_blank (hc : Text.isBlank c = true) (rest : List Char) :
    fragmentsOf (c :: rest) = fragmentsOf rest := fragmentsOf_append_blank hc [] rest

theorem fragmentsOf_paren (hc : IsParen c) (rest : List Char) :
    fragmentsOf (c :: rest) = [c] :: fragmentsOf rest := by
  have hword : Text.fragments [c] = [[c]] :=
    Text.fragments_word (List.cons_ne_nil _ _) (by simpa using not_isBlank_of_isParen hc)
  rw [fragmentsOf, List.flatMap_cons, padParen_of_isParen hc]
  calc Text.fragments ([] ++ ' ' :: ([c] ++ ' ' :: rest.flatMap padParen))
      = Text.fragments ([c] ++ ' ' :: rest.flatMap padParen) :=
        Text.fragments_append_cons isBlank_space [] _
    _ = [c] :: fragmentsOf rest := by
        rw [Text.fragments_append_cons isBlank_space, hword]
        rfl

/-- A word that ends where a word can end is the first fragment. -/
theorem fragmentsOf_word (hw : Word word) (hb : Boundary rest) :
    fragmentsOf (word ++ rest) = word :: fragmentsOf rest := by
  have hpad : word.flatMap padParen = word := by
    have hpad : word.flatMap padParen = word.flatMap fun c => [c] :=
      List.flatMap_congr fun c hc => padParen_of_not (hw.not_paren c hc)
    simpa using hpad
  have hword : Text.fragments word = [word] := Text.fragments_word hw.ne_nil hw.not_blank
  -- after padding there is a blank behind the word, or nothing
  cases rest with
  | nil =>
    rw [List.append_nil, fragmentsOf, hpad, hword]
    rfl
  | cons c further =>
    obtain ⟨b, after, hblank, hafter⟩ :
        ∃ b after, Text.isBlank b = true ∧ (c :: further).flatMap padParen = b :: after := by
      rcases hb c further rfl with hc | hc
      · refine ⟨c, further.flatMap padParen, hc, ?_⟩
        rw [List.flatMap_cons, padParen_of_not (not_isParen_of_isBlank hc)]
        rfl
      · refine ⟨' ', c :: ' ' :: further.flatMap padParen, isBlank_space, ?_⟩
        rw [List.flatMap_cons, padParen_of_isParen hc]
        rfl
    have hrest : fragmentsOf (c :: further) = Text.fragments after := by
      rw [fragmentsOf, hafter]
      exact Text.fragments_append_cons hblank [] after
    rw [hrest, fragmentsOf, List.flatMap_append, hpad, hafter]
    rw [Text.fragments_append_cons hblank, hword]
    rfl

/-! ## 3. The fragments of lines -/

theorem fragmentsOf_intercalate : ∀ lines : List (List Char),
    fragmentsOf (List.intercalate ['\n'] lines) = lines.flatMap fragmentsOf
  | [] => rfl
  | [line] => by simp [List.intercalate]
  | line :: next :: rest => by
    rw [List.intercalate_cons_cons, List.append_assoc, List.singleton_append,
      fragmentsOf_append_blank isBlank_lineFeed, fragmentsOf_intercalate (next :: rest)]
    rfl

theorem dropComment_of_not_mem (h : ';' ∉ text) : dropComment text = text := by
  rw [dropComment, List.takeWhile_eq_self_iff]
  intro c hc
  exact bne_iff_ne.mpr fun heq => h (heq ▸ hc)

theorem ne_of_mem_dropComment (h : c ∈ dropComment text) : c ≠ ';' :=
  bne_iff_ne.mp (List.mem_takeWhile_imp (p := fun c => c != ';') h)

/-- Without a comment, lines make no difference to the fragments. -/
theorem flatMap_lineFragments (h : ';' ∉ text) :
    (Text.lines text).flatMap lineFragments = fragmentsOf text := by
  have hlines : (Text.lines text).flatMap lineFragments =
      (Text.lines text).flatMap fragmentsOf := by
    refine List.flatMap_congr fun line hline => ?_
    have hline : ';' ∉ line := fun hc => h (Text.of_mem_splitOn hline _ hc).1
    rw [lineFragments, dropComment_of_not_mem hline]
    rfl
  rw [hlines, ← fragmentsOf_intercalate, Text.intercalate_lines]

/-! ## 4. What a fragment is -/

/-- The segments of a padded text: the first holds no parenthesis, and each of the others is a
parenthesis or holds none. -/
theorem segments_of_padded : ∀ text : List Char, ∃ first others,
    Text.splitOn Text.isBlank (text.flatMap padParen) = first :: others ∧
    (∀ c ∈ first, ¬ IsParen c) ∧
    ∀ segment ∈ others, (∃ c, IsParen c ∧ segment = [c]) ∨ ∀ c ∈ segment, ¬ IsParen c
  | [] => ⟨[], [], rfl, fun _ h => absurd h List.not_mem_nil, fun _ h => absurd h List.not_mem_nil⟩
  | c :: rest => by
    obtain ⟨first, others, hsplit, hfirst, hothers⟩ := segments_of_padded rest
    have hall : ∀ segment ∈ first :: others,
        (∃ c, IsParen c ∧ segment = [c]) ∨ ∀ c ∈ segment, ¬ IsParen c :=
      List.forall_mem_cons.mpr ⟨.inr hfirst, hothers⟩
    rw [List.flatMap_cons]
    by_cases hc : IsParen c
    · refine ⟨[], [c] :: first :: others, ?_, fun _ h => absurd h List.not_mem_nil, ?_⟩
      · rw [padParen_of_isParen hc]
        show Text.splitOn Text.isBlank ([] ++ ' ' :: ([c] ++ ' ' :: rest.flatMap padParen)) = _
        have hsegment : Text.splitOn Text.isBlank [c] = [[c]] :=
          Text.splitOn_of_forall (by simpa using not_isBlank_of_isParen hc)
        rw [Text.splitOn_append_cons isBlank_space, Text.splitOn_append_cons isBlank_space,
          hsegment, hsplit]
        rfl
      · exact List.forall_mem_cons.mpr ⟨.inl ⟨c, hc, rfl⟩, hall⟩
    · rw [padParen_of_not hc, List.singleton_append, Text.splitOn_cons, hsplit]
      split
      · exact ⟨[], first :: others, rfl, fun _ h => absurd h List.not_mem_nil, hall⟩
      · exact ⟨c :: first, others, rfl, List.forall_mem_cons.mpr ⟨hc, hfirst⟩, hothers⟩

/-- **A fragment of a line** is a parenthesis or a word. -/
theorem of_mem_lineFragments {line fragment : List Char} (h : fragment ∈ lineFragments line) :
    (∃ c, IsParen c ∧ fragment = [c]) ∨ Word fragment := by
  obtain ⟨hsegment, hne⟩ := List.mem_filter.mp h
  have hne : fragment ≠ [] := by simpa using hne
  obtain ⟨first, others, hsplit, hfirst, hothers⟩ := segments_of_padded (dropComment line)
  have hparen : (∃ c, IsParen c ∧ fragment = [c]) ∨ ∀ c ∈ fragment, ¬ IsParen c := by
    rw [hsplit] at hsegment
    rcases List.mem_cons.mp hsegment with rfl | hmem
    · exact .inr hfirst
    · exact hothers _ hmem
  refine hparen.imp_right fun hparen => ⟨hne, ?_, hparen, fun hc => ?_⟩
  · exact fun c hc => (Text.of_mem_splitOn hsegment c hc).2
  · -- padding brings in no semicolon, and in front of the comment there is none
    obtain ⟨d, hmem, hpad⟩ := List.mem_flatMap.mp (Text.of_mem_splitOn hsegment _ hc).1
    have hd : d = ';' := by
      unfold padParen at hpad
      split at hpad
      · next hparen =>
        simp only [List.mem_cons, List.not_mem_nil, or_false] at hpad
        rcases hpad with hpad | hpad | hpad
        · exact absurd hpad (by decide)
        · exact hpad.symm
        · exact absurd hpad (by decide)
      · exact (List.mem_singleton.mp hpad).symm
    exact ne_of_mem_dropComment hmem hd

end Token

end LedgerScript
