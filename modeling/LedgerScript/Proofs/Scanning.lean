/-
# One pass over a text

To find the tokens of a text it is gone through four times: it is cut into lines, comments are
dropped, parentheses are padded, and what remains is cut at blanks.  A scanner needs one pass.  It
goes from character to character with two things in hand, the fragment that it is reading and
whether it is inside a comment (`scan`), and what it has found is classified piece by piece
(`Lexeme.token`).

The two agree on every text (`characters_scan`).  The line that the scanner is in is the one that
differs from the others: what has been read of it stands in front of it, and inside a comment
nothing of it counts.  Both fail at the leftmost numeral that is too long, and at nothing else.
-/
import LedgerScript.Proofs.RoundTrip

namespace LedgerScript.Token

/-! ## 1. The scanner -/

/-- What a scanner finds: a parenthesis, or a fragment that has come to its end. -/
inductive Lexeme where
  | openParen
  | closeParen
  | word (fragment : List Char)

namespace Lexeme

/-- The characters that were read. -/
def characters : Lexeme → List Char
  | openParen => ['(']
  | closeParen => [')']
  | word fragment => fragment

/-- A fragment of digits alone, and of more digits than a number may have. -/
def TooLong (fragment : List Char) : Prop :=
  (∀ c ∈ fragment, c.isDigit = true) ∧ digitLimit < fragment.length

/-- What was found as a token: a number has the value of its digits, a name is made of word
characters, and everything else is a symbol. -/
def token : Lexeme → Except HostFault Token
  | openParen => .ok .openParen
  | closeParen => .ok .closeParen
  | word fragment =>
    if fragment.all Char.isDigit then
      if fragment.length ≤ digitLimit then
        .ok (.number (String.ofList fragment) (Nat.ofDigitChars 10 fragment 0))
      else .error (.textTooLong fragment.length)
    else if fragment.all isWordChar then .ok (.identifier (String.ofList fragment))
    else .ok (.symbol (String.ofList fragment))

end Lexeme

/-- A fragment that has come to its end, unless there is nothing to it. -/
def finished (fragment : List Char) : List Lexeme :=
  if fragment = [] then [] else [.word fragment]

/-- Scans a text from left to right, with the fragment that is being read and whether a comment
is.  A line feed ends both, and it alone ends a comment. -/
def scan (fragment : List Char) (inComment : Bool) : List Char → List Lexeme
  | [] => finished fragment
  | c :: rest =>
    if c = '\n' then finished fragment ++ scan [] false rest
    else if inComment then scan fragment true rest
    else if c = ';' then finished fragment ++ scan [] true rest
    else if c = '(' then finished fragment ++ .openParen :: scan [] false rest
    else if c = ')' then finished fragment ++ .closeParen :: scan [] false rest
    else if Text.isBlank c then finished fragment ++ scan [] false rest
    else scan (fragment ++ [c]) false rest

/-- What there is in a text. -/
def lexemes (text : String) : List Lexeme := scan [] false text.toList

/-- The tokens of a text, found in one pass. -/
def scanned (text : String) : Except HostFault (List Token) := (lexemes text).mapM Lexeme.token

/-! ## 2. One equation for each kind of character -/

/-- Characters that a fragment is made of. -/
def Plain (fragment : List Char) : Prop :=
  ∀ c ∈ fragment, Text.isBlank c = false ∧ ¬ IsParen c ∧ c ≠ ';'

variable {fragment : List Char} {c : Char}

theorem Word.plain (h : Word fragment) : Plain fragment :=
  fun c hc => ⟨h.not_blank c hc, h.not_paren c hc, fun heq => h.not_comment (heq ▸ hc)⟩

theorem Plain.word (h : Plain fragment) (hne : fragment ≠ []) : Word fragment where
  ne_nil := hne
  not_blank c hc := (h c hc).1
  not_paren c hc := (h c hc).2.1
  not_comment hc := (h _ hc).2.2 rfl

theorem plain_nil : Plain [] := fun _ h => absurd h List.not_mem_nil

theorem Plain.append_singleton (h : Plain fragment) (hb : Text.isBlank c = false)
    (hp : ¬ IsParen c) (hs : c ≠ ';') : Plain (fragment ++ [c]) := by
  intro d hd
  rcases List.mem_append.mp hd with hd | hd
  · exact h d hd
  · rw [List.mem_singleton.mp hd]
    exact ⟨hb, hp, hs⟩

@[simp] theorem scan_nil (inComment : Bool) : scan fragment inComment [] = finished fragment := rfl

@[simp] theorem finished_nil : finished [] = [] := rfl

theorem finished_word (h : Word fragment) : finished fragment = [.word fragment] :=
  if_neg h.ne_nil

theorem scan_lineFeed (inComment : Bool) (rest : List Char) :
    scan fragment inComment ('\n' :: rest) = finished fragment ++ scan [] false rest := by
  simp [scan]

theorem scan_comment (hc : c ≠ '\n') (rest : List Char) :
    scan fragment true (c :: rest) = scan fragment true rest := by
  simp [scan, hc]

theorem scan_semicolon (rest : List Char) :
    scan fragment false (';' :: rest) = finished fragment ++ scan [] true rest := by
  simp [scan]

theorem scan_openParen (rest : List Char) :
    scan fragment false ('(' :: rest) = finished fragment ++ .openParen :: scan [] false rest := by
  simp [scan]

theorem scan_closeParen (rest : List Char) :
    scan fragment false (')' :: rest) =
      finished fragment ++ .closeParen :: scan [] false rest := by
  simp [scan]

theorem scan_blank (hc : Text.isBlank c = true) (rest : List Char) :
    scan fragment false (c :: rest) = finished fragment ++ scan [] false rest := by
  have hs : c ≠ ';' := by rintro rfl; exact absurd hc (by decide)
  have ho : c ≠ '(' := fun h => not_isParen_of_isBlank hc (.inl h)
  have hp : c ≠ ')' := fun h => not_isParen_of_isBlank hc (.inr h)
  simp [scan, hs, ho, hp, hc]

theorem scan_plain (hb : Text.isBlank c = false) (hp : ¬ IsParen c) (hs : c ≠ ';')
    (rest : List Char) :
    scan fragment false (c :: rest) = scan (fragment ++ [c]) false rest := by
  have hl : c ≠ '\n' := by rintro rfl; exact absurd hb (by decide)
  obtain ⟨ho, hc⟩ := not_or.mp hp
  simp [scan, hl, hs, ho, hc, hb]

/-! ## 3. What a fragment does to its line -/

/-- What has been read of a fragment counts as a fragment where it ends. -/
theorem fragmentsOf_finished (h : Plain fragment) {rest : List Char} (hb : Boundary rest) :
    fragmentsOf (fragment ++ rest) =
      (finished fragment).map Lexeme.characters ++ fragmentsOf rest := by
  by_cases hne : fragment = []
  · simp [hne]
  · rw [finished_word (h.word hne), fragmentsOf_word (h.word hne) hb]
    rfl

@[simp] theorem fragmentsOf_nil : fragmentsOf [] = [] := rfl

@[simp] theorem dropComment_nil : dropComment [] = [] := rfl

@[simp] theorem dropComment_semicolon (line : List Char) : dropComment (';' :: line) = [] := rfl

/-- No comment starts in a fragment. -/
theorem dropComment_append (h : Plain fragment) (rest : List Char) :
    dropComment (fragment ++ rest) = fragment ++ dropComment rest :=
  List.takeWhile_append_of_pos fun c hc => bne_iff_ne.mpr (h c hc).2.2

theorem dropComment_cons (hc : c ≠ ';') (line : List Char) :
    dropComment (c :: line) = c :: dropComment line :=
  List.takeWhile_cons_of_pos (bne_iff_ne.mpr hc)

/-- A fragment that the line ends with. -/
theorem lineFragments_plain (h : Plain fragment) :
    lineFragments fragment = (finished fragment).map Lexeme.characters := by
  have hend : Boundary [] := fun _ _ h => nomatch h
  have hdrop : dropComment fragment = fragment := by simpa using dropComment_append h []
  have hfragments : fragmentsOf fragment = (finished fragment).map Lexeme.characters := by
    simpa using fragmentsOf_finished h hend
  rw [lineFragments, hdrop]
  exact hfragments

theorem lineFragments_semicolon (h : Plain fragment) (line : List Char) :
    lineFragments (fragment ++ ';' :: line) = (finished fragment).map Lexeme.characters := by
  have hdrop : dropComment (fragment ++ ';' :: line) = dropComment (fragment ++ []) := by
    rw [dropComment_append h, dropComment_append h, dropComment_semicolon, dropComment_nil]
  rw [← lineFragments_plain h, lineFragments, hdrop, List.append_nil, lineFragments]

/-- A fragment that ends inside the line. -/
theorem lineFragments_append (h : Plain fragment) (hs : c ≠ ';')
    (hc : Text.isBlank c = true ∨ IsParen c) (line : List Char) :
    lineFragments (fragment ++ c :: line) =
      (finished fragment).map Lexeme.characters ++ lineFragments (c :: line) := by
  have hb : Boundary (c :: dropComment line) := by
    rintro _ _ ⟨⟩
    exact hc
  show fragmentsOf _ = _ ++ fragmentsOf _
  rw [dropComment_append h, dropComment_cons hs, fragmentsOf_finished h hb]

theorem lineFragments_paren (hc : IsParen c) (line : List Char) :
    lineFragments (c :: line) = [c] :: lineFragments line := by
  have hs : c ≠ ';' := by rcases hc with rfl | rfl <;> decide
  show fragmentsOf _ = _ :: fragmentsOf _
  rw [dropComment_cons hs, fragmentsOf_paren hc]

theorem lineFragments_blank (hc : Text.isBlank c = true) (line : List Char) :
    lineFragments (c :: line) = lineFragments line := by
  have hs : c ≠ ';' := by rintro rfl; exact absurd hc (by decide)
  show fragmentsOf _ = fragmentsOf _
  rw [dropComment_cons hs, fragmentsOf_blank hc]

/-! ## 4. The scanner finds the fragments of the lines -/

theorem exists_lines (text : List Char) : ∃ line later, Text.lines text = line :: later :=
  List.exists_cons_of_ne_nil (Text.splitOn_ne_nil _ text)

theorem lines_lineFeed (rest : List Char) : Text.lines ('\n' :: rest) = [] :: Text.lines rest := by
  simp [Text.lines, Text.splitOn_cons]

theorem lines_cons (hc : c ≠ '\n') {rest line : List Char} {later : List (List Char)}
    (h : Text.lines rest = line :: later) : Text.lines (c :: rest) = (c :: line) :: later := by
  unfold Text.lines at h ⊢
  simp [Text.splitOn_cons, hc, h, Text.extendFirst]

theorem characters_scan_paren (hc : IsParen c) (rest : List Char) :
    (scan fragment false (c :: rest)).map Lexeme.characters =
      (finished fragment).map Lexeme.characters ++
        [c] :: (scan [] false rest).map Lexeme.characters := by
  rcases hc with rfl | rfl
  · simp [scan_openParen, Lexeme.characters]
  · simp [scan_closeParen, Lexeme.characters]

/-- **The scanner finds the fragments of the lines.**  Outside a comment the fragment that is being
read stands in front of the line; inside a comment the rest of the line does not count. -/
theorem characters_scan (text : List Char) : ∀ {fragment line : List Char}
    {later : List (List Char)}, Plain fragment → Text.lines text = line :: later →
      (scan fragment false text).map Lexeme.characters =
        lineFragments (fragment ++ line) ++ later.flatMap lineFragments ∧
      (scan [] true text).map Lexeme.characters = later.flatMap lineFragments := by
  induction text with
  | nil =>
    intro fragment line later hf hl
    cases hl
    simp [lineFragments_plain hf]
  | cons c rest ih =>
    intro fragment line later hf hl
    obtain ⟨next, others, hrest⟩ := exists_lines rest
    obtain ⟨hnext, hskip⟩ := ih plain_nil hrest
    by_cases hlf : c = '\n'
    · subst hlf
      rw [lines_lineFeed, hrest] at hl
      cases hl
      simp [scan_lineFeed, hnext, lineFragments_plain hf]
    rw [lines_cons hlf hrest] at hl
    cases hl
    constructor
    · by_cases hs : c = ';'
      · subst hs
        simp [scan_semicolon, hskip, lineFragments_semicolon hf]
      by_cases hp : IsParen c
      · rw [characters_scan_paren hp, hnext, lineFragments_append hf hs (.inr hp),
          lineFragments_paren hp]
        simp
      by_cases hb : Text.isBlank c = true
      · rw [scan_blank hb, List.map_append, hnext, lineFragments_append hf hs (.inl hb),
          lineFragments_blank hb]
        simp
      · have hb : Text.isBlank c = false := Bool.eq_false_iff.mpr hb
        obtain ⟨hword, -⟩ := ih (hf.append_singleton hb hp hs) hrest
        simpa [scan_plain hb hp hs] using hword
    · rw [scan_comment hlf, hskip]

/-- What is found where a fragment ends is the fragment, or is found afterwards. -/
theorem word_of_mem_append {word : List Char} {later : List Lexeme} (h : Plain fragment)
    (hlater : .word word ∈ later → Word word) (hm : .word word ∈ finished fragment ++ later) :
    Word word := by
  rcases List.mem_append.mp hm with hm | hm
  · unfold finished at hm
    split at hm
    · cases hm
    · next hne =>
      cases List.mem_singleton.mp hm
      exact h.word hne
  · exact hlater hm

/-- What is found between parentheses is a word. -/
theorem word_of_mem_scan {text word : List Char} {inComment : Bool} (h : Plain fragment)
    (hm : .word word ∈ scan fragment inComment text) : Word word := by
  fun_induction scan fragment inComment text
  case case1 =>
    rw [← List.append_nil (finished _)] at hm
    exact word_of_mem_append h (fun hm => absurd hm List.not_mem_nil) hm
  case case2 ih | case4 ih | case7 ih => exact word_of_mem_append h (ih plain_nil) hm
  case case3 ih => exact ih h hm
  case case5 ih | case6 ih =>
    refine word_of_mem_append h (fun hm => ih plain_nil ?_) hm
    simpa using hm
  case case8 hs ho hc hb ih =>
    have hb := Bool.eq_false_iff.mpr hb
    exact ih (h.append_singleton hb (not_or.mpr ⟨ho, hc⟩) hs) hm

/-! ## 5. Both have the same tokens -/

/-- What was found has the token of its characters. -/
theorem Lexeme.token_eq {lexeme : Lexeme} (h : ∀ word, lexeme = .word word → Word word) :
    lexeme.token = ofFragment lexeme.characters := by
  cases lexeme with
  | openParen => rfl
  | closeParen => rfl
  | word fragment =>
    have hw : Word fragment := h fragment rfl
    have hnumeral : isNumeral fragment = fragment.all Char.isDigit := by
      simp [isNumeral, hw.ne_nil]
    have hword : isWord fragment = fragment.all isWordChar := by simp [isWord, hw.ne_nil]
    by_cases hn : isNumeral fragment = true
    · rw [characters, ofFragment_numeral hn, token, if_pos (hnumeral ▸ hn), Text.readDigits,
        Text.ofDigits_eq]
      split <;> rfl
    · rw [characters, ofFragment_word hw hn, token, if_neg (hnumeral ▸ hn), hword]

theorem mapM_congr {α β ε : Type} {f g : α → Except ε β} {xs : List α}
    (h : ∀ x ∈ xs, f x = g x) : xs.mapM f = xs.mapM g := by
  induction xs with
  | nil => rfl
  | cons x rest ih =>
    obtain ⟨hx, hrest⟩ := List.forall_mem_cons.mp h
    simp [List.mapM_cons, hx, ih hrest]

/-- **One pass finds the tokens of every text.** -/
theorem ofText_eq_scanned (text : String) : ofText text = scanned text := by
  obtain ⟨line, later, hlines⟩ := exists_lines text.toList
  have hfragments : (lexemes text).map Lexeme.characters =
      (Text.lines text.toList).flatMap lineFragments := by
    rw [lexemes, (characters_scan _ plain_nil hlines).1, hlines]
    rfl
  have htoken : ∀ lexeme ∈ lexemes text, lexeme.token = ofFragment lexeme.characters := by
    intro lexeme hmem
    refine Lexeme.token_eq ?_
    rintro word rfl
    exact word_of_mem_scan plain_nil hmem
  rw [ofText, ← hfragments, List.mapM_map, scanned, mapM_congr htoken]
  rfl

/-! ## 6. Where both fail -/

/-- A row is refused for the first of its members that is. -/
theorem mapM_eq_error_iff {α β ε : Type} {f : α → Except ε β} {e : ε} {xs : List α} :
    xs.mapM f = .error e ↔
      ∃ before x after, xs = before ++ x :: after ∧ (∀ y ∈ before, ∃ b, f y = .ok b) ∧
        f x = .error e := by
  constructor
  · intro h
    induction xs with
    | nil => cases h
    | cons x rest ih =>
      rw [List.mapM_cons] at h
      cases hx : f x with
      | error e' =>
        rw [hx] at h
        cases h
        exact ⟨[], x, rest, rfl, by simp, hx⟩
      | ok b =>
        cases hrest : rest.mapM f with
        | ok bs => rw [hx, hrest] at h; cases h
        | error e' =>
          rw [hx, hrest] at h
          cases h
          obtain ⟨before, y, after, rfl, hbefore, hy⟩ := ih hrest
          exact ⟨x :: before, y, after, rfl, by simpa [hx] using hbefore, hy⟩
  · rintro ⟨before, x, after, rfl, hbefore, hx⟩
    induction before with
    | nil =>
      rw [List.nil_append, List.mapM_cons, hx]
      rfl
    | cons y before ih =>
      obtain ⟨⟨b, hb⟩, hbefore⟩ := List.forall_mem_cons.mp hbefore
      rw [List.cons_append, List.mapM_cons, hb, ih hbefore]
      rfl

namespace Lexeme

theorem token_of_tooLong (h : TooLong fragment) :
    (word fragment).token = .error (.textTooLong fragment.length) := by
  obtain ⟨hdigits, hlong⟩ := h
  rw [token, if_pos (List.all_eq_true.mpr hdigits), if_neg (Nat.not_le_of_lt hlong)]

theorem token_of_not_tooLong {lexeme : Lexeme}
    (h : ∀ fragment, lexeme = .word fragment → ¬ TooLong fragment) :
    ∃ t, lexeme.token = .ok t := by
  cases lexeme with
  | openParen => exact ⟨_, rfl⟩
  | closeParen => exact ⟨_, rfl⟩
  | word fragment =>
    rw [token]
    split
    · next hdigits =>
      have hshort : fragment.length ≤ digitLimit := Nat.le_of_not_lt fun hlong =>
        h fragment rfl ⟨List.all_eq_true.mp hdigits, hlong⟩
      exact ⟨_, if_pos hshort⟩
    · split
      · exact ⟨_, rfl⟩
      · exact ⟨_, rfl⟩

end Lexeme

/-- A text is refused for the leftmost numeral that is too long. -/
theorem ofText_eq_error_iff {text : String} {fault : HostFault} :
    ofText text = .error fault ↔
      ∃ before fragment after, lexemes text = before ++ .word fragment :: after ∧
        Lexeme.TooLong fragment ∧ (∀ earlier, .word earlier ∈ before → ¬ Lexeme.TooLong earlier) ∧
        fault = .textTooLong fragment.length := by
  rw [ofText_eq_scanned, scanned, mapM_eq_error_iff]
  constructor
  · rintro ⟨before, lexeme, after, htext, hbefore, hfault⟩
    by_cases hlong : ∃ fragment, lexeme = .word fragment ∧ Lexeme.TooLong fragment
    · obtain ⟨fragment, rfl, hlong⟩ := hlong
      rw [Lexeme.token_of_tooLong hlong] at hfault
      cases hfault
      refine ⟨before, fragment, after, htext, hlong, fun earlier hmem hearlier => ?_, rfl⟩
      obtain ⟨t, ht⟩ := hbefore _ hmem
      rw [Lexeme.token_of_tooLong hearlier] at ht
      cases ht
    · obtain ⟨t, ht⟩ := Lexeme.token_of_not_tooLong fun fragment heq h => hlong ⟨fragment, heq, h⟩
      rw [ht] at hfault
      cases hfault
  · rintro ⟨before, fragment, after, htext, hlong, hbefore, rfl⟩
    refine ⟨before, .word fragment, after, htext, fun lexeme hmem => ?_,
      Lexeme.token_of_tooLong hlong⟩
    refine Lexeme.token_of_not_tooLong ?_
    rintro earlier rfl
    exact hbefore earlier hmem

/-- **One pass is enough.**  The tokens of a text are those that the scanner finds, on every text.
A text is refused exactly if the scanner finds a numeral that is too long, and it is refused for
the leftmost. -/
theorem ofText_scans :
    (∀ text, ofText text = scanned text) ∧
    ∀ text fault, ofText text = .error fault ↔
      ∃ before fragment after, lexemes text = before ++ .word fragment :: after ∧
        Lexeme.TooLong fragment ∧ (∀ earlier, .word earlier ∈ before → ¬ Lexeme.TooLong earlier) ∧
        fault = .textTooLong fragment.length :=
  ⟨ofText_eq_scanned, fun _ _ => ofText_eq_error_iff⟩

/-- A carriage return ends a word and no comment. -/
example : scanned "a;b\rc\nd\re" = .ok [.identifier "a", .identifier "d", .identifier "e"] := by
  decide

end LedgerScript.Token
