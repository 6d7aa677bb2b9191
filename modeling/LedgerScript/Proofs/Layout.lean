/-
# Layout

Between the tokens of a text stand blanks and comments, and nothing in them matters but that they
keep words apart.  Whatever gaps the tokens are written with anew (`LaidOut`), the text is read as
the same tokens (`ofText_laidOut`).

The scanner carries the proof.  It comes out of a gap as it went in, with no fragment in hand
(`scan_gap`), and it finishes a word wherever the text goes on with something else (`Stops`): with
a gap that is not empty, with a parenthesis, or not at all.
-/
import LedgerScript.Proofs.Scanning
import LedgerScript.Run.Execution
import Mathlib.Data.List.Chain

namespace LedgerScript

namespace Token

/-! ## 1. Gaps -/

/-- What may stand between tokens: blanks, and comments with the line feeds that end them. -/
inductive Gap : List Char → Prop
  | nil : Gap []
  | blank {c : Char} {rest : List Char} (hc : Text.isBlank c = true) (h : Gap rest) :
    Gap (c :: rest)
  | comment {body rest : List Char} (hb : '\n' ∉ body) (h : Gap rest) :
    Gap (';' :: (body ++ '\n' :: rest))

/-- A token that needs no gap around it. -/
def Bracket (token : Token) : Prop := token = .openParen ∨ token = .closeParen

/-- The text of some tokens, each with the gap behind it, after a first gap. -/
def layOut (first : List Char) : List (Token × List Char) → List Char
  | [] => first
  | (token, gap) :: rest => first ++ (token.text.toList ++ layOut gap rest)

/-- A text is made of the texts of some tokens, with gaps before, between and behind them.  A gap
between two tokens is not empty, unless one of them is a parenthesis. -/
def LaidOut (tokens : List Token) (text : String) : Prop :=
  ∃ first items, text.toList = layOut first items ∧ items.map Prod.fst = tokens ∧ Gap first ∧
    (∀ item ∈ items, Gap item.2) ∧
    items.IsChain fun item next => item.1.Bracket ∨ next.1.Bracket ∨ item.2 ≠ []

/-! ## 2. The scanner in gaps and words -/

/-- Where a fragment that is being read comes to its end. -/
def Stops (text : List Char) : Prop :=
  ∀ c rest, text = c :: rest → Text.isBlank c = true ∨ IsParen c ∨ c = ';'

variable {fragment gap word text : List Char}

/-- A fragment that comes to its end is found, and the scanner goes on without it. -/
theorem scan_of_stops (h : Stops text) :
    scan fragment false text = finished fragment ++ scan [] false text := by
  cases text with
  | nil => simp
  | cons c rest =>
    rcases h c rest rfl with hc | (rfl | rfl) | rfl
    · simp [scan_blank hc]
    · simp [scan_openParen]
    · simp [scan_closeParen]
    · simp [scan_semicolon]

/-- Nothing is found in a comment. -/
theorem scan_body {body : List Char} (hb : '\n' ∉ body) (rest : List Char) :
    scan [] true (body ++ '\n' :: rest) = scan [] false rest := by
  induction body with
  | nil => simp [scan_lineFeed]
  | cons c body ih =>
    obtain ⟨hc, hb⟩ := not_or.mp (mt List.mem_cons.mpr hb)
    rw [List.cons_append, scan_comment (Ne.symm hc), ih hb]

/-- Nothing is found in a gap. -/
theorem scan_gap (h : Gap gap) (rest : List Char) :
    scan [] false (gap ++ rest) = scan [] false rest := by
  induction h with
  | nil => rfl
  | blank hc _ ih => simp [scan_blank hc, ih]
  | @comment body further hb _ ih =>
    rw [List.cons_append, List.append_assoc, List.cons_append, scan_semicolon, scan_body hb, ih]
    rfl

/-- A gap that is not empty ends a fragment. -/
theorem Gap.stops (h : Gap gap) (hne : gap ≠ []) (rest : List Char) : Stops (gap ++ rest) := by
  rintro c further heq
  cases h with
  | nil => exact absurd rfl hne
  | blank hc =>
    cases heq
    exact .inl hc
  | comment =>
    cases heq
    exact .inr (.inr rfl)

/-- The scanner takes a word up character by character. -/
theorem scan_append (hw : Plain word) (rest : List Char) : ∀ fragment : List Char,
    scan fragment false (word ++ rest) = scan (fragment ++ word) false rest := by
  induction word with
  | nil => simp
  | cons c word ih =>
    intro fragment
    obtain ⟨⟨hb, hp, hs⟩, hw⟩ := List.forall_mem_cons.mp hw
    rw [List.cons_append, scan_plain hb hp hs, ih hw, List.append_assoc, List.singleton_append]

/-- A word is found, if the text does not go on with another. -/
theorem scan_word (hw : Word word) (h : Stops text) :
    scan [] false (word ++ text) = .word word :: scan [] false text := by
  rw [scan_append hw.plain, List.nil_append, scan_of_stops h, finished_word hw]
  rfl

/-! ## 3. The scanner on a text that is laid out -/

/-- What the scanner finds where a token is written. -/
def lexeme : Token → Lexeme
  | openParen => .openParen
  | closeParen => .closeParen
  | token => .word token.text.toList

theorem lexeme_of_not_bracket {token : Token} (h : ¬ token.Bracket) :
    token.lexeme = .word token.text.toList := by
  cases token with
  | openParen => exact absurd (.inl rfl) h
  | closeParen => exact absurd (.inr rfl) h
  | _ => rfl

/-- What was found is what is found where its token is written. -/
theorem lexeme_of_token {l : Lexeme} {token : Token} (h : l.token = .ok token) :
    token.lexeme = l := by
  cases l with
  | openParen => cases h; rfl
  | closeParen => cases h; rfl
  | word fragment =>
    rw [Lexeme.token] at h
    split at h
    · split at h
      · cases h; simp [lexeme, Token.text]
      · cases h
    · split at h
      · cases h; simp [lexeme, Token.text]
      · cases h; simp [lexeme, Token.text]

theorem layOut_eq_append (first : List Char) (items : List (Token × List Char)) :
    layOut first items = first ++ layOut [] items := by
  cases items with
  | nil => simp [layOut]
  | cons item rest => rfl

/-- A fragment ends at a gap that is not empty, at a parenthesis and at the end of the text. -/
theorem stops_layOut {items : List (Token × List Char)} (h : Gap gap)
    (hnext : ∀ item ∈ items.head?, item.1.Bracket ∨ gap ≠ []) : Stops (layOut gap items) := by
  rw [layOut_eq_append]
  by_cases hne : gap = []
  · subst hne
    cases items with
    | nil => exact fun _ _ heq => nomatch heq
    | cons item rest =>
      obtain ⟨token, later⟩ := item
      have hb : token.Bracket := (hnext _ rfl).resolve_right (absurd rfl)
      rcases hb with rfl | rfl
      · rintro c further ⟨⟩
        exact .inr (.inl (.inl rfl))
      · rintro c further ⟨⟩
        exact .inr (.inl (.inr rfl))
  · exact h.stops hne _

/-- **The scanner finds what was laid out.** -/
theorem scan_layOut {items : List (Token × List Char)} : ∀ {first : List Char}, Gap first →
    (∀ item ∈ items, Gap item.2) →
    (items.IsChain fun item next => item.1.Bracket ∨ next.1.Bracket ∨ item.2 ≠ []) →
    (∀ item ∈ items, ¬ item.1.Bracket → Word item.1.text.toList) →
      scan [] false (layOut first items) = items.map fun item => item.1.lexeme := by
  induction items with
  | nil =>
    intro first hf _ _ _
    simpa [layOut] using scan_gap hf []
  | cons item rest ih =>
    intro first hf hgaps hchain hwords
    obtain ⟨token, gap⟩ := item
    obtain ⟨hgap, hgaps⟩ := List.forall_mem_cons.mp hgaps
    obtain ⟨hword, hwords⟩ := List.forall_mem_cons.mp hwords
    obtain ⟨hnext, hchain⟩ := List.isChain_cons.mp hchain
    have hrest : scan [] false (layOut gap rest) = rest.map fun item => item.1.lexeme :=
      ih hgap hgaps hchain hwords
    rw [layOut, scan_gap hf, List.map_cons, ← hrest]
    by_cases hb : token.Bracket
    · rcases hb with rfl | rfl
      · exact scan_openParen _
      · exact scan_closeParen _
    · -- a word ends where it is written, because its gap is not empty or a parenthesis follows
      have hstops : Stops (layOut gap rest) :=
        stops_layOut hgap fun item hitem => (hnext item hitem).resolve_left hb
      rw [scan_word (hword hb) hstops, lexeme_of_not_bracket hb]

/-! ## 4. Reading the text again -/

/-- The tokens of a text are written as what was found in it. -/
theorem lexemes_of_tokens {ls : List Lexeme} : ∀ {tokens : List Token},
    ls.mapM Lexeme.token = .ok tokens → tokens.map lexeme = ls := by
  induction ls with
  | nil =>
    rintro _ ⟨⟩
    rfl
  | cons l rest ih =>
    intro tokens h
    rw [List.mapM_cons] at h
    cases htoken : l.token with
    | error fault => rw [htoken] at h; cases h
    | ok token =>
      cases hothers : rest.mapM Lexeme.token with
      | error fault => rw [htoken, hothers] at h; cases h
      | ok others =>
        rw [htoken, hothers] at h
        cases h
        rw [List.map_cons, lexeme_of_token htoken, ih hothers]

/-- A token of a text that is no parenthesis is written as a word. -/
theorem word_of_mem {text : String} {tokens : List Token} (h : tokens.map lexeme = lexemes text)
    {token : Token} (hmem : token ∈ tokens) (hb : ¬ token.Bracket) : Word token.text.toList := by
  have hfound : token.lexeme ∈ lexemes text := h ▸ List.mem_map_of_mem hmem
  rw [lexeme_of_not_bracket hb] at hfound
  exact word_of_mem_scan plain_nil hfound

/-- **Layout does not matter.**  The tokens of a text, written anew with any gaps around them, are
read as the same tokens.  The text then has the same forms as before, or is refused with the same
error. -/
theorem ofText_laidOut {text again : String} {tokens : List Token}
    (h : ofText text = .ok tokens) (hagain : LaidOut tokens again) :
    ofText again = .ok tokens ∧ Run.readScript again = Run.readScript text := by
  obtain ⟨first, items, htext, rfl, hfirst, hgaps, hchain⟩ := hagain
  have hfound : (lexemes text).mapM Lexeme.token = .ok (items.map Prod.fst) := by
    rw [← h, ofText_eq_scanned, scanned]
  have htokens : (items.map Prod.fst).map lexeme = lexemes text := lexemes_of_tokens hfound
  have hwords : ∀ item ∈ items, ¬ item.1.Bracket → Word item.1.text.toList :=
    fun item hitem hb => word_of_mem htokens (List.mem_map_of_mem hitem) hb
  have hagain : lexemes again = lexemes text := by
    rw [lexemes, htext, scan_layOut hfirst hgaps hchain hwords, ← htokens, List.map_map]
    rfl
  have hsame : ofText again = .ok (items.map Prod.fst) := by
    rw [ofText_eq_scanned, scanned, hagain, hfound]
  refine ⟨hsame, ?_⟩
  unfold Run.readScript
  rw [hsame, h]

/-- The gap behind the name is a comment with parentheses and a line separator in it; the one behind
the inner parenthesis is a no-break space, and beside the others there may be none. -/
theorem ofText_laidOut_comment :
    ofText "(f 007 (g))" = .ok [.openParen, .identifier "f", .number "007" 7, .openParen,
      .identifier "g", .closeParen, .closeParen] ∧
    LaidOut [.openParen, .identifier "f", .number "007" 7, .openParen, .identifier "g", .closeParen,
      .closeParen] "(f;)(;\u2028 x\n007(\u00a0g) )\r" ∧
    ofText "(f;)(;\u2028 x\n007(\u00a0g) )\r" = .ok [.openParen, .identifier "f",
      .number "007" 7, .openParen, .identifier "g", .closeParen, .closeParen] ∧
    Run.readScript "(f;)(;\u2028 x\n007(\u00a0g) )\r" = Run.readScript "(f 007 (g))" := by
  have hread : ofText "(f 007 (g))" = .ok [.openParen, .identifier "f", .number "007" 7,
      .openParen, .identifier "g", .closeParen, .closeParen] := by
    rw [ofText_eq_scanned]
    decide
  have hcomment : Gap ";)(;\u2028 x\n".toList :=
    @Gap.comment ")(;\u2028 x".toList [] (by decide) .nil
  have hlaid : LaidOut [.openParen, .identifier "f", .number "007" 7, .openParen, .identifier "g",
      .closeParen, .closeParen] "(f;)(;\u2028 x\n007(\u00a0g) )\r" := by
    refine ⟨[], [(.openParen, []), (.identifier "f", ";)(;\u2028 x\n".toList),
      (.number "007" 7, []), (.openParen, ['\u00a0']), (.identifier "g", []), (.closeParen, [' ']),
      (.closeParen, ['\r'])], by decide, rfl, .nil, ?_, ?_⟩
    · simp only [List.forall_mem_cons]
      exact ⟨.nil, hcomment, .nil, .blank (by decide) .nil, .nil, .blank (by decide) .nil,
        .blank (by decide) .nil, by simp⟩
    · simp [Bracket]
  exact ⟨hread, hlaid, ofText_laidOut hread hlaid⟩

end Token

end LedgerScript
