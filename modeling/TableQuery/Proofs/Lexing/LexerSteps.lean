import Mathlib.Data.List.TakeWhile
import TableQuery.Proofs.Lexing.LexemeForms

/-! What one step of the lexer takes from a text.
A step takes separators and one lexeme.  A lexeme of a known form is taken as a whole, and
nothing more than it, wherever it is a dot or what follows cannot belong to a word.
-/

namespace TableQuery

/-- A text that no word in front of it runs into. -/
def EndsWord (text : List Char) : Prop :=
  ∀ c ∈ text.head?, isSeparator c ∨ c = '.'

/-- Nothing is taken in front of a boundary. -/
theorem splitWord_of_endsWord {text : List Char} (ends : EndsWord text)
    : splitWord false text = ([], text) := by
  cases text with
  | nil => rfl
  | cons c rest =>
      rw [splitWord, if_pos]
      simpa using ends c rfl

/-- What stands behind a word ends it, by induction over the text. -/
theorem endsWord_splitWord (quoted : Bool) (text : List Char)
    : EndsWord (splitWord quoted text).2 := by
  induction text generalizing quoted with
  | nil => simp [splitWord, EndsWord]
  | cons c rest ih =>
      rw [splitWord]
      split
      · rename_i boundary
        intro first same
        obtain rfl := Option.some.inj same
        simpa using (Bool.and_eq_true_iff.mp boundary).2
      · exact ih (quoted ^^ c == quote)

/-- Plain characters outside quotes belong to the word, by induction over them. -/
theorem splitWord_plain {word : List Char} (plain : ∀ c ∈ word, IsPlain c)
    (rest : List Char)
    : splitWord false (word ++ rest)
      = (word ++ (splitWord false rest).1, (splitWord false rest).2) := by
  induction word with
  | nil => rfl
  | cons c word ih =>
      obtain ⟨notQuote, notDot, notSeparator⟩ := plain c List.mem_cons_self
      have stays : (c == quote) = false := beq_false_of_ne notQuote
      have below := ih (fun other member => plain other (List.mem_cons_of_mem c member))
      simp [splitWord, stays, notDot, notSeparator, below]

/-- Behind an opening quote all characters up to the next quote belong to the word, by
induction over them.
-/
theorem splitWord_quoted {name : List Char} (unquoted : quote ∉ name) (rest : List Char)
    : splitWord true (name ++ quote :: rest)
      = (name ++ quote :: (splitWord false rest).1, (splitWord false rest).2) := by
  induction name with
  | nil => simp [splitWord]
  | cons c name ih =>
      obtain ⟨notQuote, below⟩ : quote ≠ c ∧ quote ∉ name := by simpa using unquoted
      have stays : (c == quote) = false := beq_false_of_ne notQuote.symm
      simp [splitWord, stays, ih below]

/-- A lexeme other than a dot is the word in front of a boundary. -/
theorem LexemeForm.splitWord_append {kind : TokenKind} {lexeme after : List Char}
    (form : LexemeForm kind lexeme) (notDot : kind ≠ .dot) (ends : EndsWord after)
    : splitWord false (lexeme ++ after) = (lexeme, after) := by
  have stops := splitWord_of_endsWord ends
  cases form with
  | selectKeyword spelled =>
      simp [splitWord_plain (spelled.isPlain (by decide)), stops]
  | fromKeyword spelled =>
      simp [splitWord_plain (spelled.isPlain (by decide)), stops]
  | identifier unquoted =>
      have opened := splitWord_quoted unquoted after
      have noBoundary : (isSeparator quote || quote == '.') = false := by decide
      simp [splitWord, noBoundary, opened, stops]
  | dot => exact absurd rfl notDot

/-- A lexeme of a known form is split off as a whole. -/
theorem LexemeForm.splitLexeme_append {kind : TokenKind} {first : Char}
    {rest after : List Char} (form : LexemeForm kind (first :: rest))
    (apart : kind = .dot ∨ EndsWord after)
    : splitLexeme first (rest ++ after) = (first :: rest, after) := by
  rw [splitLexeme]
  by_cases isDot : kind = .dot
  · subst isDot
    cases form
    simp
  · have notDot : first ≠ '.' := by
      intro isDot
      obtain rfl := isDot
      obtain ⟨initial, isInitial, _, same⟩ := form.exists_initial
      obtain ⟨rfl, rfl⟩ := List.cons.inj same
      exact isDot (TokenKind.eq_of_initial isInitial (by simp [TokenKind.initials]))
    rw [if_neg notDot]
    exact form.splitWord_append isDot (apart.resolve_left isDot)

/-- Only a dot may stand directly in front of more text of a word. -/
theorem endsWord_splitLexeme (first : Char) (rest : List Char)
    : (splitLexeme first rest).1 = ['.'] ∨ EndsWord (splitLexeme first rest).2 := by
  rw [splitLexeme]
  split
  · rename_i isDot
    exact Or.inl (by simp [isDot])
  · exact Or.inr (endsWord_splitWord false (first :: rest))

/-- Reading a lexeme yields exactly the token that consists of it.
A lexeme with an open quote is no exception, because no token consists of one.
-/
theorem readLexeme_eq_ok_iff {lexeme : List Char} {span : Span} {token : Token}
    : readLexeme lexeme span = .ok token
      ↔ token.lexeme = String.ofList lexeme ∧ token.span = span := by
  rw [readLexeme, ← classify?_eq_some_iff]
  split
  · rename_i opened
    refine iff_of_false (by simp) ?_
    intro classified
    have form := recognizes_iff.mp token.recognized
    rw [(classify?_eq_some_iff.mp classified).1, String.toList_ofList] at form
    simp [form.hasOpenQuote_eq_false] at opened
  · split
    · rename_i found
      simp [found]
    · rename_i missing
      simp [missing]

/-- The lexer has nothing to read exactly where only separators are left. -/
theorem next?_eq_none_iff {lexer : Lexer}
    : lexer.next? = none ↔ ∀ c ∈ lexer.rest, isSeparator c := by
  rw [← List.dropWhile_eq_nil_iff, Lexer.next?]
  split
  · rename_i nothing
    simp [nothing]
  · rename_i ahead
    simp [ahead]

/-- A step skips a gap of separators, splits off the lexeme behind it and reads it at its
place.  Both directions hold because the gap reaches as far as there are separators.
-/
theorem next?_eq_some_iff {lexer after : Lexer} {item : LexedItem}
    : lexer.next? = some (item, after)
      ↔ ∃ gap first rest lexeme left,
          (∀ c ∈ gap, isSeparator c)
          ∧ isSeparator first = false
          ∧ lexer.rest = gap ++ first :: rest
          ∧ splitLexeme first rest = (lexeme, left)
          ∧ let start := lexer.position.advance gap
            let stop := start.advance lexeme
            item = readLexeme lexeme { start, stop }
            ∧ after = { rest := left, position := stop } := by
  rw [Lexer.next?]
  constructor
  · intro step
    split at step
    · cases step
    · rename_i first rest ahead
      have notSeparator := List.head?_dropWhile_not isSeparator lexer.rest
      obtain ⟨rfl, rfl⟩ := Prod.mk.inj (Option.some.inj step)
      refine ⟨lexer.rest.takeWhile isSeparator, first, rest, _, _, ?_, ?_, ?_, rfl, rfl, rfl⟩
      · exact fun c member => List.all_eq_true.mp List.all_takeWhile c member
      · simpa [ahead] using notSeparator
      · rw [← ahead, List.takeWhile_append_dropWhile]
  · intro taken
    obtain ⟨gap, first, rest, lexeme, left, blank, notSeparator, whole, split, rfl, rfl⟩ :=
      taken
    have skipped : lexer.rest.takeWhile isSeparator = gap := by
      rw [whole, List.takeWhile_append_of_pos blank]
      simp [notSeparator]
    have ahead : lexer.rest.dropWhile isSeparator = first :: rest := by
      rw [whole, List.dropWhile_append_of_pos blank]
      simp [notSeparator]
    simp only [skipped, ahead, split]

end TableQuery
