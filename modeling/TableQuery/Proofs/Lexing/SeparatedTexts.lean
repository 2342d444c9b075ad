import TableQuery.Proofs.Lexing.LayoutRecognition
import TableQuery.Proofs.Lexing.QuotePairs
import TableQuery.Proofs.Lexing.TextPlaces
import TableQuery.Proofs.Reading.MovedTokens

/-! Texts that are put together at a separator.
A text whose quotes come in pairs is read to its end before a separator behind it is reached,
so what stands behind the separator is read as a text of its own.  Only its places are others:
lines are counted on, and columns on its first line.
-/

namespace TableQuery

-----------------------------------------------------------------------------------------
-- Places behind a text
-----------------------------------------------------------------------------------------

/-- The place that a place of one text has where another text stands in front of it: further
down by the newlines in front, and on the first line also behind the line in front.
-/
def Position.behind (front : List Char) (position : Position) : Position where
  line := position.line + front.count '\n'
  column :=
    if position.line = 1 then position.column + (lastLine front).length else position.column
  line_ge := by
    have := position.line_ge
    omega
  column_ge := by
    have := position.column_ge
    split <;> omega

/-- All places of a text moved behind the text in front of it. -/
def Respacing.behind (front : List Char) : Respacing where
  start := Position.behind front
  stop := Position.behind front

namespace Position

/-- A text begins where the text in front of it ends. -/
theorem behind_first (front : List Char) : first.behind front = first.advance front := by
  ext
  · rw [line_advance_first]
    rfl
  · rw [column_advance_first]
    rfl

/-- Going on by a character and moving can be exchanged: a newline leaves the first line, and
only on that line columns are moved.
-/
theorem next_behind (front : List Char) {position : Position} (counted : 1 ≤ position.line)
    (c : Char)
    : (position.behind front).next c = (position.next c).behind front := by
  have below : position.line + 1 ≠ 1 := by omega
  by_cases isNewline : c = '\n'
  · ext <;> simp only [next, behind, isNewline, if_true, if_neg below]
    omega
  · ext <;> simp only [next, behind, isNewline, if_false]
    split <;> omega

theorem one_le_line_advance {position : Position} (counted : 1 ≤ position.line)
    (text : List Char)
    : 1 ≤ (position.advance text).line := by
  rw [line_advance]
  omega

/-- So can going on by a whole text, by induction over it. -/
theorem advance_behind (front : List Char) {position : Position}
    (counted : 1 ≤ position.line) (text : List Char)
    : (position.behind front).advance text = (position.advance text).behind front := by
  induction text generalizing position with
  | nil => rfl
  | cons c rest ih =>
      rw [advance_cons, advance_cons, next_behind front counted]
      exact ih (one_le_line_advance counted [c])

end Position

-----------------------------------------------------------------------------------------
-- Reading at moved places
-----------------------------------------------------------------------------------------

/-- What a lexeme is read as, moved to a new place. -/
def Respacing.item (places : Respacing) (item : LexedItem) : LexedItem :=
  (item.mapError places.diagnostic).map places.token

theorem ofKind?_span (places : Respacing) (kind : TokenKind) (lexeme : String) (span : Span)
    : Token.ofKind? kind lexeme (places.span span)
      = (Token.ofKind? kind lexeme span).map places.token := by
  rw [Token.ofKind?, Token.ofKind?]
  split <;> rfl

/-- What a lexeme is read as does not depend on its place. -/
theorem readLexeme_span (places : Respacing) (lexeme : List Char) (span : Span)
    : readLexeme lexeme (places.span span) = places.item (readLexeme lexeme span) := by
  have classified
      : Token.classify? (String.ofList lexeme) (places.span span)
        = (Token.classify? (String.ofList lexeme) span).map places.token := by
    simp only [Token.classify?, List.map_findSome?, ofKind?_span, Function.comp_def]
  rw [readLexeme, readLexeme, classified]
  split
  · rfl
  · cases Token.classify? (String.ofList lexeme) span <;> rfl

/-- The same text ahead, at its place behind another text. -/
def Lexer.behind (front : List Char) (lexer : Lexer) : Lexer :=
  { lexer with position := lexer.position.behind front }

/-- A step takes the same lexeme behind another text, and reads it as the same at its place. -/
theorem next?_behind (front : List Char) {lexer : Lexer} (counted : 1 ≤ lexer.position.line)
    : (lexer.behind front).next?
      = lexer.next?.map (Prod.map (Respacing.behind front).item (Lexer.behind front)) := by
  have start := Position.advance_behind front counted (lexer.rest.takeWhile isSeparator)
  have countedStart := Position.one_le_line_advance counted (lexer.rest.takeWhile isSeparator)
  rw [Lexer.next?, Lexer.next?]
  simp only [Lexer.behind, start]
  split
  · rfl
  · rename_i first rest ahead
    have stop := Position.advance_behind front countedStart (splitLexeme first rest).1
    simp only [stop, Option.map_some, Prod.map, ← readLexeme_span]
    rfl

/-- Every step keeps to the lines of the text. -/
theorem one_le_line_of_next? {lexer after : Lexer} {item : LexedItem}
    (counted : 1 ≤ lexer.position.line) (step : lexer.next? = some (item, after))
    : 1 ≤ after.position.line := by
  obtain ⟨gap, _, _, lexeme, _, _, _, _, _, _, rfl⟩ := next?_eq_some_iff.mp step
  exact Position.one_le_line_advance (Position.one_le_line_advance counted gap) lexeme

/-- A whole run reads the same behind another text, by induction on the run. -/
theorem tokenize_behind (front : List Char) (lexer : Lexer)
    (counted : 1 ≤ lexer.position.line)
    : (lexer.behind front).tokenize.1
      = (lexer.tokenize.1.mapError (Respacing.behind front).diagnostic).map
          (List.map (Respacing.behind front).token) := by
  fun_induction Lexer.tokenize lexer with
  | case1 lexer step =>
      rw [tokenize_eq, next?_behind front counted, step]
      rfl
  | case2 lexer diagnostic after step =>
      rw [tokenize_eq, next?_behind front counted, step]
      rfl
  | case3 lexer token after step tokens final more ih =>
      have below := ih (one_le_line_of_next? counted step)
      rw [more] at below
      rw [tokenize_eq, next?_behind front counted, step]
      simp only [Option.map_some, Prod.map, Respacing.item, mapError_ok, Except.map, below]
      cases tokens <;> rfl

-----------------------------------------------------------------------------------------
-- Reading up to a separator
-----------------------------------------------------------------------------------------

/-- Separators in front of a text are only counted. -/
theorem tokenize_blank_append {gap : List Char} (blank : ∀ c ∈ gap, isSeparator c)
    (rest : List Char) (position : Position)
    : (Lexer.mk (gap ++ rest) position).tokenize.1
      = (Lexer.mk rest (position.advance gap)).tokenize.1 := by
  have step
      : (Lexer.mk (gap ++ rest) position).next?
        = (Lexer.mk rest (position.advance gap)).next? := by
    rw [Lexer.next?, Lexer.next?]
    simp only [List.takeWhile_append_of_pos blank, List.dropWhile_append_of_pos blank,
      Position.advance_append]
  rw [tokenize_eq, step, ← tokenize_eq]

section

variable {separator : Char} (separates : isSeparator separator)
include separates

/-- A word stops at a separator behind a text in which it leaves no name open, by induction
over the text.
-/
theorem splitWord_append_separator {quoted : Bool} {text : List Char}
    (closed : hasOpenQuote text = quoted) (behind : List Char)
    : splitWord quoted (text ++ separator :: behind)
      = ((splitWord quoted text).1, (splitWord quoted text).2 ++ separator :: behind) := by
  induction text generalizing quoted with
  | nil =>
      obtain rfl := closed
      have ends : EndsWord ([separator] ++ behind) :=
        endsWord_append (by simpa using separates) (List.cons_ne_nil separator []) behind
      exact splitWord_of_endsWord ends
  | cons c rest ih =>
      rw [List.cons_append, splitWord, splitWord]
      split
      · rfl
      · have closedRest : hasOpenQuote rest = (quoted ^^ c == quote) := by
          rw [← closed, hasOpenQuote_cons]
          cases c == quote <;> simp
        rw [ih closedRest]

theorem splitLexeme_append_separator {first : Char} {rest : List Char}
    (closed : hasOpenQuote (first :: rest) = false) (behind : List Char)
    : splitLexeme first (rest ++ separator :: behind)
      = ((splitLexeme first rest).1,
          (splitLexeme first rest).2 ++ separator :: behind) := by
  rw [splitLexeme, splitLexeme]
  split
  · rfl
  · exact splitWord_append_separator separates closed behind

/-- A step in a text whose quotes come in pairs is not changed by what stands behind a
separator, and leaves a text whose quotes come in pairs.
-/
theorem next?_append_separator {rest : List Char} {position : Position} {item : LexedItem}
    {after : Lexer} (closed : hasOpenQuote rest = false)
    (step : (Lexer.mk rest position).next? = some (item, after)) (behind : List Char)
    : (Lexer.mk (rest ++ separator :: behind) position).next?
        = some (item, { after with rest := after.rest ++ separator :: behind })
      ∧ hasOpenQuote after.rest = false := by
  obtain ⟨gap, first, more, lexeme, left, blank, notSeparator, whole, taken, rfl, rfl⟩ :=
    next?_eq_some_iff.mp step
  simp only at whole
  rw [whole, hasOpenQuote_append (hasOpenQuote_of_blank blank)] at closed
  refine ⟨next?_eq_some_iff.mpr ⟨gap, first, more ++ separator :: behind, lexeme,
    left ++ separator :: behind, blank, notSeparator, ?_, ?_, rfl, rfl⟩, ?_⟩
  · rw [whole, List.append_assoc, List.cons_append]
  · rw [splitLexeme_append_separator separates closed, taken]
  · by_cases opened : hasOpenQuote lexeme
    · have reaches := @splitLexeme_snd_of_hasOpenQuote first more
      rw [taken] at reaches
      obtain rfl : left = [] := reaches opened
      rfl
    · have rejoined := splitLexeme_append first more
      rw [taken] at rejoined
      rwa [← rejoined, hasOpenQuote_append (Bool.eq_false_iff.mpr opened)] at closed

/-- A run through a text whose quotes come in pairs is as without the separator behind it, and
goes on behind the separator where it ends, by induction on the run.
-/
theorem tokenize_append_separator (lexer : Lexer)
    (closed : hasOpenQuote lexer.rest = false) (behind : List Char)
    : (Lexer.mk (lexer.rest ++ separator :: behind) lexer.position).tokenize.1
      = lexer.tokenize.1.bind (fun tokens =>
          (Lexer.mk behind
            (lexer.position.advance (lexer.rest ++ [separator]))).tokenize.1.map
              (tokens ++ ·)) := by
  fun_induction Lexer.tokenize lexer with
  | case1 lexer step =>
      have blank : ∀ c ∈ lexer.rest ++ [separator], isSeparator c := by
        simpa [or_imp, forall_and, separates] using next?_eq_none_iff.mp step
      rw [List.append_cons, tokenize_blank_append blank]
      simp only [Except.bind, List.nil_append]
      cases (Lexer.mk behind _).tokenize.1 <;> rfl
  | case2 lexer diagnostic after step =>
      obtain ⟨same, _⟩ := next?_append_separator separates closed step behind
      rw [tokenize_eq, same]
      rfl
  | case3 lexer token after step tokens final more ih =>
      obtain ⟨same, closedAfter⟩ := next?_append_separator separates closed step behind
      obtain ⟨spaced, whole, _, _, position⟩ := next?_eq_some_ok_iff.mp step
      have samePlace
          : after.position.advance (after.rest ++ [separator])
            = lexer.position.advance (lexer.rest ++ [separator]) := by
        rw [position, whole, List.append_assoc, Position.advance_append _ spaced.text]
      have below := ih closedAfter
      rw [samePlace, more] at below
      rw [tokenize_eq, same]
      simp only [below]
      cases tokens with
      | error diagnostic => rfl
      | ok front =>
          simp only [Except.bind, Except.map]
          cases (Lexer.mk behind _).tokenize.1 <;> rfl

end

/-- Reading is compositional at separators.
Where the quotes of a text come in pairs, whatever stands behind a separator is read as a text
of its own: the first fault of the text in front comes first, then that of the text behind, and
else the tokens of both follow each other.  All that the text in front changes for the one
behind is its places.
-/
theorem tokensOf_append_separator {separator : Char}
    (separates : separator = '\n' ∨ separator = ' ' ∨ separator = '\t')
    (front behind : String) (inPairs : front.toList.count quote % 2 = 0)
    : let places := Respacing.behind (front.toList ++ [separator])
      tokensOf (front ++ String.singleton separator ++ behind)
      = match tokensOf front with
        | .error diagnostic => .error diagnostic
        | .ok tokens =>
            match tokensOf behind with
            | .error diagnostic => .error (places.diagnostic diagnostic)
            | .ok more => .ok (tokens ++ more.map places.token) := by
  intro places
  have closed : hasOpenQuote front.toList = false := by
    simp [hasOpenQuote, inPairs]
  have whole
      : Lexer.ofText (front ++ String.singleton separator ++ behind)
        = ⟨front.toList ++ separator :: behind.toList, .first⟩ := by
    simp [Lexer.ofText]
  have run := tokenize_append_separator (isSeparator_iff.mpr separates) (.ofText front) closed
    behind.toList
  have moved
      : (Lexer.mk behind.toList
            (Position.first.advance (front.toList ++ [separator]))).tokenize.1
        = ((tokensOf behind).mapError places.diagnostic).map (List.map places.token) := by
    rw [← Position.behind_first]
    exact tokenize_behind (front.toList ++ [separator]) (.ofText behind) (Int.le_refl 1)
  rw [tokensOf, whole]
  refine run.trans ?_
  change (tokensOf front).bind (fun tokens => (Lexer.mk behind.toList
    (Position.first.advance (front.toList ++ [separator]))).tokenize.1.map (tokens ++ ·)) = _
  rw [moved]
  cases tokensOf front with
  | error diagnostic => rfl
  | ok tokens => cases tokensOf behind <;> rfl

/-- Behind a text of two lines a name of two lines begins behind the last of them, and ends in
the column in which it would end by itself.
-/
theorem tokensOf_names_of_two_lines
    : let front := "FROM \"a\nb\""
      let behind := "\"c\nd\""
      let place (token : Token) :=
        (token.span.start.line, token.span.start.column,
          token.span.stop.line, token.span.stop.column)
      front.toList.count quote % 2 = 0
      ∧ (' ' = '\n' ∨ ' ' = ' ' ∨ ' ' = '\t')
      ∧ (tokensOf behind).map (List.map place) = .ok [(1, 1, 2, 3)]
      ∧ (tokensOf (front ++ String.singleton ' ' ++ behind)).map
            (fun tokens => tokens.getLast?.map place)
        = .ok (some (2, 4, 3, 3)) := by
  intro front behind place
  refine ⟨by decide, by decide, by decide +kernel, ?_⟩
  rw [tokensOf_append_separator (by decide) front behind (by decide)]
  decide +kernel

end TableQuery
