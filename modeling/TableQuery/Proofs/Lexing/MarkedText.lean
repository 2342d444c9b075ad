import TableQuery.Proofs.Lexing.ItemSpans
import TableQuery.Proofs.Lexing.TokenPlaces

/-! Which stretch of a text the places of its tokens mark.
A rejected lexeme marks itself.  The tokens of a text mark what was laid out for them, also
several of them from the first to the last, with the separators in between.
-/

namespace TableQuery

namespace Span

/-- A span marks a stretch of a text that is not empty: it reaches from the place where the
stretch begins to the place where it ends.
-/
structure Marks (text stretch : List Char) (span : Span) : Prop where
  notEmpty : stretch ≠ []
  placed
    : ∃ before after,
        text = before ++ stretch ++ after
        ∧ span = {
            start := Position.first.advance before
            stop := Position.first.advance (before ++ stretch)
          }

variable {text stretch : List Char} {span : Span}

theorem Marks.covers (marks : span.Marks text stretch) : span.Covers text stretch := by
  obtain ⟨before, after, rfl, rfl⟩ := marks.placed
  exact covers_advance before marks.notEmpty after

/-- What is marked in the beginning of a text is marked in all of it. -/
theorem Marks.of_prefix {front : List Char} (marks : span.Marks front stretch)
    (part : front <+: text)
    : span.Marks text stretch := by
  obtain ⟨behind, rfl⟩ := part
  obtain ⟨before, after, rfl, rfl⟩ := marks.placed
  exact ⟨marks.notEmpty, before, after ++ behind, by simp, rfl⟩

end Span

-----------------------------------------------------------------------------------------
-- Rejected lexemes
-----------------------------------------------------------------------------------------

/-- The lexeme that ends a run of the lexer is marked in the text, by induction on the run. -/
theorem Lexer.StandsIn.exists_marks_of_tokenize {text read : List Char} {lexer : Lexer}
    (stands : lexer.StandsIn text read) {diagnostic : Diagnostic}
    (rejected : lexer.tokenize.1 = .error diagnostic)
    : ∃ lexeme span,
        LexedItem.Shows (String.ofList lexeme) (.error diagnostic)
        ∧ diagnostic.span? = some span
        ∧ span.Marks text lexeme := by
  fun_induction Lexer.tokenize lexer generalizing read with
  | case1 lexer step => cases rejected
  | case2 lexer fault after step =>
      obtain rfl := Except.error.inj rejected
      obtain ⟨gap, lexeme, _, notEmpty, shown, placed, standsAfter⟩ := stands.step step
      exact ⟨lexeme, _, shown, placed, notEmpty, read ++ gap, after.rest, standsAfter.whole,
        rfl⟩
  | case3 lexer token after step rest final more ih =>
      cases rest with
      | ok behind => cases rejected
      | error fault =>
          obtain rfl := Except.error.inj rejected
          obtain ⟨_, _, _, _, _, _, standsAfter⟩ := stands.step step
          exact ih standsAfter (congrArg Prod.fst more)

-----------------------------------------------------------------------------------------
-- Tokens
-----------------------------------------------------------------------------------------

namespace SpacedLexeme

/-- Tokens that come apart come from lexemes that come apart, by induction over the front. -/
theorem exists_append_of_tokensFrom {position : Position} {lexemes : List SpacedLexeme}
    {front back : List Token} (split : tokensFrom position lexemes = front ++ back)
    : ∃ left right,
        lexemes = left ++ right
        ∧ tokensFrom position left = front
        ∧ tokensFrom (position.advance (spell left)) right = back := by
  induction front generalizing position lexemes with
  | nil => exact ⟨[], lexemes, rfl, rfl, split⟩
  | cons token front ih =>
      cases lexemes with
      | nil => cases split
      | cons spaced more =>
          obtain ⟨rfl, below⟩ := List.cons.inj split
          obtain ⟨left, right, rfl, rfl, rfl⟩ := ih below
          refine ⟨spaced :: left, right, rfl, rfl, ?_⟩
          rw [spell_cons, Position.advance_append]

/-- The last of several tokens ends where their text ends, by induction over the lexemes. -/
theorem stop_of_getLast?_tokensFrom {position : Position} {lexemes : List SpacedLexeme}
    {last : Token} (isLast : (tokensFrom position lexemes).getLast? = some last)
    : last.span.stop = position.advance (spell lexemes) := by
  induction lexemes generalizing position with
  | nil => cases isLast
  | cons spaced more ih =>
      rw [spell_cons, Position.advance_append]
      cases more with
      | nil =>
          obtain rfl := Option.some.inj isLast
          rfl
      | cons next rest =>
          rw [tokensFrom, tokensFrom, List.getLast?_cons_cons] at isLast
          exact ih isLast

end SpacedLexeme

/-- The text of tokens: the lexeme of the first one, and the others with the separators in
front of them.
-/
inductive SpelledBy : List Token → List Char → Prop
  | intro {first : Token} {more : List Token} {spaced : List SpacedLexeme}
    (same
      : spaced.map (fun lexeme => (lexeme.kind, lexeme.lexeme))
        = more.map (fun token => (token.kind, token.lexeme.toList)))
    : SpelledBy (first :: more) (first.lexeme.toList ++ SpacedLexeme.spell spaced)

/-- Tokens that follow each other mark their text from the first to the last of them. -/
theorem Layout.exists_marks {layout : Layout} {front more back : List Token}
    {first last : Token} (split : layout.tokens = front ++ first :: more ++ back)
    (isLast : (first :: more).getLast? = some last)
    : ∃ stretch,
        SpelledBy (first :: more) stretch
        ∧ Span.Marks layout.text stretch { start := first.span.start, stop := last.span.stop }
    := by
  obtain ⟨part, right, lexemes, inFront, _⟩ := SpacedLexeme.exists_append_of_tokensFrom split
  obtain ⟨left, middle, rfl, _, found⟩ := SpacedLexeme.exists_append_of_tokensFrom inFront
  cases middle with
  | nil => cases found
  | cons spaced rest =>
      have stop := SpacedLexeme.stop_of_getLast?_tokensFrom (found ▸ isLast)
      obtain ⟨rfl, rfl⟩ := List.cons.inj found
      refine ⟨_, .intro (SpacedLexeme.map_tokensFrom Prod.mk _ rest).symm, ?_, ?_⟩
      · simp [SpacedLexeme.token, spaced.lexeme_ne_nil]
      · refine ⟨SpacedLexeme.spell left ++ spaced.gap,
          SpacedLexeme.spell right ++ layout.trailing, ?_, ?_⟩
        · simp [Layout.text, lexemes, SpacedLexeme.text, SpacedLexeme.token]
        · rw [stop]
          simp [SpacedLexeme.text, SpacedLexeme.token]

/-- Each token of a text marks its lexeme. -/
theorem Layout.marks_of_mem {layout : Layout} {token : Token} (member : token ∈ layout.tokens)
    : token.span.Marks layout.text token.lexeme.toList := by
  obtain ⟨front, back, split⟩ := List.append_of_mem member
  rw [List.append_cons] at split
  obtain ⟨_, ⟨none⟩, marks⟩ := layout.exists_marks split rfl
  obtain rfl := List.map_eq_nil_iff.mp none
  rwa [SpacedLexeme.spell_nil, List.append_nil] at marks

end TableQuery
