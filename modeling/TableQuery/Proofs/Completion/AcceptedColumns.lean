import TableQuery.Proofs.Answers.TokenAnswers
import TableQuery.Proofs.Completion.CursorSuggestions
import TableQuery.Proofs.Lexing.LexemePrefixes
import TableQuery.Proofs.Lexing.TokenPlaces
import TableQuery.Proofs.Reading.ReadingEndings
import TableQuery.Proofs.Reading.SpelledReferences

/-! Accepting a suggested column.
A suggestion goes on from the last quote of the typed text.  The column list then grows by the
suggested name, unless that quote is glued to the lexeme in front of it or the name cannot be
spelled by an identifier.
-/

namespace TableQuery

/-- A text is read as a statement that asks a table for columns of some names. -/
def AsksFor (text : String) (table : TableRef) (names : List String) : Prop :=
  ∃ tokens statement,
    tokensOf text = .ok tokens
    ∧ Statement.ofTokens? tokens = .ok statement
    ∧ statement.fromClause.table = table
    ∧ statement.selectClause.names = names

-----------------------------------------------------------------------------------------
-- What was read in front of the open name
-----------------------------------------------------------------------------------------

/-- Where only the end of the tokens is in the way behind a statement, there are no more
tokens.
-/
theorem Statement.eq_nil_of_endingHere {statement : Statement} {rest : List Token}
    (lacksOnlyMore
      : ∀ diagnostic,
          statement.endingHere rest = .error diagnostic → diagnostic.isUnexpectedEnd)
    (placed : ∀ token ∈ rest, token.span ≠ Span.endOfInput)
    : rest = [] := by
  cases rest with
  | nil => rfl
  | cons extra behind =>
      have atEnd : extra.span = Span.endOfInput := by
        simpa [Diagnostic.isUnexpectedEnd, Diagnostic.span?, Diagnostic.stage]
          using lacksOnlyMore _ rfl
      exact absurd atEnd (placed extra List.mem_cons_self)

/-- A reading that lacks only more tokens and stops in the column list has read all tokens. -/
theorem Statement.exists_clause_of_columns {tokens : List Token} {table : TableRef}
    {columns : List Identifier} (reading : (read tokens).ReadUpTo (.columns table columns))
    (placed : ∀ token ∈ tokens, token.span ≠ Span.endOfInput)
    : ∃ clause : FromClause, ∃ keyword : TokenOf .selectKeyword,
        clause.table = table
        ∧ table.parts.length ≤ TableRef.maxParts
        ∧ tokens = clause.tokens ++ keyword.token :: columns.map TokenOf.token := by
  obtain ⟨stopped, lacksOnlyMore⟩ := reading
  have ending := ending_read tokens
  generalize read tokens = outcome at stopped lacksOnlyMore ending
  cases ending with
  | atFrom | atTable | atPart | atSelect => cases stopped
  | @atColumn clause keyword rest diagnostic whole inLimit missing =>
      obtain ⟨rfl, rfl⟩ := Progress.columns.inj stopped
      rw [whole, List.forall_mem_append, List.forall_mem_cons] at placed
      obtain rfl := eq_nil_of_isUnexpectedEnd missing (lacksOnlyMore _ rfl) placed.2.2
      exact ⟨clause, keyword, rfl, inLimit, whole⟩
  | behindColumns statement whole inLimit unnamed =>
      obtain ⟨rfl, rfl⟩ := Progress.columns.inj stopped
      rw [whole, List.forall_mem_append] at placed
      obtain rfl := eq_nil_of_endingHere lacksOnlyMore placed.2
      rw [List.append_nil] at whole
      exact ⟨statement.fromClause, statement.selectClause.keyword, rfl, inLimit, whole⟩

-----------------------------------------------------------------------------------------
-- What stands in front of the open quote
-----------------------------------------------------------------------------------------

/-- Behind laid-out lexemes the text ends in a separator exactly if some are left over. -/
theorem SpacedLexeme.getLast?_spell_append (front : List SpacedLexeme) (last : SpacedLexeme)
    {trailing : List Char} (blank : ∀ c ∈ trailing, isSeparator c)
    : (∃ c ∈ (spell (front ++ [last]) ++ trailing).getLast?, c = '\n' ∨ c = ' ' ∨ c = '\t')
      ↔ trailing ≠ [] := by
  simp only [← isSeparator_iff]
  by_cases trailingEmpty : trailing = []
  · obtain ⟨inner, c, ends, notSeparator⟩ := last.form.exists_last
    subst trailingEmpty
    simp [text, ends, notSeparator]
  · have isLast := List.getLast?_eq_some_getLast trailingEmpty
    simp [List.getLast?_append, isLast, trailingEmpty, blank]

/-- A quote that is glued to a lexeme other than a dot is not read, whatever follows it. -/
theorem not_tokensOf_of_glued {front : List SpacedLexeme} {last : SpacedLexeme}
    (notDot : last.kind ≠ .dot) (rest : List Char) (tokens : List Token)
    : tokensOf (String.ofList (SpacedLexeme.spell (front ++ [last]) ++ quote :: rest))
      ≠ .ok tokens := by
  intro read
  obtain ⟨layout, whole, rfl⟩ := tokensOf_eq_ok_iff.mp read
  rw [String.toList_ofList] at whole
  obtain ⟨more, lexemes, behind⟩ :=
    SpacedLexeme.exists_more_of_spell_append layout.blank whole.symm
  -- Any layout of the whole text goes on from the same lexemes, so the quote begins the next one.
  cases more with
  | nil =>
      have member : quote ∈ layout.trailing := by
        rw [← List.nil_append layout.trailing, ← SpacedLexeme.spell_nil, ← behind]
        exact List.mem_cons_self
      exact absurd member (quote_not_mem_of_blank layout.blank)
  | cons next more =>
      have goesOn : ¬ EndsWord (quote :: rest) := by
        intro ends
        exact absurd (ends quote rfl) (by decide)
      have apart := layout.apart
      rw [lexemes, List.append_assoc, List.isChain_append] at apart
      obtain ⟨boundary, _⟩ := (last.isChain_cons_iff (next :: more) layout.blank).mp apart.2.1
      rw [← behind] at boundary
      exact goesOn (boundary.resolve_left notDot)

-----------------------------------------------------------------------------------------
-- One more column
-----------------------------------------------------------------------------------------

/-- A lexeme with a gap may stand behind any others. -/
theorem SpacedLexeme.isChain_concat_of_gap {lexemes : List SpacedLexeme} {next : SpacedLexeme}
    (apart : lexemes.IsChain Apart) (gap : next.gap ≠ [])
    : (lexemes ++ [next]).IsChain Apart := by
  refine List.isChain_append.mpr ⟨apart, .singleton next, ?_⟩
  intro left _ right isNext
  obtain rfl := Option.some.inj isNext
  exact Or.inl gap

/-- The parts of a statement with at least one column make up the statement. -/
theorem Statement.exists_of_columns (clause : FromClause) (keyword : TokenOf .selectKeyword)
    {columns : List Identifier} (notEmpty : columns ≠ [])
    : ∃ statement : Statement,
        statement.tokens = clause.tokens ++ keyword.token :: columns.map TokenOf.token
        ∧ statement.fromClause = clause
        ∧ statement.selectClause.names = columns.map TokenOf.name := by
  obtain ⟨first, more, rfl⟩ := List.exists_cons_of_ne_nil notEmpty
  exact ⟨⟨clause, keyword, first, more⟩, rfl, rfl, rfl⟩

section

variable {lexemes : List SpacedLexeme} {clause : FromClause}
  {keyword : TokenOf .selectKeyword} {columns : List Identifier}
  (tokens
    : SpacedLexeme.tokensFrom .first lexemes
      = clause.tokens ++ keyword.token :: columns.map TokenOf.token)
include tokens

/-- The last lexeme in front of further columns is their keyword or a name, not a dot. -/
theorem exists_last_of_columns
    : ∃ front last, lexemes = front ++ [last] ∧ last.kind ≠ .dot := by
  have kinds := SpacedLexeme.map_kind_tokensFrom .first lexemes
  rw [tokens] at kinds
  rcases List.eq_nil_or_concat' lexemes with rfl | ⟨front, last, rfl⟩
  · simp at kinds
  · refine ⟨front, last, rfl, ?_⟩
    intro isDot
    have lastKind
        : ((clause.tokens ++ keyword.token :: columns.map TokenOf.token).map
            Token.kind).getLast? = some .dot := by
      rw [kinds, List.map_append, List.map_singleton, List.getLast?_concat, isDot]
    simpa using Statement.CutAt.last_kind_of_columns lastKind

/-- A quoted name behind separators becomes one more column. -/
theorem asksFor_of_spaced (inLimit : clause.table.parts.length ≤ TableRef.maxParts)
    (apart : lexemes.IsChain SpacedLexeme.Apart) {gap : List Char}
    (separators : ∀ c ∈ gap, c = '\n' ∨ c = ' ' ∨ c = '\t') (spaced : gap ≠ [])
    {name : String} (plain : quote ∉ name.toList)
    : AsksFor
        (String.ofList (SpacedLexeme.spell lexemes ++ gap ++ quote :: name.toList ++ [quote]))
        clause.table (columns.map TokenOf.name ++ [name]) := by
  let next : SpacedLexeme := {
    gap
    kind := .identifier
    lexeme := quote :: name.toList ++ [quote]
    separators
    form := .identifier plain
  }
  let column : Identifier := {
    token := next.token (Position.first.advance (SpacedLexeme.spell lexemes))
    kind_eq := rfl
  }
  have columnNamed : column.name = name := by
    simp [column, next, SpacedLexeme.token, TokenOf.name, Token.unquote]
  let layout : Layout := {
    lexemes := lexemes ++ [next]
    trailing := []
    apart := SpacedLexeme.isChain_concat_of_gap apart spaced
    separators := by simp
  }
  have whole : layout.text
      = SpacedLexeme.spell lexemes ++ gap ++ quote :: name.toList ++ [quote] := by
    simp [layout, Layout.text, next, SpacedLexeme.text]
  have grown : columns ++ [column] ≠ [] := by simp
  obtain ⟨statement, spelled, rfl, named⟩ := Statement.exists_of_columns clause keyword grown
  have accepted : Statement.ofTokens? layout.tokens = .ok statement := by
    refine ofTokens?_eq_ok_iff.mpr ⟨?_, inLimit⟩
    rw [spelled, Layout.tokens, SpacedLexeme.tokensFrom_append, tokens]
    simp [column, SpacedLexeme.tokensFrom]
  have read : tokensOf
      (String.ofList (SpacedLexeme.spell lexemes ++ gap ++ quote :: name.toList ++ [quote]))
      = .ok layout.tokens :=
    tokensOf_eq_ok_iff.mpr ⟨layout, whole.trans String.toList_ofList.symm, rfl⟩
  refine ⟨layout.tokens, statement, read, accepted, rfl, ?_⟩
  rw [named, List.map_append, List.map_singleton, columnNamed]

end

-----------------------------------------------------------------------------------------
-- Suggested columns
-----------------------------------------------------------------------------------------

namespace Catalog

variable {catalog : Catalog} {tokens : List Token} {suggestions : List String}

/-- Where there are suggestions, the tokens lack only more of them. -/
theorem readUpTo_of_suggestBehind {openName : List Char}
    (suggested : catalog.suggestBehind tokens openName = .ok suggestions)
    : (Statement.read tokens).ReadUpTo (Statement.read tokens).progress
      ∧ catalog.candidates (Statement.read tokens).progress.context openName
        = .ok suggestions := by
  rw [suggestBehind, Statement.parse_eq_read] at suggested
  split at suggested
  · rename_i diagnostic rejected
    split at suggested
    · rename_i ended
      refine ⟨⟨rfl, ?_⟩, suggested⟩
      intro fault same
      obtain rfl := Except.error.inj (rejected.symm.trans same)
      exact ended
    · cases suggested
  · rename_i statement accepted
    refine ⟨⟨rfl, ?_⟩, suggested⟩
    intro fault same
    cases accepted.symm.trans same

/-- Each suggestion in the column list is a column of the table, with a quote behind it. -/
theorem exists_column_of_mem_candidates {table : TableRef} {columns : List Identifier}
    {openName : List Char} {candidate : String}
    (listed
      : catalog.candidates (Progress.columns table columns).context openName = .ok suggestions)
    (offered : candidate ∈ suggestions)
    : ∃ path name,
        catalog.resolve table = .ok path
        ∧ name ∈ catalog.columns path
        ∧ candidate = name.push quote := by
  cases resolved : catalog.resolve table with
  | error diagnostic =>
      rw [candidates_columns, resolved] at listed
      cases listed
  | ok path =>
      rw [candidates_of_columns resolved] at listed
      obtain rfl := Except.ok.inj listed
      obtain ⟨name, kept, rfl⟩ := List.mem_map.mp offered
      exact ⟨path, name, rfl, (List.mem_filter.mp kept).1, rfl⟩

end Catalog

/-- Suggested columns can be accepted behind separators.
Where a text with an open quote can be completed in its column list, each suggestion is a
column of the table that was typed, with the closing quote.  Put behind the open quote, it
makes a statement on that table for the columns typed so far and this one exactly if a
separator stands in front of the open quote and the column can be spelled by an identifier.
-/
theorem suggested_column_accepted_iff {catalog : Catalog} {text : String}
    {before behind : List Char} {tokens : List Token} {suggestions : List String}
    {candidate : String} (opened : text.toList.count quote % 2 = 1)
    (whole : text.toList = before ++ quote :: behind) (unquoted : quote ∉ behind)
    (read : tokensOf (String.ofList before) = .ok tokens)
    (stopped : (Statement.parse tokens).context.stoppedIn = some .columnList)
    (suggested : catalog.suggest text = .ok suggestions) (offered : candidate ∈ suggestions)
    : ∃ clause : FromClause, ∃ keyword : TokenOf .selectKeyword,
      ∃ columns : List Identifier, ∃ path name,
        tokens = clause.tokens ++ keyword.token :: columns.map TokenOf.token
        ∧ (Statement.parse tokens).context.table = some clause.table
        ∧ catalog.resolve clause.table = .ok path
        ∧ name ∈ catalog.columns path
        ∧ candidate = name.push quote
        ∧ (AsksFor (String.ofList (before ++ [quote]) ++ candidate) clause.table
              (columns.map TokenOf.name ++ [name])
            ↔ (∃ c ∈ before.getLast?, c = '\n' ∨ c = ' ' ∨ c = '\t') ∧ quote ∉ name.toList) := by
  have closed : hasOpenQuote before = false := by
    have odd : hasOpenQuote text.toList = true := by
      simp [hasOpenQuote, opened]
    rwa [whole, hasOpenQuote_append_quote before unquoted, Bool.not_eq_true'] at odd
  rw [Catalog.suggest_eq_bind (.opened whole closed unquoted)] at suggested
  simp only [read, bind, Except.bind] at suggested
  obtain ⟨reading, listed⟩ := Catalog.readUpTo_of_suggestBehind suggested
  obtain ⟨table, columns, progress, parsed⟩ := Statement.exists_columns_of_stoppedIn stopped
  rw [progress] at reading listed
  obtain ⟨path, name, resolved, isColumn, rfl⟩ :=
    Catalog.exists_column_of_mem_candidates listed offered
  obtain ⟨clause, keyword, rfl, inLimit, spelled⟩ :=
    Statement.exists_clause_of_columns reading (span_ne_endOfInput_of_tokensOf read)
  refine ⟨clause, keyword, columns, path, name, spelled, parsed, resolved, isColumn, rfl, ?_⟩
  obtain ⟨⟨lexemes, gap, apart, separators⟩, laidOut, rfl⟩ := tokensOf_eq_ok_iff.mp read
  have blank : ∀ c ∈ gap, isSeparator c :=
    forall_isSeparator_iff.mpr separators
  rw [String.toList_ofList] at laidOut
  obtain ⟨front, last, rfl, notDot⟩ := exists_last_of_columns spelled
  subst laidOut
  have accepted
      : String.ofList (SpacedLexeme.spell (front ++ [last]) ++ gap ++ [quote])
          ++ name.push quote
        = String.ofList (SpacedLexeme.spell (front ++ [last]) ++ gap ++ quote :: name.toList
            ++ [quote]) := by
    simp [← String.toList_inj]
  -- A separator in front of the quote is one behind the last of the lexemes that were read.
  simp only [Layout.text, accepted, SpacedLexeme.getLast?_spell_append front last blank]
  constructor
  · rintro ⟨more, statement, readMore, _, _, named⟩
    refine ⟨?_, ?_⟩
    · rintro rfl
      rw [List.append_nil, List.append_assoc] at readMore
      exact not_tokensOf_of_glued notDot _ more readMore
    · have member : name ∈ statement.selectClause.names := named ▸ List.mem_concat_self
      obtain ⟨column, _, rfl⟩ := List.mem_map.mp member
      exact quote_not_mem_name column
  · rintro ⟨spaced, plain⟩
    exact asksFor_of_spaced spelled inLimit apart separators spaced plain

/-- A catalog of one table, with a column that no identifier can spell. -/
def pipes : DocumentCatalog :=
  DocumentCatalog.empty.insertTable ⟨"shop", "public", "pipes"⟩
    [(OrderedMap.empty.insert "id" .null).insert "5\"" (.bool true)]

/-- Behind a separator, what begins like a column can become that column. -/
theorem suggested_id_accepted
    : let text := "FROM \"pipes\" SELECT \"i"
      ∃ reference : TableRef,
        text.toList.count quote % 2 = 1
        ∧ quote ∉ ['i']
        ∧ pipes.toCatalog.suggest text = .ok ["id\""]
        ∧ reference.names = ["pipes"]
        ∧ AsksFor "FROM \"pipes\" SELECT \"id\"" reference ["id"] := by
  intro text
  let lexemes : List SpacedLexeme := [.ofFrom, .ofName true ⟨"pipes", by decide⟩, .ofSelect]
  let tokens := SpacedLexeme.tokensFrom .first lexemes
  let clause : FromClause := {
    keyword := { token := tokens[0], kind_eq := rfl }
    table := .single { token := tokens[1], kind_eq := rfl }
  }
  have apart : lexemes.IsChain SpacedLexeme.Apart :=
    SpacedLexeme.isChain_cons_of_gap (by decide)
      (SpacedLexeme.isChain_cons_of_gap (by decide) (.singleton _))
  have read : tokensOf (String.ofList (SpacedLexeme.spell lexemes ++ [' '])) = .ok tokens :=
    tokensOf_eq_ok_iff.mpr
      ⟨⟨lexemes, [' '], apart, by simp⟩, String.toList_ofList.symm, rfl⟩
  have reading : (Statement.read tokens).ReadUpTo (.columns clause.table []) :=
    Statement.read_columns clause { token := tokens[2], kind_eq := rfl } [] (by decide)
  have stopped : (Statement.parse tokens).context.stoppedIn = some .columnList := by
    rw [Statement.stoppedIn_parse, reading.progress_eq]
    rfl
  have whole : text.toList = SpacedLexeme.spell lexemes ++ [' '] ++ quote :: ['i'] := by
    decide
  have suggested : pipes.toCatalog.suggest text = .ok ["id\""] := by
    decide +kernel
  obtain ⟨parsed, keyword, columns, _, name, spelled, recorded, _, _, same, accepted⟩ :=
    suggested_column_accepted_iff (by decide) whole (by decide) read stopped suggested
      List.mem_cons_self
  have named : parsed.table = clause.table := by
    rw [Statement.table_parse, reading.progress_eq] at recorded
    exact (Option.some.inj recorded).symm
  obtain rfl : columns = [] := by
    have counted := congrArg List.length spelled
    simp [tokens, lexemes, SpacedLexeme.tokensFrom, FromClause.tokens, TableRef.tokens, named,
      clause, TableRef.single] at counted
    exact counted
  have pushed : "id".toList ++ [quote] = name.toList ++ [quote] :=
    calc
      "id".toList ++ [quote] = "id\"".toList := by decide
      _ = name.toList ++ [quote] := by rw [same, String.toList_push]
  obtain rfl := String.toList_inj.mp (List.append_cancel_right pushed)
  have grown
      : String.ofList (SpacedLexeme.spell lexemes ++ [' '] ++ [quote]) ++ "id\""
        = "FROM \"pipes\" SELECT \"id\"" := by
    rw [← String.toList_inj, String.toList_append, String.toList_ofList]
    decide
  rw [grown] at accepted
  exact ⟨parsed.table, by decide, by decide, suggested, named ▸ by decide,
    accepted.mpr ⟨⟨' ', List.getLast?_concat, Or.inr (Or.inl rfl)⟩, by decide⟩⟩

/-- Suggestions are not accepted behind a quote that is glued to the keyword, nor if they hold
a quote themselves.
-/
theorem suggested_columns_rejected
    : let glued := "FROM \"pipes\" SELECT\""
      let spaced := "FROM \"pipes\" SELECT \""
      let stoppedIn (text : String) :=
        (tokensOf text).map (fun tokens => (Statement.parse tokens).context.stoppedIn)
      (glued.toList.count quote % 2 = 1
        ∧ stoppedIn "FROM \"pipes\" SELECT" = .ok (some .columnList)
        ∧ pipes.toCatalog.suggest glued = .ok ["5\"\"", "id\""]
        ∧ ∀ table names, ¬ AsksFor (glued ++ "id\"") table names)
      ∧ spaced.toList.count quote % 2 = 1
      ∧ stoppedIn "FROM \"pipes\" SELECT " = .ok (some .columnList)
      ∧ pipes.toCatalog.suggest spaced = .ok ["5\"\"", "id\""]
      ∧ ∀ table names, ¬ AsksFor (spaced ++ "5\"\"") table names := by
  intro glued spaced stoppedIn
  have unread {text : String} (rejected : (tokensOf text).isOk = false) (table : TableRef)
      (names : List String)
      : ¬ AsksFor text table names := by
    rintro ⟨tokens, _, read, _⟩
    rw [read] at rejected
    cases rejected
  refine ⟨⟨by decide, by decide +kernel, by decide +kernel, unread (by decide +kernel)⟩,
    by decide, by decide +kernel, by decide +kernel, unread (by decide +kernel)⟩

end TableQuery
