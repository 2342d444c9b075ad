import TableQuery.Catalog.Listing
import TableQuery.Proofs.Catalogs.DocumentLookups
import TableQuery.Proofs.Diagnostics.Origins
import TableQuery.Proofs.Lexing.TokenPlaces
import TableQuery.Proofs.Reading.InterruptedReading

/-! Faults that no text brings about.
Four promises between the parts of the program are checked where they are relied on.  The token
of an identifier stands for a name, so the parser always finds one.  A table is recorded before
any column is parsed, so completion always has one in the column list.  A reference that was
parsed is within the limit of names, so it is of a known form.  A document catalog has rows
wherever it lists a table.  None of the checks ever fails, and in front of an open name no
further name is open, so suggestions never miss the end of one either.
-/

namespace TableQuery

-----------------------------------------------------------------------------------------
-- Names that are never closed
-----------------------------------------------------------------------------------------

/-- Only a text with an open name is rejected for one, by induction on the run of the lexer:
the lexemes in front are closed, and the open one reaches up to the end.
-/
theorem hasOpenQuote_of_unterminatedQuote (lexer : Lexer) {lexeme : String} {span : Span}
    (rejected : lexer.tokenize.1 = .error (.unterminatedQuote lexeme span))
    : hasOpenQuote lexer.rest := by
  fun_induction Lexer.tokenize lexer with
  | case1 lexer step => cases rejected
  | case2 lexer fault after step =>
      obtain rfl := Except.error.inj rejected
      obtain ⟨gap, first, rest, taken, left, blank, _, whole, split, read, _⟩ :=
        next?_eq_some_iff.mp step
      have rejoined := splitLexeme_append first rest
      have opened : hasOpenQuote taken := by
        by_contra closed
        rw [readLexeme, if_neg closed] at read
        split at read <;> cases read
      have reaches := @splitLexeme_snd_of_hasOpenQuote first rest
      simp only [split] at rejoined reaches
      rw [whole, ← rejoined, reaches opened, List.append_nil,
        hasOpenQuote_append (hasOpenQuote_of_blank blank)]
      exact opened
  | case3 lexer token after step rest final more ih =>
      cases rest with
      | ok behind => cases rejected
      | error fault =>
          obtain rfl := Except.error.inj rejected
          obtain ⟨spaced, whole, _⟩ := next?_eq_some_ok_iff.mp step
          rw [whole, SpacedLexeme.text, List.append_assoc,
            hasOpenQuote_append (hasOpenQuote_of_blank spaced.blank),
            hasOpenQuote_append spaced.form.hasOpenQuote_eq_false]
          exact ih (congrArg Prod.fst more)

/-- No name is open in front of the open name of a typed text. -/
theorem TypedText.Splits.hasOpenQuote_complete {text : List Char} {typed : TypedText}
    (splits : Splits text typed)
    : hasOpenQuote typed.complete = false := by
  cases splits with
  | closed closed => exact closed
  | opened _ closed _ => exact closed

/-- In front of an open name the lexer rejects only lexemes that are of no kind. -/
theorem TypedText.Splits.exists_unmatchedLexeme {text : List Char} {typed : TypedText}
    (splits : Splits text typed) {diagnostic : Diagnostic}
    (rejected : tokensOf (String.ofList typed.complete) = .error diagnostic)
    : ∃ lexeme span, diagnostic = .unmatchedLexeme lexeme span := by
  have lexical := stage_of_tokenize _ rejected
  cases diagnostic with
  | unmatchedLexeme lexeme span => exact ⟨lexeme, span, rfl⟩
  | unterminatedQuote lexeme span =>
      have opened := hasOpenQuote_of_unterminatedQuote _ rejected
      rw [Lexer.ofText, String.toList_ofList, splits.hasOpenQuote_complete] at opened
      cases opened
  | unexpectedToken | unexpectedEnd | semantic | logical => cases lexical

-----------------------------------------------------------------------------------------
-- Faults of answers and of suggestions
-----------------------------------------------------------------------------------------

/-- The only reasons for which a typed text has no suggestions: a lexeme of no kind, a token
that the grammar does not have there, or a table that is not found, all in front of the open
name.
-/
inductive Catalog.PreventsSuggestions (catalog : Catalog) (typed : TypedText)
    : Diagnostic → Prop
  | unmatched {lexeme span}
    (rejected
      : tokensOf (String.ofList typed.complete) = .error (.unmatchedLexeme lexeme span))
    : PreventsSuggestions catalog typed (.unmatchedLexeme lexeme span)
  | unexpected {tokens expected found}
    (read : tokensOf (String.ofList typed.complete) = .ok tokens)
    (rejected : Statement.ofTokens? tokens = .error (.unexpectedToken expected found))
    (member : found ∈ tokens) (placed : found.span ≠ Span.endOfInput)
    : PreventsSuggestions catalog typed (.unexpectedToken expected found)
  | unresolved {tokens clause fault span}
    (read : tokensOf (String.ofList typed.complete) = .ok tokens)
    (opens : FromClause.Opens clause tokens)
    (rejected : catalog.resolve clause.table = .error (.semantic fault span))
    : PreventsSuggestions catalog typed (.semantic fault span)

/-- The parser rejects tokens for their order alone: the names that it takes are always there. -/
theorem Statement.stage_of_rejected {tokens : List Token} {diagnostic : Diagnostic}
    (rejected : ofTokens? tokens = .error diagnostic)
    : diagnostic.stage = .syntactic := by
  rcases exists_expected_of_rejected rejected with ⟨_, rfl⟩ | ⟨_, _, _, rfl⟩ <;> rfl

namespace Catalog

variable {catalog : Catalog} {text : String} {typed : TypedText} {diagnostic : Diagnostic}

/-- Suggestions fail for one of these reasons only, stage by stage. -/
theorem preventsSuggestions_of_suggest (splits : TypedText.Splits text.toList typed)
    (rejected : catalog.suggest text = .error diagnostic)
    : catalog.PreventsSuggestions typed diagnostic := by
  rw [suggest_eq_bind splits, bind_eq_error_iff] at rejected
  rcases rejected with unlexed | ⟨tokens, read, unsuggested⟩
  · obtain ⟨lexeme, span, rfl⟩ := splits.exists_unmatchedLexeme unlexed
    exact .unmatched unlexed
  rcases suggestBehind_eq_error_iff.mp unsuggested with
    ⟨unread, notEnd⟩ | ⟨_, table, columnsRead, stopped, unresolved⟩
  · rcases Statement.exists_expected_of_rejected unread with
      ⟨expected, rfl⟩ | ⟨expected, found, member, rfl⟩
    · rw [isUnexpectedEnd_unexpectedEnd] at notEnd
      cases notEnd
    · exact .unexpected read unread member (span_ne_endOfInput_of_tokensOf read found member)
  · obtain ⟨clause, rfl, opens⟩ := Statement.exists_opens_of_columns stopped
    cases rejectedFor_of_resolve opens.inLimit unresolved with
    | unknown | ambiguous => exact .unresolved read opens unresolved

/-- Whatever prevents suggestions is no internal fault, no name that is never closed, and not
the end of the tokens.
-/
theorem PreventsSuggestions.not_internal
    (prevents : catalog.PreventsSuggestions typed diagnostic)
    : diagnostic.stage ≠ .logical
      ∧ (∀ lexeme span, diagnostic ≠ .unterminatedQuote lexeme span)
      ∧ diagnostic.isUnexpectedEnd = false := by
  cases prevents with
  | unmatched | unresolved => exact ⟨nofun, nofun, rfl⟩
  | unexpected _ _ _ placed =>
      refine ⟨nofun, nofun, ?_⟩
      simp [Diagnostic.isUnexpectedEnd, Diagnostic.span?, placed]

end Catalog

/-- A statement is never rejected for an internal fault: its table is within the limit of
names, rows are found wherever a document catalog finds a table, and projection reports only
columns.
-/
theorem DocumentCatalog.stage_of_execute {documents : DocumentCatalog} {text : String}
    {diagnostic : Diagnostic} (rejected : documents.toCatalog.execute text = .error diagnostic)
    : diagnostic.stage ≠ .logical := by
  rw [Catalog.execute_eq_bind, bind_eq_error_iff] at rejected
  rcases rejected with unlexed | ⟨tokens, _, unanswered⟩
  · simp [stage_of_tokenize _ unlexed]
  rcases Catalog.answerTokens_eq_error_iff.mp unanswered with
    unread | ⟨statement, accepted, failed⟩
  · simp [Statement.stage_of_rejected unread]
  rcases Catalog.executeStatement_eq_error_iff.mp failed with
    unresolved | ⟨path, resolved, ⟨unstored, _⟩ | ⟨records, _, incomplete⟩⟩
  · have inLimit := (ofTokens?_eq_ok_iff.mp accepted).2
    cases Catalog.rejectedFor_of_resolve inLimit unresolved <;> nofun
  · obtain ⟨records, stored⟩ := (DocumentCatalog.of_resolve_eq_ok resolved).2
    rw [unstored] at stored
    cases stored
  · obtain ⟨_, _, _, _, _, _, _, _, _, _, _, rfl⟩ := project_eq_error_iff.mp incomplete
    nofun

/-- Internal faults are unreachable over document catalogs, however they were filled.
No text is answered with one, and none traces to one.  Suggestions fail only for a lexeme of no
kind, a token that the grammar does not have there, or a table that is not found: never for an
internal fault, for a name that is not closed, or because the tokens end.
-/
theorem internal_faults_unreachable (documents : DocumentCatalog) (text : String)
    : let catalog := documents.toCatalog
      (∀ diagnostic, catalog.execute text = .error diagnostic → diagnostic.stage ≠ .logical)
      ∧ (∀ diagnostic,
          (catalog.trace text).result = .error diagnostic → diagnostic.stage ≠ .logical)
      ∧ (∀ diagnostic,
          catalog.suggest text = .error diagnostic
          → diagnostic.stage ≠ .logical
            ∧ (∀ lexeme span, diagnostic ≠ .unterminatedQuote lexeme span)
            ∧ diagnostic.isUnexpectedEnd = false
            ∧ catalog.PreventsSuggestions (TypedText.ofChars text.toList) diagnostic) := by
  intro catalog
  refine ⟨fun _ => DocumentCatalog.stage_of_execute, ?_, ?_⟩
  · intro diagnostic rejected
    rw [Catalog.result_trace] at rejected
    exact DocumentCatalog.stage_of_execute rejected
  · intro diagnostic rejected
    have prevents :=
      Catalog.preventsSuggestions_of_suggest (TypedText.splits_iff.mpr rfl) rejected
    obtain ⟨notInternal, closed, notEnd⟩ := prevents.not_internal
    exact ⟨notInternal, closed, notEnd, prevents⟩

/-- Listings may name a table without rows, so they break the promise that documents keep. -/
example
    : let listing : ListingCatalog := ⟨[("shop", some [("public", some [("orders", none)])])]⟩
      (listing.toCatalog.execute "FROM \"orders\" SELECT \"id\"").map ResultSet.columns
      = .error (.logical (.missingRows ⟨"shop", "public", "orders"⟩)) := by
  decide +kernel

end TableQuery
