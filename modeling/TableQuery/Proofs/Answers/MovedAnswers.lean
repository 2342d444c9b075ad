import TableQuery.Proofs.Diagnostics.Origins
import TableQuery.Proofs.Reading.MovedTokens
import TableQuery.Proofs.Reading.ReferenceSpans

/-! Answers and suggestions do not depend on the places of tokens.
Where tokens keep their order, only the places that diagnostics point at move along with them.
-/

namespace TableQuery

variable {places : Respacing}

-----------------------------------------------------------------------------------------
-- Moved statements
-----------------------------------------------------------------------------------------

theorem value_known (record : Record) (column : Identifier)
    : record.value (places.known column)
      = (record.value column).mapError places.diagnostic := by
  rw [Record.value, Record.value, Respacing.name_known]
  cases record.get? column.name <;> rfl

theorem project_known (records : List Record) (columns : List Identifier)
    : project records (columns.map places.known)
      = (project records columns).mapError places.diagnostic := by
  have names : (columns.map places.known).map TokenOf.name = columns.map TokenOf.name := by
    simp [Function.comp_def]
  simp only [project, names, List.mapM_map, Function.comp_def, value_known, mapM_mapError,
    map_mapError, ← bind_mapError]
  rfl

namespace Catalog

variable {catalog : Catalog} {reference : TableRef}

theorem resolveTable_known
    (moved : (places.reference reference).span = places.span reference.span)
    (table : Identifier)
    : catalog.resolveTable (places.reference reference) (places.known table)
      = (catalog.resolveTable reference table).mapError places.diagnostic := by
  rw [resolveTable, resolveTable, moved, Respacing.name_known]
  rcases catalog.pathsOfTable table.name with _ | ⟨path, _ | ⟨other, more⟩⟩ <;> rfl

theorem resolveInSchema_known
    (moved : (places.reference reference).span = places.span reference.span)
    (schema table : Identifier)
    : catalog.resolveInSchema (places.reference reference) (places.known schema)
        (places.known table)
      = (catalog.resolveInSchema reference schema table).mapError places.diagnostic := by
  rw [resolveInSchema, resolveInSchema, moved, Respacing.name_known, Respacing.name_known]
  rcases catalog.databases.filter (catalog.hasSchema · schema.name)
    with _ | ⟨database, _ | ⟨other, more⟩⟩
  · rfl
  · simp only
    split <;> rfl
  · rfl

theorem resolveInDatabase_known (database schema table : Identifier)
    : catalog.resolveInDatabase (places.known database) (places.known schema)
        (places.known table)
      = (catalog.resolveInDatabase database schema table).mapError places.diagnostic := by
  rw [resolveInDatabase, resolveInDatabase]
  -- Each test is decided at the moved names, so both sides take their branch by themselves.
  by_cases unknown : (catalog.schemas database.name).isNone
  · rw [if_pos unknown]
    exact if_pos unknown
  rw [if_neg unknown]
  refine (if_neg unknown).trans ?_
  by_cases unlisted : !catalog.hasSchema database.name schema.name
  · rw [if_pos unlisted]
    exact if_pos unlisted
  rw [if_neg unlisted]
  refine (if_neg unlisted).trans ?_
  by_cases missing : !catalog.hasTable database.name schema.name table.name
  · rw [if_pos missing]
    exact if_pos missing
  · rw [if_neg missing]
    exact if_neg missing

/-- A moved reference is resolved as before, if it is moved as a whole like its tokens. -/
theorem resolve_reference
    (moved : (places.reference reference).span = places.span reference.span)
    : catalog.resolve (places.reference reference)
      = (catalog.resolve reference).mapError places.diagnostic := by
  rw [resolve, resolve, Respacing.parts_reference]
  rcases reference.parts with _ | ⟨first, _ | ⟨second, _ | ⟨third, _ | ⟨fourth, more⟩⟩⟩⟩
  · rfl
  · exact resolveTable_known moved first
  · exact resolveInSchema_known moved first second
  · exact resolveInDatabase_known first second third
  · rfl

theorem executeStatement_statement {statement : Statement}
    (moved
      : (places.reference statement.fromClause.table).span
        = places.span statement.fromClause.table.span)
    : catalog.executeStatement (places.statement statement)
      = (catalog.executeStatement statement).mapError places.diagnostic := by
  have resolved : catalog.resolve (places.statement statement).fromClause.table
      = (catalog.resolve statement.fromClause.table).mapError places.diagnostic :=
    resolve_reference moved
  have columns : (places.statement statement).selectClause.columns
      = statement.selectClause.columns.map places.known :=
    rfl
  rw [executeStatement, executeStatement, resolved, columns, ← bind_mapError]
  congr 1
  funext path
  cases catalog.rows path with
  | none => rfl
  | some records => exact project_known records statement.selectClause.columns

end Catalog

-----------------------------------------------------------------------------------------
-- Moved tokens
-----------------------------------------------------------------------------------------

/-- Tokens stand in order at their old and at their new places, none of them at the end of
input.
-/
structure Respacing.Fits (places : Respacing) (tokens : List Token) : Prop where
  inOrder : TokensInOrder tokens
  inOrderMoved : TokensInOrder (tokens.map places.token)
  placed : ∀ token ∈ tokens, token.span ≠ Span.endOfInput
  placedMoved : ∀ token ∈ tokens, places.span token.span ≠ Span.endOfInput

namespace Respacing.Fits

variable {tokens : List Token} (fits : places.Fits tokens)
include fits

/-- The reference that tokens begin with is moved as a whole like its tokens: its place only
depends on its first and its last one.
-/
theorem span_reference {clause : FromClause} (opens : clause.Opens tokens)
    : (places.reference clause.table).span = places.span clause.table.span := by
  obtain ⟨last, _, isLast⟩ := clause.table.exists_last
  have inOrder := fits.inOrder.sublist opens.sublist
  have inOrderMoved : TokensInOrder (places.reference clause.table).tokens := by
    rw [tokens_reference]
    exact fits.inOrderMoved.sublist (opens.sublist.map places.token)
  have isLastMoved
      : (places.reference clause.table).tokens.getLast? = some (places.token last.token) := by
    rw [tokens_reference, List.getLast?_map, isLast]
    rfl
  rw [TableRef.span_eq inOrderMoved isLastMoved, TableRef.span_eq inOrder isLast]
  rfl

/-- Whether a reading lacks only more tokens does not depend on their places. -/
theorem isUnexpectedEnd_diagnostic {diagnostic : Diagnostic}
    (rejected : (Statement.read tokens).result = .error diagnostic)
    : (places.diagnostic diagnostic).isUnexpectedEnd = diagnostic.isUnexpectedEnd := by
  rw [← Statement.ofTokens?_eq_read] at rejected
  rcases Statement.exists_expected_of_rejected rejected with
    ⟨expected, rfl⟩ | ⟨expected, found, member, rfl⟩
  · rfl
  · have old : (some found.span == some Span.endOfInput) = false :=
      beq_false_of_ne (mt Option.some.inj (fits.placed found member))
    have new : (some (places.token found).span == some Span.endOfInput) = false :=
      beq_false_of_ne (mt Option.some.inj (fits.placedMoved found member))
    simp only [Respacing.diagnostic, Diagnostic.isUnexpectedEnd, Diagnostic.span?, old, new,
      Bool.and_false]

variable {catalog : Catalog}

/-- Moved tokens are answered as before, and rejected with moved diagnostics. -/
theorem answerTokens_map
    : catalog.answerTokens (tokens.map places.token)
      = (catalog.answerTokens tokens).mapError places.diagnostic := by
  rw [Catalog.answerTokens, Catalog.answerTokens, Statement.ofTokens?_eq_read, read_map]
  cases accepted : Statement.ofTokens? tokens with
  | error diagnostic =>
      rw [Statement.ofTokens?_eq_read] at accepted
      simp only [outcome, accepted]
      rfl
  | ok statement =>
      have moved := fits.span_reference (Statement.opens_of_ofTokens? accepted)
      rw [Statement.ofTokens?_eq_read] at accepted
      simp only [outcome, accepted]
      exact Catalog.executeStatement_statement moved

theorem candidates_progress (openName : List Char)
    : catalog.candidates (places.progress (Statement.read tokens).progress).context openName
      = (catalog.candidates (Statement.read tokens).progress.context openName).mapError
          places.diagnostic := by
  cases stopped : (Statement.read tokens).progress with
  | fromKeyword | selectKeyword => rfl
  | table partsRead =>
      have names : (partsRead.map places.reference).elim [] TableRef.names
          = partsRead.elim [] TableRef.names := by
        cases partsRead with
        | none => rfl
        | some table => exact places.names_reference table
      simp only [progress, Catalog.candidates_table, names]
      rfl
  | columns table columnsRead =>
      obtain ⟨clause, rfl, opens⟩ := Statement.exists_opens_of_columns stopped
      have resolved : catalog.resolve (places.reference clause.table)
          = (catalog.resolve clause.table).mapError places.diagnostic :=
        Catalog.resolve_reference (fits.span_reference opens)
      simp only [progress, Catalog.candidates_columns, resolved]
      cases catalog.resolve clause.table <;> rfl

/-- Behind moved tokens the same is suggested as before. -/
theorem suggestBehind_map (openName : List Char)
    : catalog.suggestBehind (tokens.map places.token) openName
      = (catalog.suggestBehind tokens openName).mapError places.diagnostic := by
  rw [Catalog.suggestBehind, Catalog.suggestBehind, Statement.parse_eq_read,
    Statement.parse_eq_read, read_map]
  have candidates := @candidates_progress places tokens fits catalog openName
  cases result : (Statement.read tokens).result with
  | ok statement =>
      simp only [outcome, result, candidates]
      rfl
  | error diagnostic =>
      have sameEnd := fits.isUnexpectedEnd_diagnostic result
      simp only [outcome, result, candidates, mapError_error, Except.map, sameEnd]
      split <;> rfl

end Respacing.Fits

end TableQuery
