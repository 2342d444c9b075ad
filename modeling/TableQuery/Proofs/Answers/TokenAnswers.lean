import TableQuery.Proofs.Answers.ExecutionStages
import TableQuery.Proofs.Completion.OpenNames
import TableQuery.Proofs.Completion.StoppedCandidates

/-! What is answered and suggested for tokens, behind the lexer.
A text counts only through its tokens, and a typed text through the tokens in front of the open
name.  Every rejection comes from exactly one stage.
-/

namespace TableQuery.Catalog

variable (catalog : Catalog)

/-- The answer to tokens, wherever they come from. -/
def answerTokens (tokens : List Token) : Except Diagnostic ResultSet :=
  Statement.ofTokens? tokens >>= catalog.executeStatement

/-- The suggestions behind tokens, for a name that may be open there. -/
def suggestBehind (tokens : List Token) (openName : List Char)
    : Except Diagnostic (List String) :=
  let outcome := Statement.parse tokens
  match outcome.result with
  | .error diagnostic =>
      if diagnostic.isUnexpectedEnd then catalog.candidates outcome.context openName
      else .error diagnostic
  | .ok _ => catalog.candidates outcome.context openName

variable {catalog}

/-- A text is answered as its tokens are. -/
theorem execute_eq_bind (text : String)
    : catalog.execute text = tokensOf text >>= catalog.answerTokens :=
  rfl

/-- A typed text is completed as the tokens in front of its open name are. -/
theorem suggest_eq_bind {text : String} {typed : TypedText}
    (splits : TypedText.Splits text.toList typed)
    : catalog.suggest text
      = tokensOf (String.ofList typed.complete)
        >>= (catalog.suggestBehind · typed.openName) := by
  rw [suggest, TypedText.splits_iff.mp splits]
  rfl

/-- A trace ends with the answer to its text, stage by stage. -/
theorem result_trace (text : String) : (catalog.trace text).result = catalog.execute text := by
  rw [trace, execute_eq_bind]
  cases tokensOf text with
  | error diagnostic => rfl
  | ok tokens =>
      simp only [answerTokens, bind, Except.bind]
      cases Statement.ofTokens? tokens <;> rfl

-----------------------------------------------------------------------------------------
-- Rejections
-----------------------------------------------------------------------------------------

variable {tokens : List Token} {statement : Statement} {diagnostic : Diagnostic}

/-- A statement is rejected because its table is not found, because nothing is stored where
it was found, or because a column is missing.
-/
theorem executeStatement_eq_error_iff
    : catalog.executeStatement statement = .error diagnostic
      ↔ catalog.resolve statement.fromClause.table = .error diagnostic
        ∨ ∃ path,
            catalog.resolve statement.fromClause.table = .ok path
            ∧ (catalog.rows path = none ∧ diagnostic = .logical (.missingRows path)
              ∨ ∃ records,
                  catalog.rows path = some records
                  ∧ project records statement.selectClause.columns = .error diagnostic) := by
  rw [executeStatement, bind_eq_error_iff]
  refine or_congr_right (exists_congr fun path => and_congr_right fun _ => ?_)
  cases catalog.rows path <;> simp [eq_comm]

/-- Tokens are rejected because they are no statement, or as the statement that they are. -/
theorem answerTokens_eq_error_iff
    : catalog.answerTokens tokens = .error diagnostic
      ↔ Statement.ofTokens? tokens = .error diagnostic
        ∨ ∃ statement,
            Statement.ofTokens? tokens = .ok statement
            ∧ catalog.executeStatement statement = .error diagnostic :=
  bind_eq_error_iff

/-- Candidates are missing only where a column is awaited and the table is not found. -/
theorem candidates_eq_error_iff {progress : Progress} {openName : List Char}
    : catalog.candidates progress.context openName = .error diagnostic
      ↔ ∃ table columnsRead,
          progress = .columns table columnsRead
          ∧ catalog.resolve table = .error diagnostic := by
  cases progress with
  | fromKeyword | selectKeyword =>
      rw [candidates_outside (by rfl)]
      simp
  | table partsRead => simp [candidates_table]
  | columns table columnsRead =>
      rw [candidates_columns]
      cases resolved : catalog.resolve table <;> simp [Except.map, resolved]

/-- Nothing is suggested behind tokens that are rejected for more than their end, or that stop
in the column list of a table that is not found.
-/
theorem suggestBehind_eq_error_iff {openName : List Char}
    : catalog.suggestBehind tokens openName = .error diagnostic
      ↔ Statement.ofTokens? tokens = .error diagnostic ∧ diagnostic.isUnexpectedEnd = false
        ∨ (∀ fault, Statement.ofTokens? tokens = .error fault → fault.isUnexpectedEnd)
          ∧ ∃ table columnsRead,
              (Statement.read tokens).progress = .columns table columnsRead
              ∧ catalog.resolve table = .error diagnostic := by
  rw [← @candidates_eq_error_iff _ _ _ openName, suggestBehind, Statement.parse_eq_read,
    Statement.ofTokens?_eq_read]
  cases result : (Statement.read tokens).result with
  | ok statement => simp
  | error fault =>
      cases ended : fault.isUnexpectedEnd with
      | true =>
          have notReported : ¬ (fault = diagnostic ∧ diagnostic.isUnexpectedEnd = false) := by
            rintro ⟨rfl, reported⟩
            exact absurd ended (by simp [reported])
          simp only [Except.error.injEq, notReported, forall_eq', ended, if_true, false_or,
            true_and]
      | false =>
          have reported : fault = diagnostic → diagnostic.isUnexpectedEnd = false :=
            fun same => same ▸ ended
          simp [ended, and_iff_left_of_imp reported]

end TableQuery.Catalog
