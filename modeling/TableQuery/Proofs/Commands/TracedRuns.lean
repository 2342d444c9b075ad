import TableQuery.Command
import TableQuery.Json.Standard
import TableQuery.Proofs.Answers.TokenAnswers

/-! A traced run answers as the plain run does.
Both runs read the same text and the same catalog, and both end where the first stage fails.
The traced run prints in addition what each stage up to that one gave.
-/

namespace TableQuery

namespace Command

/-- The part of a traced run that repeats the text. -/
def statementSection (text : String) : String :=
  traceSection "STATEMENT" (text ++ "\n")

/-- The part of a traced run that shows the tokens in one line. -/
def tokensSection (tokens : List Token) : String :=
  traceSection "TOKENS" (String.intercalate " " (tokens.map Token.display) ++ "\n")

/-- The part of a traced run that draws the syntax tree. -/
def treeSection (statement : Statement) : String :=
  traceSection "SYNTAX TREE" statement.display

variable (source : TextSource) (loaded : Except LoadError DocumentCatalog)

/-- Why a run never comes to its statement: no text can be read, the text is blank, or there
is no catalog.  The text is looked at first.
-/
inductive NeverStarts : CommandError → Prop
  | unreadable {error} (failed : source.text = .error error) : NeverStarts error
  | blank {text} (read : source.text = .ok text)
    (whiteSpace : ∀ c ∈ text.toList, Text.isWhiteSpace c)
    : NeverStarts .noStatement
  | unloaded {text error} (read : source.text = .ok text)
    (notBlank : ¬ ∀ c ∈ text.toList, Text.isWhiteSpace c) (failed : loaded = .error error)
    : NeverStarts (.catalog error)

/-- What a run has when it comes to its statement. -/
structure Starts (text : String) (documents : DocumentCatalog) : Prop where
  read : source.text = .ok text
  notBlank : ¬ ∀ c ∈ text.toList, Text.isWhiteSpace c
  loaded : loaded = .ok documents

/-- What a traced run prints where it fails behind its beginning: the text, its tokens if it is
made of tokens, and the syntax tree if these are a statement.
-/
inductive SectionsUpToFailure (library : JsonLibrary) (catalog : Catalog) (text : String)
    : CommandError → String → Prop
  | unlexed {diagnostic} (failed : tokensOf text = .error diagnostic)
    : SectionsUpToFailure library catalog text (.statement diagnostic) (statementSection text)
  | unread {tokens diagnostic} (lexed : tokensOf text = .ok tokens)
    (failed : Statement.ofTokens? tokens = .error diagnostic)
    : SectionsUpToFailure library catalog text (.statement diagnostic)
        (statementSection text ++ tokensSection tokens)
  | unanswered {tokens statement diagnostic} (lexed : tokensOf text = .ok tokens)
    (accepted : Statement.ofTokens? tokens = .ok statement)
    (failed : catalog.executeStatement statement = .error diagnostic)
    : SectionsUpToFailure library catalog text (.statement diagnostic)
        (statementSection text ++ tokensSection tokens ++ treeSection statement)
  | unwritten {tokens statement result reason} (lexed : tokensOf text = .ok tokens)
    (accepted : Statement.ofTokens? tokens = .ok statement)
    (answered : catalog.executeStatement statement = .ok result)
    (failed : library.writeIndented result.toJson = .error reason)
    : SectionsUpToFailure library catalog text (.unwritten reason)
        (statementSection text ++ tokensSection tokens ++ treeSection statement)

/-- A run comes to its statement or it does not. -/
theorem exists_neverStarts_or_starts
    : (∃ error, NeverStarts source loaded error)
      ∨ ∃ text documents, Starts source loaded text documents := by
  cases read : source.text with
  | error error => exact Or.inl ⟨error, .unreadable read⟩
  | ok text =>
      by_cases blank : ∀ c ∈ text.toList, Text.isWhiteSpace c
      · exact Or.inl ⟨_, .blank read blank⟩
      · cases loaded with
        | error error => exact Or.inl ⟨_, .unloaded read blank rfl⟩
        | ok documents => exact Or.inr ⟨text, documents, read, blank, rfl⟩

variable {source loaded} {library : JsonLibrary}

/-- A run that never comes to its statement prints nothing and reports why. -/
theorem perform_run_of_neverStarts {error : CommandError}
    (never : NeverStarts source loaded error) (traced : Bool)
    : perform library (.run traced) source loaded = .failure "" error := by
  cases never with
  | unreadable failed => simp [perform, TextSource.statementText, failed, continueWith]
  | blank read whiteSpace =>
      simp [perform, TextSource.statementText, read, Text.isBlank_iff.mpr whiteSpace,
        continueWith]
  | unloaded read notBlank failed =>
      have notBlank := mt Text.isBlank_iff.mp notBlank
      simp [perform, TextSource.statementText, read, notBlank, failed, continueWith,
        Except.map, mapError_error]

/-- A run that comes to its statement answers it from the catalog. -/
theorem perform_run_of_starts {text : String} {documents : DocumentCatalog}
    (starts : Starts source loaded text documents) (traced : Bool)
    : perform library (.run traced) source loaded
      = if traced then runTraced library documents.toCatalog text
        else runPlain library documents.toCatalog text := by
  have notBlank := mt Text.isBlank_iff.mp starts.notBlank
  simp [perform, TextSource.statementText, starts.read, notBlank, starts.loaded,
    continueWith, Except.map, mapError_ok]

-----------------------------------------------------------------------------------------
-- Sections
-----------------------------------------------------------------------------------------

variable {catalog : Catalog} {text : String}

/-- The sections of a trace are those of the stages that it reached. -/
theorem traceSections_eq (text : String) (trace : Trace)
    : traceSections text trace
      = statementSection text ++ trace.tokens.elim "" tokensSection
        ++ trace.statement.elim "" treeSection :=
  rfl

/-- The trace of a rejected statement shows the stages in front of the one that failed. -/
theorem sectionsUpToFailure_trace {diagnostic : Diagnostic}
    (rejected : catalog.execute text = .error diagnostic)
    : SectionsUpToFailure library catalog text (.statement diagnostic)
        (traceSections text (catalog.trace text)) := by
  rw [traceSections_eq, Catalog.trace]
  rw [Catalog.execute_eq_bind] at rejected
  rcases bind_eq_error_iff.mp rejected with unlexed | ⟨tokens, lexed, unanswered⟩
  · have shown : SectionsUpToFailure library catalog text (.statement diagnostic) _ :=
      .unlexed unlexed
    simpa [unlexed] using shown
  rcases Catalog.answerTokens_eq_error_iff.mp unanswered with
    unread | ⟨statement, accepted, failed⟩
  · have shown : SectionsUpToFailure library catalog text (.statement diagnostic) _ :=
      .unread lexed unread
    simpa [lexed, unread] using shown
  · have shown : SectionsUpToFailure library catalog text (.statement diagnostic) _ :=
      .unanswered lexed accepted failed
    simpa [lexed, accepted] using shown

/-- The trace of an answered statement shows all stages. -/
theorem exists_sections_of_execute {result : ResultSet}
    (answered : catalog.execute text = .ok result)
    : ∃ tokens statement,
        tokensOf text = .ok tokens
        ∧ Statement.ofTokens? tokens = .ok statement
        ∧ catalog.executeStatement statement = .ok result
        ∧ traceSections text (catalog.trace text)
          = statementSection text ++ tokensSection tokens ++ treeSection statement := by
  obtain ⟨tokens, lexed, answered⟩ := bind_eq_ok_iff.mp (by rwa [← Catalog.execute_eq_bind])
  obtain ⟨statement, accepted, answered⟩ := bind_eq_ok_iff.mp answered
  refine ⟨tokens, statement, lexed, accepted, answered, ?_⟩
  simp [traceSections_eq, Catalog.trace, lexed, accepted]

/-- The last section of an answered statement has its heading on a line of its own. -/
theorem traceSection_results (content : String)
    : traceSection "RESULTS" content = "RESULTS\n\n" ++ (content ++ "\n") := by
  have heading : "RESULTS" ++ "\n\n" = "RESULTS\n\n" := by decide
  rw [← heading, ← String.append_assoc]
  rfl

end Command

/-- Of a statement without columns a traced run shows the tokens, and a plain one nothing. -/
example
    : let run := fun traced =>
        Command.perform .standard (.run traced) (.argument "FROM \"t\"") (.ok .empty)
      (run true).exitCode = 1
      ∧ (run false).stdout = ""
      ∧ (run true).stdout
        = "STATEMENT\n\nFROM \"t\"\n\nTOKENS\n\n<FROM> <ID, \"t\">\n\n" := by
  decide +kernel

end TableQuery
