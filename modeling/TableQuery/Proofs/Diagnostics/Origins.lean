import TableQuery.Proofs.Answers.TokenAnswers
import TableQuery.Proofs.Catalogs.RejectedReferences
import TableQuery.Proofs.Lexing.TokenPlaces
import TableQuery.Proofs.Reading.ReadingEndings

/-! What the diagnostics about tokens are about.
Behind the lexer a diagnostic points at a token, at a name that a token stands for, or at the
whole table reference.  So its place is always made of places of tokens.
-/

namespace TableQuery

/-- The tokens begin with a table clause within the limit and the keyword of the columns. -/
structure FromClause.Opens (clause : FromClause) (tokens : List Token) : Prop where
  whole : ∃ keyword : TokenOf .selectKeyword, ∃ behind,
    tokens = clause.tokens ++ keyword.token :: behind
  inLimit : clause.table.parts.length ≤ TableRef.maxParts

/-- What a diagnostic about tokens is about. -/
inductive Diagnostic.ArisesFrom (tokens : List Token) : Diagnostic → Prop
  | ended (expected) : ArisesFrom tokens (.unexpectedEnd expected)
  | unexpected (expected) {found} (member : found ∈ tokens)
    : ArisesFrom tokens (.unexpectedToken expected found)
  | unknown {identifier : Identifier} {fault level} (member : identifier.token ∈ tokens)
    (named : fault.unknown? = some (level, identifier.name))
    : ArisesFrom tokens (.semantic fault (some identifier.span))
  | ambiguous {clause : FromClause} {fault level} (opens : clause.Opens tokens)
    (named : fault.ambiguous? = some (level, clause.table.first.name))
    : ArisesFrom tokens (.semantic fault (some clause.table.span))
  | missingRows (path) : ArisesFrom tokens (.logical (.missingRows path))

/-- The names of a reference are among its tokens. -/
theorem TableRef.token_mem_tokens {table : TableRef} {part : Identifier}
    (member : part ∈ table.parts)
    : part.token ∈ table.tokens := by
  rcases List.mem_cons.mp member with rfl | later
  · exact List.mem_cons_self
  · obtain ⟨dotted, inMore, rfl⟩ := List.mem_map.mp later
    exact List.mem_cons_of_mem _ (List.mem_flatMap.mpr ⟨dotted, inMore, by simp⟩)

namespace FromClause.Opens

variable {clause : FromClause} {tokens : List Token}

theorem token_mem {part : Identifier} (opens : clause.Opens tokens)
    (member : part ∈ clause.table.parts)
    : part.token ∈ tokens := by
  obtain ⟨_, _, rfl⟩ := opens.whole
  exact List.mem_append_left _ (List.mem_cons_of_mem _ (TableRef.token_mem_tokens member))

/-- The tokens of the reference follow each other. -/
theorem exists_table (opens : clause.Opens tokens)
    : ∃ front back, tokens = front ++ clause.table.tokens ++ back := by
  obtain ⟨keyword, behind, whole⟩ := opens.whole
  exact ⟨[clause.keyword.token], keyword.token :: behind, whole⟩

theorem sublist (opens : clause.Opens tokens) : clause.table.tokens.Sublist tokens := by
  obtain ⟨front, back, rfl⟩ := opens.exists_table
  exact (List.sublist_append_right front _).trans (List.sublist_append_left _ back)

/-- What the table of tokens is rejected for arises from them. -/
theorem arisesFrom (opens : clause.Opens tokens) {diagnostic : Diagnostic}
    (rejected : clause.table.RejectedFor diagnostic)
    : diagnostic.ArisesFrom tokens := by
  cases rejected with
  | unknown member named => exact .unknown (opens.token_mem member) named
  | ambiguous named => exact .ambiguous opens named

end FromClause.Opens

namespace Statement

variable {tokens : List Token} {diagnostic : Diagnostic}

/-- Tokens that are read as a statement begin with its table clause. -/
theorem opens_of_ofTokens? {statement : Statement}
    (accepted : ofTokens? tokens = .ok statement)
    : statement.fromClause.Opens tokens := by
  obtain ⟨rfl, inLimit⟩ := ofTokens?_eq_ok_iff.mp accepted
  exact ⟨⟨statement.selectClause.keyword, _, rfl⟩, inLimit⟩

/-- Tokens that are read up to the columns of a table begin with its clause. -/
theorem exists_opens_of_columns {table : TableRef} {columnsRead : List Identifier}
    (stopped : (read tokens).progress = .columns table columnsRead)
    : ∃ clause : FromClause, clause.table = table ∧ clause.Opens tokens := by
  have ending := ending_read tokens
  generalize read tokens = outcome at stopped ending
  cases ending with
  | atFrom | atTable | atPart | atSelect => cases stopped
  | @atColumn clause keyword rest _ whole inLimit =>
      cases stopped
      exact ⟨clause, rfl, ⟨keyword, rest, whole⟩, inLimit⟩
  | @behindColumns statement rest whole inLimit =>
      cases stopped
      refine ⟨statement.fromClause, rfl, ⟨statement.selectClause.keyword,
        statement.selectClause.columns.map TokenOf.token ++ rest, ?_⟩, inLimit⟩
      rw [whole, Statement.tokens, List.append_assoc, SelectClause.tokens, List.cons_append]

/-- A missing kind is reported at the end, or with the token that is ahead instead. -/
theorem exists_expected_of_expect {kind : TokenKind} {rest : List Token}
    (missing : expect kind rest = .error diagnostic) (part : rest ⊆ tokens)
    : (∃ expected, diagnostic = .unexpectedEnd expected)
      ∨ ∃ expected, ∃ found ∈ tokens, diagnostic = .unexpectedToken expected found := by
  rcases expect_eq_error_iff.mp missing with ⟨_, rfl⟩ | ⟨found, behind, rfl, _, rfl⟩
  · exact Or.inl ⟨kind, rfl⟩
  · exact Or.inr ⟨_, found, part List.mem_cons_self, rfl⟩

/-- Rejected tokens lack something at their end or in place of a token, way by way. -/
theorem exists_expected_of_rejected (rejected : ofTokens? tokens = .error diagnostic)
    : (∃ expected, diagnostic = .unexpectedEnd expected)
      ∨ ∃ expected, ∃ found ∈ tokens, diagnostic = .unexpectedToken expected found := by
  rw [ofTokens?_eq_read] at rejected
  have ending := ending_read tokens
  generalize read tokens = outcome at rejected ending
  cases ending with
  | atFrom missing =>
      obtain rfl := Except.error.inj rejected
      exact exists_expected_of_expect missing (List.Subset.refl tokens)
  | atTable whole missing | atPart _ whole _ missing | atSelect _ whole _ _ missing
  | atColumn _ whole _ missing =>
      obtain rfl := Except.error.inj rejected
      exact exists_expected_of_expect missing (by simp [whole])
  | @behindColumns statement rest whole =>
      cases rest with
      | nil => cases rejected
      | cons found behind =>
          obtain rfl := Except.error.inj rejected
          exact Or.inr ⟨_, found, by simp [whole], rfl⟩

theorem arisesFrom_of_rejected (rejected : ofTokens? tokens = .error diagnostic)
    : diagnostic.ArisesFrom tokens := by
  rcases exists_expected_of_rejected rejected with
    ⟨expected, rfl⟩ | ⟨expected, found, member, rfl⟩
  · exact .ended expected
  · exact .unexpected expected member

end Statement

namespace Catalog

variable {catalog : Catalog} {tokens : List Token} {diagnostic : Diagnostic}

/-- Whatever tokens are rejected for arises from them, stage by stage. -/
theorem arisesFrom_of_answerTokens (rejected : catalog.answerTokens tokens = .error diagnostic)
    : diagnostic.ArisesFrom tokens := by
  rcases answerTokens_eq_error_iff.mp rejected with unread | ⟨statement, accepted, failed⟩
  · exact Statement.arisesFrom_of_rejected unread
  have opens := Statement.opens_of_ofTokens? accepted
  rcases executeStatement_eq_error_iff.mp failed with
    unresolved | ⟨path, _, ⟨_, rfl⟩ | ⟨records, _, incomplete⟩⟩
  · exact opens.arisesFrom (rejectedFor_of_resolve opens.inLimit unresolved)
  · exact .missingRows path
  · obtain ⟨_, _, _, _, column, _, _, _, columns, _, _, rfl⟩ :=
      project_eq_error_iff.mp incomplete
    have spelled := (ofTokens?_eq_ok_iff.mp accepted).1
    have member : column.token ∈ tokens := by
      simp [← spelled, Statement.tokens, SelectClause.tokens, columns]
    exact .unknown member rfl

/-- Whatever prevents suggestions arises from the tokens in front of the open name. -/
theorem arisesFrom_of_suggestBehind {openName : List Char}
    (rejected : catalog.suggestBehind tokens openName = .error diagnostic)
    : diagnostic.ArisesFrom tokens := by
  rcases suggestBehind_eq_error_iff.mp rejected with
    ⟨unread, _⟩ | ⟨_, table, columnsRead, stopped, unresolved⟩
  · exact Statement.arisesFrom_of_rejected unread
  · obtain ⟨clause, rfl, opens⟩ := Statement.exists_opens_of_columns stopped
    exact opens.arisesFrom (rejectedFor_of_resolve opens.inLimit unresolved)

end Catalog

end TableQuery
