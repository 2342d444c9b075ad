import TableQuery.Proofs.Reading.StoppedReferences

/-! How the reading of a statement ends.
Each rule of the reader either fails at the token that it lacks, or has taken its own tokens
and leaves the others to the next rule.  So a reading ends in one of six ways, which say both
what was read and what was found behind it.
-/

namespace TableQuery.Statement

/-- The ways in which a reading of tokens ends: a keyword, a name of the table or the first
column is missing, or a whole statement has been read and no name follows it.
-/
inductive Ending (tokens : List Token) : Outcome → Prop
  | atFrom {diagnostic} (missing : expect .fromKeyword tokens = .error diagnostic)
    : Ending tokens ⟨.error diagnostic, .fromKeyword⟩
  | atTable {keyword : TokenOf .fromKeyword} {rest diagnostic}
    (whole : tokens = keyword.token :: rest)
    (missing : expect .identifier rest = .error diagnostic)
    : Ending tokens ⟨.error diagnostic, .table none⟩
  | atPart (clause : FromClause) {dot : TokenOf .dot} {rest diagnostic}
    (whole : tokens = clause.tokens ++ dot.token :: rest)
    (inLimit : clause.table.parts.length < TableRef.maxParts)
    (missing : expect .identifier rest = .error diagnostic)
    : Ending tokens ⟨.error diagnostic, .table (some clause.table)⟩
  | atSelect (clause : FromClause) {rest diagnostic} (whole : tokens = clause.tokens ++ rest)
    (inLimit : clause.table.parts.length ≤ TableRef.maxParts)
    (undotted : clause.table.parts.length = TableRef.maxParts ∨ LacksAhead .dot rest)
    (missing : expect .selectKeyword rest = .error diagnostic)
    : Ending tokens ⟨.error diagnostic, .selectKeyword clause.table⟩
  | atColumn (clause : FromClause) {keyword : TokenOf .selectKeyword} {rest diagnostic}
    (whole : tokens = clause.tokens ++ keyword.token :: rest)
    (inLimit : clause.table.parts.length ≤ TableRef.maxParts)
    (missing : expect .identifier rest = .error diagnostic)
    : Ending tokens ⟨.error diagnostic, .columns clause.table []⟩
  | behindColumns (statement : Statement) {rest} (whole : tokens = statement.tokens ++ rest)
    (inLimit : statement.fromClause.table.parts.length ≤ TableRef.maxParts)
    (unnamed : LacksAhead .identifier rest)
    : Ending tokens ⟨statement.endingHere rest,
        .columns statement.fromClause.table statement.selectClause.columns⟩

/-- Every reading ends in one of these ways, rule by rule. -/
theorem ending_read (tokens : List Token) : Ending tokens (read tokens) := by
  rw [read]
  split
  · rename_i diagnostic missing
    exact .atFrom missing
  rename_i fromKeyword afterFrom fromTaken
  obtain rfl := expect_eq_ok_iff.mp fromTaken
  split
  · rename_i diagnostic partsRead stopped
    rcases TableRef.exists_missing_of_read stopped with
      ⟨rfl, missing⟩ | ⟨table, dot, rest, inLimit, rfl, rfl, missing⟩
    · exact .atTable rfl missing
    · exact .atPart ⟨fromKeyword, table⟩ rfl inLimit missing
  rename_i table afterTable tableTaken
  obtain ⟨inLimit, undotted, rfl⟩ := TableRef.eq_tokens_append_of_read tableTaken
  split
  · rename_i diagnostic missing
    exact .atSelect ⟨fromKeyword, table⟩ rfl inLimit undotted missing
  rename_i selectKeyword afterSelect selectTaken
  obtain rfl := expect_eq_ok_iff.mp selectTaken
  split
  · rename_i diagnostic missing
    exact .atColumn ⟨fromKeyword, table⟩ rfl inLimit missing
  rename_i first afterFirst firstTaken
  obtain rfl := expect_eq_ok_iff.mp firstTaken
  have unnamed := lacksAhead_splitIdentifiers afterFirst
  have columnTokens := splitIdentifiers_join afterFirst
  obtain ⟨⟨more, after⟩, columnsTaken⟩ : ∃ columns, splitIdentifiers afterFirst = columns :=
    ⟨_, rfl⟩
  rw [columnsTaken] at unnamed columnTokens ⊢
  refine .behindColumns ⟨⟨fromKeyword, table⟩, ⟨selectKeyword, first, more⟩⟩ ?_ inLimit unnamed
  rw [← columnTokens]
  simp [tokens, FromClause.tokens, SelectClause.tokens, SelectClause.columns]

end TableQuery.Statement
