import TableQuery.Proofs.Reading.ReadingSteps

/-! The reader accepts exactly the token lists of the statement grammar and loses no token.
The grammar is stated over kinds alone; a token list whose kinds follow it is put together
into the one statement that it spells.
-/

namespace TableQuery

/-- The kinds of a table clause: the keyword, a name and at most two more behind dots. -/
def TableKinds (kinds : List TokenKind) : Prop :=
  ∃ dotted ≤ 2,
    kinds
      = [.fromKeyword, .identifier]
        ++ (List.replicate dotted [TokenKind.dot, TokenKind.identifier]).flatten

/-- The kinds of a column clause: the keyword and one or more names. -/
def ColumnKinds (kinds : List TokenKind) : Prop :=
  ∃ more, kinds = [.selectKeyword, .identifier] ++ List.replicate more .identifier

/-- The kinds of a statement: a table clause, a column clause, and nothing behind them. -/
def StatementKinds (kinds : List TokenKind) : Prop :=
  ∃ front back, TableKinds front ∧ ColumnKinds back ∧ kinds = front ++ back

-----------------------------------------------------------------------------------------
-- From kinds to clauses
-----------------------------------------------------------------------------------------

theorem exists_token_of_map_kind {kind : TokenKind} {kinds : List TokenKind}
    {tokens : List Token} (spelled : tokens.map Token.kind = kind :: kinds)
    : ∃ (known : TokenOf kind) (rest : List Token),
        tokens = known.token :: rest ∧ rest.map Token.kind = kinds := by
  obtain ⟨token, rest, rfl, kind_eq, below⟩ := List.map_eq_cons_iff.mp spelled
  exact ⟨⟨token, kind_eq⟩, rest, rfl, below⟩

theorem exists_identifiers_of_map_kind {count : Nat} {tokens : List Token}
    (spelled : tokens.map Token.kind = List.replicate count .identifier)
    : ∃ identifiers : List Identifier, tokens = identifiers.map TokenOf.token := by
  induction count generalizing tokens with
  | zero => exact ⟨[], List.map_eq_nil_iff.mp spelled⟩
  | succ count ih =>
      obtain ⟨known, rest, rfl, below⟩ := exists_token_of_map_kind spelled
      obtain ⟨identifiers, rfl⟩ := ih below
      exact ⟨known :: identifiers, rfl⟩

theorem exists_dotted_of_map_kind {count : Nat} {tokens : List Token}
    (spelled
      : tokens.map Token.kind
        = (List.replicate count [TokenKind.dot, TokenKind.identifier]).flatten)
    : ∃ more : List DottedPart, more.length = count ∧ tokens = dottedTokens more := by
  induction count generalizing tokens with
  | zero => exact ⟨[], rfl, List.map_eq_nil_iff.mp spelled⟩
  | succ count ih =>
      obtain ⟨dot, behind, rfl, afterDot⟩ := exists_token_of_map_kind spelled
      obtain ⟨part, rest, rfl, below⟩ := exists_token_of_map_kind afterDot
      obtain ⟨more, rfl, rfl⟩ := ih below
      exact ⟨⟨dot, part⟩ :: more, rfl, rfl⟩

/-- Tokens of a table clause's kinds are those of a clause with as many names behind dots. -/
theorem exists_fromClause_of_map_kind {dotted : Nat} {tokens : List Token}
    (spelled
      : tokens.map Token.kind
        = [.fromKeyword, .identifier]
          ++ (List.replicate dotted [TokenKind.dot, TokenKind.identifier]).flatten)
    : ∃ clause : FromClause,
        clause.tokens = tokens ∧ clause.table.parts.length = dotted + 1 := by
  obtain ⟨keyword, behind, rfl, afterKeyword⟩ := exists_token_of_map_kind spelled
  obtain ⟨first, rest, rfl, below⟩ := exists_token_of_map_kind afterKeyword
  obtain ⟨more, rfl, rfl⟩ := exists_dotted_of_map_kind below
  exact ⟨{ keyword, table := { first, more } }, rfl, TableRef.length_parts _⟩

/-- Tokens of the kinds of a table clause are those of a clause within the limit. -/
theorem TableKinds.exists_clause {tokens : List Token}
    (kinds : TableKinds (tokens.map Token.kind))
    : ∃ clause : FromClause,
        clause.tokens = tokens ∧ clause.table.parts.length ≤ TableRef.maxParts := by
  obtain ⟨dotted, bounded, spelled⟩ := kinds
  obtain ⟨clause, same, count⟩ := exists_fromClause_of_map_kind spelled
  refine ⟨clause, same, ?_⟩
  rw [count]
  exact Nat.succ_le_succ bounded

/-- Tokens of the kinds of a column clause are those of a clause. -/
theorem ColumnKinds.exists_clause {tokens : List Token}
    (kinds : ColumnKinds (tokens.map Token.kind))
    : ∃ clause : SelectClause, clause.tokens = tokens := by
  obtain ⟨count, spelled⟩ := kinds
  obtain ⟨keyword, behind, rfl, afterKeyword⟩ := exists_token_of_map_kind spelled
  obtain ⟨first, rest, rfl, below⟩ := exists_token_of_map_kind afterKeyword
  obtain ⟨more, rfl⟩ := exists_identifiers_of_map_kind below
  exact ⟨{ keyword, first, more }, rfl⟩

-----------------------------------------------------------------------------------------
-- From clauses to kinds
-----------------------------------------------------------------------------------------

@[simp]
theorem map_kind_identifiers (identifiers : List Identifier)
    : (identifiers.map TokenOf.token).map Token.kind
      = List.replicate identifiers.length .identifier := by
  simp [List.eq_replicate_iff, TokenOf.kind_eq]

@[simp]
theorem map_kind_dottedTokens (more : List DottedPart)
    : (dottedTokens more).map Token.kind
      = (List.replicate more.length [TokenKind.dot, TokenKind.identifier]).flatten := by
  induction more with
  | nil => rfl
  | cons dotted more ih =>
      simp only [dottedTokens, List.flatMap_cons, List.map_append] at ih ⊢
      rw [ih]
      simp [List.replicate_succ, TokenOf.kind_eq]

theorem FromClause.map_kind_tokens (clause : FromClause)
    : clause.tokens.map Token.kind
      = [.fromKeyword, .identifier]
        ++ (List.replicate clause.table.more.length
            [TokenKind.dot, TokenKind.identifier]).flatten := by
  change _ :: _ :: (dottedTokens clause.table.more).map Token.kind = _
  rw [map_kind_dottedTokens, TokenOf.kind_eq, TokenOf.kind_eq]
  rfl

theorem FromClause.tableKinds (clause : FromClause)
    (bounded : clause.table.parts.length ≤ TableRef.maxParts)
    : TableKinds (clause.tokens.map Token.kind) := by
  rw [TableRef.length_parts, TableRef.maxParts] at bounded
  exact ⟨clause.table.more.length, Nat.le_of_succ_le_succ bounded, clause.map_kind_tokens⟩

theorem SelectClause.columnKinds (clause : SelectClause)
    : ColumnKinds (clause.tokens.map Token.kind) := by
  refine ⟨clause.more.length, ?_⟩
  change _ :: (clause.columns.map TokenOf.token).map Token.kind = _
  rw [map_kind_identifiers, TokenOf.kind_eq]
  rfl

/-- A statement is read from exactly its own tokens, if its table reference is within the
limit.  Each rule takes the tokens of its part, and nothing is left behind the last one.
-/
theorem ofTokens?_eq_ok_iff {tokens : List Token} {statement : Statement}
    : Statement.ofTokens? tokens = .ok statement
      ↔ statement.tokens = tokens
        ∧ statement.fromClause.table.parts.length ≤ TableRef.maxParts := by
  constructor
  · intro accepted
    rw [Statement.ofTokens?_eq_read, Statement.read] at accepted
    split at accepted
    · cases accepted
    rename_i fromKeyword afterFrom fromTaken
    split at accepted
    · cases accepted
    rename_i table afterTable tableTaken
    split at accepted
    · cases accepted
    rename_i selectKeyword afterSelect selectTaken
    split at accepted
    · cases accepted
    rename_i first afterFirst firstTaken
    obtain ⟨bounded, _, tableTokens⟩ := TableRef.eq_tokens_append_of_read tableTaken
    have columnTokens := splitIdentifiers_join afterFirst
    obtain ⟨⟨more, after⟩, columnsTaken⟩ : ∃ columns, splitIdentifiers afterFirst = columns :=
      ⟨_, rfl⟩
    rw [columnsTaken] at accepted columnTokens
    cases after with
    | nil =>
        obtain rfl := Except.ok.inj accepted
        rw [expect_eq_ok_iff.mp fromTaken, tableTokens, expect_eq_ok_iff.mp selectTaken,
          expect_eq_ok_iff.mp firstTaken, ← columnTokens]
        refine ⟨?_, bounded⟩
        simp [Statement.tokens, FromClause.tokens, SelectClause.tokens, SelectClause.columns]
    | cons extra _ => cases accepted
  · intro spelled
    obtain ⟨rfl, bounded⟩ := spelled
    obtain ⟨⟨fromKeyword, table⟩, ⟨selectKeyword, first, more⟩⟩ := statement
    have tableTaken := table.read_tokens_append
      (selectKeyword.token :: first.token :: more.map TokenOf.token) bounded
      (Or.inr (lacksAhead_token selectKeyword _ (by decide)))
    have columnsTaken := splitIdentifiers_append more [] (by simp [LacksAhead])
    rw [List.append_nil] at columnsTaken
    simp [Statement.ofTokens?_eq_read, Statement.read, Statement.tokens, FromClause.tokens,
      SelectClause.tokens, SelectClause.columns, tableTaken, columnsTaken,
      Statement.endingHere]

/-- Only identifiers stand for a name. -/
theorem name?_eq_none {kind : TokenKind} (known : TokenOf kind) (other : kind ≠ .identifier)
    : known.token.name? = none := by
  cases kind with
  | identifier => exact absurd rfl other
  | selectKeyword | fromKeyword | dot => simp [Token.name?, known.kind_eq]

@[simp]
theorem filterMap_name?_identifiers (identifiers : List Identifier)
    : (identifiers.map TokenOf.token).filterMap Token.name?
      = identifiers.map TokenOf.name := by
  have named : Token.name? ∘ @TokenOf.token .identifier = some ∘ TokenOf.name :=
    funext TokenOf.name?_token
  rw [List.filterMap_map, named, List.filterMap_eq_map]

@[simp]
theorem filterMap_name?_dottedTokens (more : List DottedPart)
    : (dottedTokens more).filterMap Token.name?
      = more.map (fun dotted => dotted.part.name) := by
  induction more with
  | nil => rfl
  | cons dotted more ih =>
      have dotNameless := name?_eq_none dotted.dot (by decide)
      simp only [dottedTokens, List.flatMap_cons, List.filterMap_append] at ih ⊢
      rw [ih]
      simp [dotNameless, TokenOf.name?_token]

theorem FromClause.filterMap_name?_tokens (clause : FromClause)
    : clause.tokens.filterMap Token.name? = clause.table.names := by
  have keywordNameless := name?_eq_none clause.keyword (by decide)
  change (_ :: _ :: dottedTokens clause.table.more).filterMap Token.name? = _
  simp [keywordNameless, TokenOf.name?_token, TableRef.names, TableRef.parts,
    Function.comp_def]

theorem SelectClause.filterMap_name?_tokens (clause : SelectClause)
    : clause.tokens.filterMap Token.name? = clause.names := by
  have keywordNameless := name?_eq_none clause.keyword (by decide)
  rw [tokens, List.filterMap_cons_none keywordNameless, filterMap_name?_identifiers, names]

/-- A token list is read as a statement exactly if its kinds follow the grammar, and the
statement is the one of at most three table names whose own tokens are the given ones, places
included.  Its names are those that the identifiers of each clause stand for, in source order.
-/
theorem ofTokens?_accepts_grammar
    : (∀ tokens : List Token,
        (∃ statement, Statement.ofTokens? tokens = .ok statement)
          ↔ StatementKinds (tokens.map Token.kind))
      ∧ (∀ (tokens : List Token) (statement : Statement),
          Statement.ofTokens? tokens = .ok statement
            ↔ statement.tokens = tokens
              ∧ statement.fromClause.table.parts.length ≤ TableRef.maxParts)
      ∧ ∀ statement : Statement,
          statement.tokens = statement.fromClause.tokens ++ statement.selectClause.tokens
          ∧ statement.fromClause.table.names
            = statement.fromClause.tokens.filterMap Token.name?
          ∧ statement.selectClause.names
            = statement.selectClause.tokens.filterMap Token.name? := by
  refine ⟨fun tokens => ⟨?_, ?_⟩, fun _ _ => ofTokens?_eq_ok_iff, ?_⟩
  · intro ⟨statement, accepted⟩
    obtain ⟨rfl, bounded⟩ := ofTokens?_eq_ok_iff.mp accepted
    exact ⟨_, _, statement.fromClause.tableKinds bounded, statement.selectClause.columnKinds,
      List.map_append⟩
  · intro ⟨front, back, table, columns, spelled⟩
    obtain ⟨fromTokens, selectTokens, rfl, rfl, rfl⟩ := List.map_eq_append_iff.mp spelled
    obtain ⟨fromClause, rfl, bounded⟩ := table.exists_clause
    obtain ⟨selectClause, rfl⟩ := columns.exists_clause
    exact ⟨{ fromClause, selectClause }, ofTokens?_eq_ok_iff.mpr ⟨rfl, bounded⟩⟩
  · intro statement
    exact ⟨rfl, statement.fromClause.filterMap_name?_tokens.symm,
      statement.selectClause.filterMap_name?_tokens.symm⟩

end TableQuery
