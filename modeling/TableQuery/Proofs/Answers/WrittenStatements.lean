import TableQuery.Json.Writer
import TableQuery.Proofs.Answers.ExecutionStages
import TableQuery.Proofs.Catalogs.DocumentLookups
import TableQuery.Proofs.Catalogs.RejectedReferences
import TableQuery.Proofs.Lexing.LayoutRecognition
import TableQuery.Proofs.Reading.StatementGrammar

/-! Statements written from names are answered with what the catalog stores under them.
The written text is the text of a layout, so it is read back as the names it was written from,
whatever characters they hold besides quotes.
-/

namespace TableQuery

/-- A name as an identifier spells it. -/
def writtenName (name : String) : String :=
  "\"" ++ name ++ "\""

/-- The statement that asks for columns of a table. -/
def writtenStatement (table columns : List String) : String :=
  "FROM " ++ String.intercalate "." (table.map writtenName)
    ++ " SELECT " ++ String.intercalate " " (columns.map writtenName)

/-- A name that an identifier can spell. -/
abbrev PlainName := { name : String // quote ∉ name.toList }

-----------------------------------------------------------------------------------------
-- The layout of a written statement
-----------------------------------------------------------------------------------------

namespace SpacedLexeme

/-- The separators between the parts of a written statement, where there are any. -/
def space (present : Bool) : List Char :=
  if present then [' '] else []

theorem separators_space (present : Bool)
    : ∀ c ∈ space present, c = '\n' ∨ c = ' ' ∨ c = '\t' := by
  cases present <;> simp [space]

def ofFrom : SpacedLexeme where
  gap := space false
  kind := .fromKeyword
  lexeme := ['F', 'R', 'O', 'M']
  separators := separators_space false
  form := .fromKeyword (by simp [SpelledInAnyCase])

def ofSelect : SpacedLexeme where
  gap := space true
  kind := .selectKeyword
  lexeme := ['S', 'E', 'L', 'E', 'C', 'T']
  separators := separators_space true
  form := .selectKeyword (by simp [SpelledInAnyCase])

def ofDot : SpacedLexeme where
  gap := space false
  kind := .dot
  lexeme := ['.']
  separators := separators_space false
  form := .dot

def ofName (spaced : Bool) (name : PlainName) : SpacedLexeme where
  gap := space spaced
  kind := .identifier
  lexeme := quote :: name.val.toList ++ [quote]
  separators := separators_space spaced
  form := .identifier name.property

/-- The lexemes of a table clause. -/
def ofTable (first : PlainName) (more : List PlainName) : List SpacedLexeme :=
  ofFrom :: ofName true first :: more.flatMap (fun name => [ofDot, ofName false name])

/-- The lexemes of a column clause. -/
def ofColumns (columns : List PlainName) : List SpacedLexeme :=
  ofSelect :: columns.map (ofName true)

/-- A lexeme with a gap may stand behind any other. -/
theorem isChain_cons_of_gap {left right : SpacedLexeme} {more : List SpacedLexeme}
    (gap : right.gap ≠ []) (apart : (right :: more).IsChain Apart)
    : (left :: right :: more).IsChain Apart :=
  List.isChain_cons_cons.mpr ⟨Or.inl gap, apart⟩

theorem isChain_ofColumns (last : SpacedLexeme) (columns : List PlainName)
    : (last :: ofColumns columns).IsChain Apart := by
  have names (left : SpacedLexeme) : (left :: columns.map (ofName true)).IsChain Apart := by
    induction columns generalizing left with
    | nil => exact .singleton left
    | cons name columns ih =>
        exact isChain_cons_of_gap (by simp [ofName, space]) (ih (ofName true name))
  exact isChain_cons_of_gap (by decide) (names ofSelect)

theorem isChain_ofTable (first : PlainName) (more columns : List PlainName)
    : (ofTable first more ++ ofColumns columns).IsChain Apart := by
  have dotted (left : SpacedLexeme)
      : (left :: more.flatMap (fun name => [ofDot, ofName false name])
          ++ ofColumns columns).IsChain Apart := by
    induction more generalizing left with
    | nil => exact isChain_ofColumns left columns
    | cons name more ih =>
        exact List.isChain_cons_cons.mpr ⟨Or.inr (Or.inr rfl),
          List.isChain_cons_cons.mpr ⟨Or.inr (Or.inl rfl), ih (ofName false name)⟩⟩
  exact isChain_cons_of_gap (by simp [ofName, space]) (dotted (ofName true first))

end SpacedLexeme

/-- The layout of the statement that asks for columns of a table. -/
def Layout.ofNames (first : PlainName) (more columns : List PlainName) : Layout where
  lexemes := SpacedLexeme.ofTable first more ++ SpacedLexeme.ofColumns columns
  trailing := []
  apart := SpacedLexeme.isChain_ofTable first more columns
  separators := by simp

theorem toList_writtenName (name : String)
    : (writtenName name).toList = quote :: name.toList ++ [quote] := by
  simp [writtenName]

/-- A written statement is the text of its layout: names are joined by what stands in front
of each but the first.
-/
theorem text_ofNames (first : PlainName) (more : List PlainName) (column : PlainName)
    (columns : List PlainName)
    : (Layout.ofNames first more (column :: columns)).text
      = (writtenStatement ((first :: more).map Subtype.val)
          ((column :: columns).map Subtype.val)).toList := by
  simp only [Layout.text, Layout.ofNames, SpacedLexeme.ofTable, SpacedLexeme.ofColumns,
    writtenStatement, String.toList_append, String.toList_intercalate, List.map_cons,
    List.map_map, intercalate_cons]
  simp [SpacedLexeme.spell, SpacedLexeme.text, SpacedLexeme.ofFrom, SpacedLexeme.ofSelect,
    SpacedLexeme.ofName, SpacedLexeme.ofDot, SpacedLexeme.space, List.flatMap_map,
    List.flatMap_assoc, toList_writtenName]

-----------------------------------------------------------------------------------------
-- Reading a written statement back
-----------------------------------------------------------------------------------------

namespace SpacedLexeme

/-- The name that a lexeme stands for, which does not depend on its place. -/
def name? (spaced : SpacedLexeme) : Option String :=
  (spaced.token .first).name?

theorem filterMap_name?_tokensFrom (position : Position) (lexemes : List SpacedLexeme)
    : (tokensFrom position lexemes).filterMap Token.name? = lexemes.filterMap name? := by
  induction lexemes generalizing position with
  | nil => rfl
  | cons spaced more ih =>
      rw [tokensFrom, List.filterMap_cons, ih, List.filterMap_cons]
      rfl

@[simp]
theorem name?_ofName (spaced : Bool) (name : PlainName)
    : (ofName spaced name).name? = some name.val := by
  simp [name?, ofName, token, Token.name?, Token.unquote]

theorem filterMap_name?_ofTable (first : PlainName) (more : List PlainName)
    : (ofTable first more).filterMap name? = (first :: more).map Subtype.val := by
  have nameless : ofDot.name? = none := rfl
  have dotted : (more.flatMap (fun name => [ofDot, ofName false name])).filterMap name?
      = more.map Subtype.val := by
    induction more with
    | nil => rfl
    | cons name more ih => simp [nameless, ih]
  have keywordNameless : ofFrom.name? = none := rfl
  rw [ofTable, List.filterMap_cons_none keywordNameless,
    List.filterMap_cons_some (name?_ofName true first), dotted, List.map_cons]

theorem filterMap_name?_ofColumns (columns : List PlainName)
    : (ofColumns columns).filterMap name? = columns.map Subtype.val := by
  have keywordNameless : ofSelect.name? = none := rfl
  rw [ofColumns, List.filterMap_cons_none keywordNameless, List.filterMap_map]
  simp

theorem tableKinds_ofTable (first : PlainName) (more : List PlainName)
    (bounded : more.length ≤ 2)
    : TableKinds ((ofTable first more).map kind) := by
  have dotted : (more.flatMap (fun name => [ofDot, ofName false name])).map kind
      = (List.replicate more.length [TokenKind.dot, TokenKind.identifier]).flatten := by
    induction more with
    | nil => rfl
    | cons name more ih =>
        rw [List.flatMap_cons, List.map_append, ih (Nat.le_of_succ_le bounded),
          List.length_cons, List.replicate_succ, List.flatten_cons]
        rfl
  refine ⟨more.length, bounded, ?_⟩
  rw [ofTable, List.map_cons, List.map_cons, dotted]
  rfl

theorem columnKinds_ofColumns (column : PlainName) (columns : List PlainName)
    : ColumnKinds ((ofColumns (column :: columns)).map kind) := by
  refine ⟨columns.length, ?_⟩
  have names : (columns.map (ofName true)).map kind
      = List.replicate columns.length .identifier := by
    simp [ofName]
  rw [ofColumns, List.map_cons, List.map_cons, List.map_cons, names]
  rfl

end SpacedLexeme

/-- The lexemes of a table clause stand for a clause of the same names: their tokens have the
kinds of the grammar, and each name is what its identifier stands for.
-/
theorem exists_fromClause_of_names (first : PlainName) {more : List PlainName}
    (bounded : more.length ≤ 2)
    : ∃ clause : FromClause,
        clause.tokens = SpacedLexeme.tokensFrom .first (SpacedLexeme.ofTable first more)
        ∧ clause.table.parts.length ≤ TableRef.maxParts
        ∧ clause.table.names = (first :: more).map Subtype.val := by
  have kinds := SpacedLexeme.tableKinds_ofTable first more bounded
  rw [← SpacedLexeme.map_kind_tokensFrom .first] at kinds
  obtain ⟨clause, tokens, inLimit⟩ := kinds.exists_clause
  refine ⟨clause, tokens, inLimit, ?_⟩
  rw [← clause.filterMap_name?_tokens, tokens, SpacedLexeme.filterMap_name?_tokensFrom,
    SpacedLexeme.filterMap_name?_ofTable]

/-- The layout of a written statement is read as a statement of the same names, clause by
clause.
-/
theorem exists_statement_of_names (first : PlainName) {more : List PlainName}
    (bounded : more.length ≤ 2) (column : PlainName) (columns : List PlainName)
    : ∃ statement,
        Statement.ofTokens? (Layout.ofNames first more (column :: columns)).tokens
          = .ok statement
        ∧ statement.fromClause.table.names = (first :: more).map Subtype.val
        ∧ statement.selectClause.names = (column :: columns).map Subtype.val := by
  have columnKinds := SpacedLexeme.columnKinds_ofColumns column columns
  rw [Layout.tokens, Layout.ofNames, SpacedLexeme.tokensFrom_append]
  generalize Position.advance _ _ = behind
  rw [← SpacedLexeme.map_kind_tokensFrom behind] at columnKinds
  obtain ⟨fromClause, fromTokens, inLimit, tableNamed⟩ :=
    exists_fromClause_of_names first bounded
  obtain ⟨selectClause, selectTokens⟩ := columnKinds.exists_clause
  rw [← fromTokens, ← selectTokens]
  refine ⟨⟨fromClause, selectClause⟩, ofTokens?_eq_ok_iff.mpr ⟨rfl, inLimit⟩, tableNamed, ?_⟩
  rw [← selectClause.filterMap_name?_tokens, selectTokens,
    SpacedLexeme.filterMap_name?_tokensFrom, SpacedLexeme.filterMap_name?_ofColumns]

-----------------------------------------------------------------------------------------
-- Answering a written statement
-----------------------------------------------------------------------------------------

/-- Names without quotes can be taken as names that identifiers spell. -/
theorem exists_plainNames {names : List String} (plain : ∀ name ∈ names, quote ∉ name.toList)
    : ∃ plainNames : List PlainName, plainNames.map Subtype.val = names :=
  ⟨names.attachWith _ plain, List.attachWith_map_subtype_val plain⟩

/-- A written statement is read back as a statement of the names that it was written from. -/
theorem exists_statement_of_written {table columns : List String} (hasTable : table ≠ [])
    (inLimit : table.length ≤ 3) (hasColumn : columns ≠ [])
    (plain : ∀ name ∈ table ++ columns, quote ∉ name.toList)
    : ∃ tokens statement,
        tokensOf (writtenStatement table columns) = .ok tokens
        ∧ Statement.ofTokens? tokens = .ok statement
        ∧ statement.fromClause.table.names = table
        ∧ statement.selectClause.names = columns := by
  rw [List.forall_mem_append] at plain
  obtain ⟨tableNames, rfl⟩ := exists_plainNames plain.1
  obtain ⟨columnNames, rfl⟩ := exists_plainNames plain.2
  obtain ⟨first, more, rfl⟩ :=
    List.exists_cons_of_ne_nil (mt List.map_eq_nil_iff.mpr hasTable)
  obtain ⟨column, rest, rfl⟩ :=
    List.exists_cons_of_ne_nil (mt List.map_eq_nil_iff.mpr hasColumn)
  have bounded : more.length ≤ 2 := by
    rw [List.map_cons, List.length_cons, List.length_map] at inLimit
    exact Nat.le_of_succ_le_succ inLimit
  obtain ⟨statement, accepted, names⟩ := exists_statement_of_names first bounded column rest
  have read := tokensOf_eq_ok_iff.mpr ⟨_, text_ofNames first more column rest, rfl⟩
  exact ⟨_, statement, read, accepted, names⟩

/-- A written statement is answered from what the catalog stores.
It is read back as the names it was written from.  Where its table is not resolved, the
diagnostic of the resolution rejects it.  Else each stored row is answered in storage order,
or a requested column that a stored row lacks is reported.
-/
theorem execute_writtenStatement (documents : DocumentCatalog) {table columns : List String}
    (hasTable : table ≠ []) (inLimit : table.length ≤ 3) (hasColumn : columns ≠ [])
    (plain : ∀ name ∈ table ++ columns, quote ∉ name.toList)
    : ∃ tokens statement,
        tokensOf (writtenStatement table columns) = .ok tokens
        ∧ Statement.ofTokens? tokens = .ok statement
        ∧ statement.fromClause.table.names = table
        ∧ statement.selectClause.names = columns
        ∧ match documents.toCatalog.resolve statement.fromClause.table with
          | .error diagnostic =>
              diagnostic.stage = .semantic
              ∧ documents.toCatalog.execute (writtenStatement table columns)
                = .error diagnostic
          | .ok path =>
              ∃ records,
                documents.toCatalog.rows path = some records
                ∧ ((∀ record ∈ records, record.Covers columns)
                  → ∃ rows,
                      documents.toCatalog.execute (writtenStatement table columns)
                        = .ok { columns, rows }
                      ∧ List.Forall₂ (Row.Answers columns) records rows)
                ∧ (¬ (∀ record ∈ records, record.Covers columns)
                  → ∃ column ∈ statement.selectClause.columns, ∃ record ∈ records,
                      record.get? column.name = none
                      ∧ documents.toCatalog.execute (writtenStatement table columns)
                        = .error (.semantic (.unknownColumn column.name)
                            (some column.span))) := by
  obtain ⟨tokens, statement, read, accepted, tableNames, columnNames⟩ :=
    exists_statement_of_written hasTable inLimit hasColumn plain
  refine ⟨tokens, statement, read, accepted, tableNames, columnNames, ?_⟩
  cases resolved : documents.toCatalog.resolve statement.fromClause.table with
  | error diagnostic =>
      have bounded := (ofTokens?_eq_ok_iff.mp accepted).2
      refine ⟨Catalog.stage_of_resolve_eq_error bounded resolved, ?_⟩
      rw [Catalog.execute_of_read read accepted]
      exact Catalog.executeStatement_of_rejected resolved
  | ok path =>
      obtain ⟨_, records, stored⟩ := DocumentCatalog.of_resolve_eq_ok resolved
      subst columnNames
      refine ⟨records, stored, ?_, ?_⟩
      · exact Catalog.execute_of_covers read accepted resolved stored
      · exact Catalog.execute_of_not_covers read accepted resolved stored

/-- A catalog of one table with one row. -/
def orderLines : DocumentCatalog :=
  DocumentCatalog.empty.insertTable ⟨"shop", "public", "order.lines"⟩
    [OrderedMap.empty.insert "SELECT \n" (.bool true)]

theorem resolve_orderLines {reference : TableRef} (named : reference.names = ["order.lines"])
    : orderLines.toCatalog.resolve reference = .ok ⟨"shop", "public", "order.lines"⟩ :=
  Catalog.resolve_of_pathsOfTable named (by decide)

/-- Names that hold dots, keywords and line ends are found, and a repeated column is answered
twice.
-/
theorem execute_orderLines
    : orderLines.toCatalog.execute
        (writtenStatement ["order.lines"] ["SELECT \n", "SELECT \n"])
      = .ok {
          columns := ["SELECT \n", "SELECT \n"]
          rows := [⟨[("SELECT \n", .bool true), ("SELECT \n", .bool true)]⟩]
        } := by
  obtain ⟨tokens, statement, _, _, named, _, answered⟩ :=
    @execute_writtenStatement orderLines ["order.lines"] ["SELECT \n", "SELECT \n"]
      (by decide) (by decide) (by decide) (by decide)
  rw [resolve_orderLines named] at answered
  obtain ⟨records, stored, complete, _⟩ := answered
  obtain rfl := Option.some.inj stored
  obtain ⟨rows, executed, answers⟩ := complete (by decide)
  obtain ⟨row, _, answer, none, rfl⟩ := List.forall₂_cons_left_iff.mp answers
  cases none
  have expected : Row.Answers ["SELECT \n", "SELECT \n"]
      (OrderedMap.empty.insert "SELECT \n" (.bool true))
      ⟨[("SELECT \n", .bool true), ("SELECT \n", .bool true)]⟩ :=
    .cons ⟨rfl, rfl⟩ (.cons ⟨rfl, rfl⟩ .nil)
  rw [executed, answer.unique expected]

end TableQuery
