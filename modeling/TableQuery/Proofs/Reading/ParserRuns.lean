import TableQuery.Proofs.Reading.Progress

/-! What the runs of the parser make of the tokens ahead.
Seen from outside, a run gives its result with the tokens it has left, and what the parser
remembers behind it.  Rule by rule this is what the recursion over the tokens says, so a whole
run ends as a reading does and remembers how far the reading got.
-/

namespace TableQuery

namespace StatementParser

variable {α β : Type}

-----------------------------------------------------------------------------------------
-- Runs seen from outside
-----------------------------------------------------------------------------------------

/-- The result of a run with the tokens that it leaves, and what is remembered behind it, after
a failure too.
-/
def seen (parser : StatementParser α) (tokens : List Token) (context : ParseContext)
    : Except Diagnostic (α × List Token) × ParseContext :=
  match parser { ahead := tokens, context } with
  | .ok value state => (.ok (value, state.ahead), state.context)
  | .error diagnostic state => (.error diagnostic, state.context)

/-- A parser behind another one goes on with the tokens left, and not at all after a failure. -/
theorem seen_bind (parser : StatementParser α) (next : α → StatementParser β)
    (tokens : List Token) (context : ParseContext)
    : (parser >>= next).seen tokens context
      = match parser.seen tokens context with
        | (.ok (value, rest), after) => (next value).seen rest after
        | (.error diagnostic, after) => (.error diagnostic, after) := by
  simp only [seen, bind, EStateM.bind]
  cases parser { ahead := tokens, context } <;> rfl

/-- What is seen of a run that succeeds is all that there is. -/
theorem eq_ok_of_seen {parser : StatementParser α} {tokens rest : List Token}
    {context after : ParseContext} {value : α}
    (succeeds : parser.seen tokens context = (.ok (value, rest), after))
    : parser { ahead := tokens, context } = .ok value { ahead := rest, context := after } := by
  unfold seen at succeeds
  split at succeeds
  · cases succeeds
    assumption
  · cases succeeds

variable (tokens : List Token) (context : ParseContext)

@[simp]
theorem seen_pure (value : α)
    : (pure value : StatementParser α).seen tokens context = (.ok (value, tokens), context) :=
  rfl

@[simp]
theorem seen_enter (rule : NodeKind)
    : (enter rule).seen tokens context = (.ok ((), tokens), context.enter rule) :=
  rfl

@[simp]
theorem seen_recordTable (table : TableRef)
    : (recordTable table).seen tokens context
      = (.ok ((), tokens), { context with table := some table }) :=
  rfl

@[simp]
theorem seen_next?
    : next?.seen tokens context = (.ok (tokens.head?, tokens.tail), context) :=
  rfl

@[simp]
theorem seen_expect (kind : TokenKind)
    : (expect kind).seen tokens context = (TableQuery.expect kind tokens, context) := by
  cases tokens with
  | nil => rfl
  | cons token rest =>
      by_cases kind_eq : token.kind = kind <;>
        simp [seen, expect, TableQuery.expect, kind_eq]

@[simp]
theorem seen_expectIdentifier
    : expectIdentifier.seen tokens context
      = (TableQuery.expect .identifier tokens, context) := by
  rw [expectIdentifier_eq, seen_expect]

/-- A kind is ahead exactly if a token of it can be taken. -/
theorem isAhead_eq (kind : TokenKind)
    : ParserState.isAhead { ahead := tokens, context } kind
      = (TableQuery.expect kind tokens).toBool := by
  cases tokens with
  | nil => rfl
  | cons token rest =>
      by_cases kind_eq : token.kind = kind <;>
        simp [ParserState.isAhead, TableQuery.expect, kind_eq, Except.toBool]

@[simp]
theorem seen_check (kind : TokenKind)
    : (check kind).seen tokens context
      = (.ok ((TableQuery.expect kind tokens).toBool, tokens), context) := by
  rw [← isAhead_eq tokens context]
  rfl

-----------------------------------------------------------------------------------------
-- The table reference
-----------------------------------------------------------------------------------------

variable (current previous : Option NodeKind)

/-- A reference that may still get names is recorded with each of them, so behind the run the
recorded reference is the one that was read last.
-/
theorem seen_moreParts {table : TableRef} {limit : Nat}
    (room : table.parts.length + limit = TableRef.maxParts)
    : (moreParts table).seen tokens ⟨current, previous, some table⟩
      = match table.readMore limit tokens with
        | .ok (full, rest) => (.ok (full, rest), ⟨current, previous, some full⟩)
        | .error (diagnostic, partsRead) =>
            (.error diagnostic, ⟨current, previous, some partsRead⟩) := by
  induction limit generalizing table tokens with
  | zero =>
      have full : ¬table.parts.length < TableRef.maxParts := by omega
      rw [moreParts, dif_neg full, seen_pure]
      rfl
  | succ limit ih =>
      have inLimit : table.parts.length < TableRef.maxParts := by omega
      rw [moreParts, dif_pos inLimit, seen_bind, seen_check, TableRef.readMore]
      cases dotTaken : TableQuery.expect .dot tokens with
      | error diagnostic => rfl
      | ok found =>
          obtain ⟨dot, afterDot⟩ := found
          simp only [Except.toBool, ite_true, seen_bind, seen_expect, dotTaken,
            seen_expectIdentifier]
          cases partTaken : TableQuery.expect .identifier afterDot with
          | error diagnostic => rfl
          | ok found =>
              obtain ⟨part, afterPart⟩ := found
              have roomLeft : (table.push dot part).parts.length + limit = TableRef.maxParts := by
                rw [TableRef.length_parts_push]
                omega
              exact ih afterPart roomLeft

/-- Names of a reference are recorded as they are read, and behind the run as many are recorded
as a reading has got.
-/
theorem seen_tableRef
    : tableRef.seen tokens ⟨current, previous, none⟩
      = match TableRef.read tokens with
        | .ok (table, rest) => (.ok (table, rest), ⟨some .table, current, some table⟩)
        | .error (diagnostic, partsRead) =>
            (.error diagnostic, ⟨some .table, current, partsRead⟩) := by
  simp only [tableRef, seen_bind, seen_enter, seen_expectIdentifier, TableRef.read]
  cases TableQuery.expect .identifier tokens with
  | error diagnostic => rfl
  | ok found =>
      obtain ⟨first, rest⟩ := found
      simp only [seen_recordTable, ParseContext.enter]
      rw [seen_moreParts _ _ _ (show _ + (TableRef.maxParts - 1) = TableRef.maxParts from rfl)]
      cases (TableRef.single first).readMore (TableRef.maxParts - 1) rest <;> rfl

-----------------------------------------------------------------------------------------
-- The columns
-----------------------------------------------------------------------------------------

/-- While an identifier is ahead, it is taken as a column. -/
theorem seen_moreColumns_step (columns : List Identifier)
    : (moreColumns columns).seen tokens context
      = match TableQuery.expect .identifier tokens with
        | .ok (identifier, rest) =>
            (moreColumns (columns ++ [identifier])).seen rest (context.enter .column)
        | .error _ => (.ok (columns, tokens), context) := by
  rw [seen, moreColumns, isAhead_eq]
  cases taken : TableQuery.expect .identifier tokens with
  | error diagnostic => rfl
  | ok found =>
      obtain ⟨identifier, rest⟩ := found
      have parsed : column.seen tokens context
          = (.ok (identifier, rest), context.enter .column) := by
        simp only [column, seen_bind, seen_enter, seen_expectIdentifier, taken]
      simp only [Except.toBool, ite_true]
      rw [eq_ok_of_seen parsed]
      rfl

/-- Further columns are all identifiers ahead, and from the second one on the column in front of
it is remembered too.
-/
theorem seen_moreColumns (columns : List Identifier) (table : Option TableRef)
    : (moreColumns columns).seen tokens ⟨some .column, previous, table⟩
      = (.ok (columns ++ (splitIdentifiers tokens).1, (splitIdentifiers tokens).2),
          ⟨some .column,
            if (splitIdentifiers tokens).1 = [] then previous else some .column, table⟩) := by
  induction tokens generalizing columns previous with
  | nil =>
      rw [seen_moreColumns_step]
      simp [TableQuery.expect, splitIdentifiers]
  | cons token rest ih =>
      rw [seen_moreColumns_step, TableQuery.expect, splitIdentifiers]
      by_cases isIdentifier : token.kind = .identifier
      · simp [isIdentifier, ParseContext.enter, ih]
      · simp [isIdentifier]

-----------------------------------------------------------------------------------------
-- The clauses
-----------------------------------------------------------------------------------------

/-- The rule of the table clause is entered behind that of the statement. -/
theorem seen_fromClause
    : fromClause.seen tokens ⟨some .statement, none, none⟩
      = match TableQuery.expect .fromKeyword tokens with
        | .error diagnostic => (.error diagnostic, Progress.fromKeyword.context)
        | .ok (keyword, rest) =>
            match TableRef.read rest with
            | .error (diagnostic, partsRead) =>
                (.error diagnostic, (Progress.table partsRead).context)
            | .ok (table, behind) =>
                (.ok ({ keyword, table }, behind), (Progress.table (some table)).context) := by
  simp only [fromClause, seen_bind, seen_enter, seen_expect, ParseContext.enter]
  cases TableQuery.expect .fromKeyword tokens with
  | error diagnostic => rfl
  | ok found =>
      simp only [seen_tableRef]
      cases TableRef.read found.2 <;> rfl

/-- The rule of the columns is entered behind that of the table. -/
theorem seen_selectClause (table : TableRef)
    : selectClause.seen tokens (Progress.table (some table)).context
      = match TableQuery.expect .selectKeyword tokens with
        | .error diagnostic => (.error diagnostic, (Progress.selectKeyword table).context)
        | .ok (keyword, rest) =>
            match TableQuery.expect .identifier rest with
            | .error diagnostic => (.error diagnostic, (Progress.columns table []).context)
            | .ok (first, behind) =>
                let (more, after) := splitIdentifiers behind
                (.ok ({ keyword, first, more }, after),
                  (Progress.columns table (first :: more)).context) := by
  simp only [selectClause, columnList, column, seen_bind, seen_enter, seen_expect,
    seen_expectIdentifier, ParseContext.enter]
  cases TableQuery.expect .selectKeyword tokens with
  | error diagnostic => rfl
  | ok found =>
      cases firstTaken : TableQuery.expect .identifier found.2 with
      | error diagnostic => simp only [firstTaken]; rfl
      | ok first =>
          simp only [firstTaken, seen_moreColumns, List.nil_append, seen_pure]
          cases (splitIdentifiers first.2).1 <;> rfl

end StatementParser

-----------------------------------------------------------------------------------------
-- Whole statements
-----------------------------------------------------------------------------------------

namespace Statement

/-- A run over all tokens gives what is seen of it. -/
theorem parse_eq_seen (tokens : List Token)
    : parse tokens
      = {
          result := (StatementParser.statement.seen tokens { }).1.map Prod.fst
          context := (StatementParser.statement.seen tokens { }).2
        } := by
  unfold parse StatementParser.seen
  cases StatementParser.statement { ahead := tokens, context := { } } <;> rfl

/-- Parsing ends as reading does, and it remembers the rules and names that tell how far the
reading got.
-/
theorem parse_eq_read (tokens : List Token)
    : parse tokens
      = { result := (read tokens).result, context := (read tokens).progress.context } := by
  rw [parse_eq_seen]
  simp only [StatementParser.statement, StatementParser.clauses, StatementParser.seen_bind,
    StatementParser.seen_enter, ParseContext.enter, StatementParser.seen_fromClause, read]
  cases expect .fromKeyword tokens with
  | error diagnostic => rfl
  | ok found =>
      cases tableRead : TableRef.read found.2 with
      | error fault => simp only [tableRead]; rfl
      | ok clause =>
          simp only [tableRead, StatementParser.seen_selectClause]
          cases expect .selectKeyword clause.2 with
          | error diagnostic => rfl
          | ok selected =>
              cases firstTaken : expect .identifier selected.2 with
              | error diagnostic => simp only [firstTaken]; rfl
              | ok first =>
                  simp only [firstTaken, StatementParser.seen_pure,
                    StatementParser.seen_next?]
                  cases (splitIdentifiers first.2).2 <;> rfl

theorem ofTokens?_eq_read (tokens : List Token)
    : ofTokens? tokens = (read tokens).result := by
  rw [ofTokens?, parse_eq_read]

theorem stoppedIn_parse (tokens : List Token)
    : (parse tokens).context.stoppedIn = (read tokens).progress.stoppedIn := by
  rw [parse_eq_read, Progress.stoppedIn_context]

theorem table_parse (tokens : List Token)
    : (parse tokens).context.table = (read tokens).progress.table? := by
  rw [parse_eq_read, Progress.table_context]

/-- Where parsing stops in the column list, a table is remembered. -/
theorem exists_columns_of_stoppedIn {tokens : List Token}
    (stopped : (parse tokens).context.stoppedIn = some .columnList)
    : ∃ table columnsRead,
        (read tokens).progress = .columns table columnsRead
        ∧ (parse tokens).context.table = some table := by
  rw [stoppedIn_parse] at stopped
  rw [table_parse]
  cases progress : (read tokens).progress with
  | columns table columnsRead => exact ⟨table, columnsRead, rfl, rfl⟩
  | fromKeyword | table | selectKeyword => simp [progress, Progress.stoppedIn] at stopped

/-- Where parsing stops in the table reference, the parts read so far are remembered. -/
theorem exists_parts_of_stoppedIn {tokens : List Token}
    (stopped : (parse tokens).context.stoppedIn = some .table)
    : ∃ partsRead, (read tokens).progress = .table partsRead := by
  rw [stoppedIn_parse] at stopped
  cases progress : (read tokens).progress with
  | table partsRead => exact ⟨partsRead, rfl⟩
  | fromKeyword | selectKeyword | columns => simp [progress, Progress.stoppedIn] at stopped

end Statement

end TableQuery
