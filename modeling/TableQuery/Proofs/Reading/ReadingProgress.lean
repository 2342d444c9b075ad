import TableQuery.Lexer
import TableQuery.Proofs.Answers.Traversals
import TableQuery.Proofs.Reading.ReadingEndings

/-! How far a reading gets, for every token list.
The first tokens alone decide where a reading stops and which names of the table it has read:
the table clause that they begin with, and what stands ahead of its next part.  Names that were
read stay with the progress, whatever comes behind them.
-/

namespace TableQuery

/-- Where a reading of the tokens stops, with the table reference that it has read.
It stops in the reference where a name is missing and in the columns once their keyword is
there.  Everywhere else it stops in neither.
-/
inductive StopsIn (tokens : List Token) : Option NodeKind → Option TableRef → Prop
  | atFrom (missing : LacksAhead .fromKeyword tokens) : StopsIn tokens none none
  | atTable {keyword : TokenOf .fromKeyword} {rest} (whole : tokens = keyword.token :: rest)
    (missing : LacksAhead .identifier rest)
    : StopsIn tokens (some .table) none
  | atPart (clause : FromClause) {dot : TokenOf .dot} {rest}
    (whole : tokens = clause.tokens ++ dot.token :: rest)
    (inLimit : clause.table.parts.length < TableRef.maxParts)
    (missing : LacksAhead .identifier rest)
    : StopsIn tokens (some .table) (some clause.table)
  | atSelect (clause : FromClause) {rest} (whole : tokens = clause.tokens ++ rest)
    (inLimit : clause.table.parts.length ≤ TableRef.maxParts)
    (undotted : clause.table.parts.length = TableRef.maxParts ∨ LacksAhead .dot rest)
    (missing : LacksAhead .selectKeyword rest)
    : StopsIn tokens none (some clause.table)
  | behindSelect (clause : FromClause) {keyword : TokenOf .selectKeyword} {rest}
    (whole : tokens = clause.tokens ++ keyword.token :: rest)
    (inLimit : clause.table.parts.length ≤ TableRef.maxParts)
    : StopsIn tokens (some .columnList) (some clause.table)

-----------------------------------------------------------------------------------------
-- Behind the keyword of the table
-----------------------------------------------------------------------------------------

namespace Statement

variable {keyword : TokenOf .fromKeyword} {rest : List Token}

/-- A reading that stops in the table reference keeps the names that the reference has got. -/
theorem progress_of_stopped {diagnostic : Diagnostic} {partsRead : Option TableRef}
    (stopped : TableRef.read rest = .error (diagnostic, partsRead))
    : (read (keyword.token :: rest)).progress = .table partsRead := by
  simp [read, stopped]

/-- A reading that has passed the table reference keeps it, before the keyword of the columns
and in the columns alike.
-/
theorem progress_of_passed {table : TableRef} {behind : List Token}
    (taken : TableRef.read rest = .ok (table, behind))
    : LacksAhead .selectKeyword behind
        ∧ (read (keyword.token :: rest)).progress = .selectKeyword table
      ∨ ∃ known : TokenOf .selectKeyword, ∃ below columns,
          behind = known.token :: below
          ∧ (read (keyword.token :: rest)).progress = .columns table columns := by
  simp only [read, expect_token, taken]
  split
  · rename_i diagnostic missing
    exact Or.inl ⟨lacksAhead_of_expect missing, rfl⟩
  rename_i known below selectTaken
  refine Or.inr ⟨known, below, ?_⟩
  -- With and without a first column, the columns are being read.
  split
  · exact ⟨_, expect_eq_ok_iff.mp selectTaken, rfl⟩
  · exact ⟨_, expect_eq_ok_iff.mp selectTaken, rfl⟩

/-- The names of a table clause within the limit stay with the progress, whatever follows the
clause: names behind it are only added to them.
-/
theorem exists_table_of_clause (clause : FromClause) (rest : List Token)
    (inLimit : clause.table.parts.length ≤ TableRef.maxParts)
    : ∃ more,
        (read (clause.tokens ++ rest)).progress.table?
        = some (clause.table.extend more) := by
  have goesOn := clause.table.read_append rest inLimit
  rw [FromClause.tokens, List.cons_append]
  cases below
    : clause.table.readMore (TableRef.maxParts - clause.table.parts.length) rest with
  | error fault =>
      obtain ⟨diagnostic, partsRead⟩ := fault
      rw [below] at goesOn
      obtain ⟨more, _, _, _, rfl, _⟩ := TableRef.exists_dot_of_readMore below
      refine ⟨more, ?_⟩
      rw [progress_of_stopped goesOn]
      rfl
  | ok found =>
      obtain ⟨full, behind⟩ := found
      rw [below] at goesOn
      obtain ⟨more, _, _, rfl, _⟩ := TableRef.exists_more_of_readMore below
      refine ⟨more, ?_⟩
      rcases progress_of_passed goesOn with ⟨_, progress⟩ | ⟨_, _, _, _, progress⟩
      · rw [progress]
        rfl
      · rw [progress]
        rfl

end Statement

-----------------------------------------------------------------------------------------
-- The place of every reading
-----------------------------------------------------------------------------------------

/-- Every reading stops in such a place, by the ways in which a reading ends. -/
theorem stopsIn_read (tokens : List Token)
    : StopsIn tokens (Statement.read tokens).progress.stoppedIn
        (Statement.read tokens).progress.table? := by
  have ending := Statement.ending_read tokens
  generalize Statement.read tokens = outcome at ending ⊢
  cases ending with
  | atFrom missing => exact .atFrom (lacksAhead_of_expect missing)
  | atTable whole missing => exact .atTable whole (lacksAhead_of_expect missing)
  | atPart clause whole inLimit missing =>
      exact .atPart clause whole inLimit (lacksAhead_of_expect missing)
  | atSelect clause whole inLimit undotted missing =>
      exact .atSelect clause whole inLimit undotted (lacksAhead_of_expect missing)
  | atColumn clause whole inLimit => exact .behindSelect clause whole inLimit
  | behindColumns statement whole inLimit =>
      exact .behindSelect statement.fromClause (whole.trans (List.append_assoc _ _ _)) inLimit

/-- A reading stops in no other place, as each of them leads the reader to its own progress. -/
theorem StopsIn.read_eq {tokens : List Token} {list : Option NodeKind}
    {table : Option TableRef} (stops : StopsIn tokens list table)
    : (Statement.read tokens).progress.stoppedIn = list
      ∧ (Statement.read tokens).progress.table? = table := by
  cases stops with
  | atFrom missing =>
      obtain ⟨diagnostic, failed⟩ := missing.exists_diagnostic
      rw [Statement.read, failed]
      exact ⟨rfl, rfl⟩
  | @atTable keyword rest whole missing =>
      obtain ⟨diagnostic, failed⟩ := missing.exists_diagnostic
      have stopped : TableRef.read rest = .error (diagnostic, none) := by
        rw [TableRef.read, failed]
      rw [whole, Statement.progress_of_stopped stopped]
      exact ⟨rfl, rfl⟩
  | @atPart clause dot rest whole inLimit missing =>
      obtain ⟨diagnostic, failed⟩ := missing.exists_diagnostic
      have stopped := clause.table.read_dot dot rest inLimit failed
      rw [whole, FromClause.tokens, List.cons_append, Statement.progress_of_stopped stopped]
      exact ⟨rfl, rfl⟩
  | @atSelect clause rest whole inLimit undotted missing =>
      have taken := clause.table.read_tokens_append rest inLimit undotted
      rw [whole, FromClause.tokens, List.cons_append]
      rcases Statement.progress_of_passed taken with ⟨_, progress⟩ | ⟨known, _, _, rfl, _⟩
      · rw [progress]
        exact ⟨rfl, rfl⟩
      · exact absurd known.kind_eq (missing known.token rfl)
  | @behindSelect clause keyword rest whole inLimit =>
      have taken := clause.table.read_tokens_append (keyword.token :: rest) inLimit
        (Or.inr (lacksAhead_token keyword rest (by decide)))
      rw [whole, FromClause.tokens, List.cons_append]
      rcases Statement.progress_of_passed taken with ⟨missing, _⟩ | ⟨_, _, _, _, progress⟩
      · exact absurd keyword.kind_eq (missing keyword.token rfl)
      · rw [progress]
        exact ⟨rfl, rfl⟩

/-- The tokens decide the place where a reading stops and the reference that it has read. -/
theorem read_stopsIn_iff {tokens : List Token} {list : Option NodeKind}
    {table : Option TableRef}
    : (Statement.read tokens).progress.stoppedIn = list
        ∧ (Statement.read tokens).progress.table? = table
      ↔ StopsIn tokens list table := by
  constructor
  · intro ⟨sameList, sameTable⟩
    rw [← sameList, ← sameTable]
    exact stopsIn_read tokens
  · exact StopsIn.read_eq

/-- A reading stops in a list exactly if it stops there with some reference. -/
theorem stoppedIn_eq_iff {tokens : List Token} {list : Option NodeKind}
    : (Statement.read tokens).progress.stoppedIn = list
      ↔ ∃ table, StopsIn tokens list table := by
  constructor
  · intro sameList
    rw [← sameList]
    exact ⟨_, stopsIn_read tokens⟩
  · intro ⟨table, stops⟩
    exact stops.read_eq.1

-----------------------------------------------------------------------------------------
-- The kinds in front of that place
-----------------------------------------------------------------------------------------

/-- The columns are reached exactly behind a table clause and their keyword. -/
theorem stoppedIn_columnList_iff {tokens : List Token}
    : (Statement.read tokens).progress.stoppedIn = some .columnList
      ↔ ∃ front, TableKinds front ∧ front ++ [.selectKeyword] <+: tokens.map Token.kind := by
  rw [stoppedIn_eq_iff]
  constructor
  · intro ⟨table, stops⟩
    cases stops with
    | @behindSelect clause keyword rest whole inLimit =>
        refine ⟨_, clause.tableKinds inLimit, rest.map Token.kind, ?_⟩
        simp [whole, keyword.kind_eq]
  · intro ⟨front, kinds, rest, spelled⟩
    rw [List.append_assoc] at spelled
    obtain ⟨fromTokens, behind, rfl, rfl, afterTable⟩ := List.map_eq_append_iff.mp spelled.symm
    obtain ⟨clause, rfl, inLimit⟩ := kinds.exists_clause
    obtain ⟨keyword, below, rfl, _⟩ := exists_token_of_map_kind afterTable
    exact ⟨_, .behindSelect clause rfl inLimit⟩

/-- A name completes a table clause behind its keyword, and behind the first dots of one. -/
theorem tableKinds_concat_iff {front : List TokenKind}
    : TableKinds (front ++ [.identifier])
      ↔ front = [.fromKeyword]
        ∨ ∃ dotted < 2,
            front
            = [.fromKeyword, .identifier]
              ++ (List.replicate dotted [TokenKind.dot, TokenKind.identifier]).flatten
              ++ [.dot] := by
  have behindDot (dotted : Nat)
      : [TokenKind.fromKeyword, .identifier]
          ++ (List.replicate (dotted + 1) [TokenKind.dot, TokenKind.identifier]).flatten
        = [.fromKeyword, .identifier]
            ++ (List.replicate dotted [TokenKind.dot, TokenKind.identifier]).flatten
            ++ [.dot] ++ [.identifier] := by
    simp [List.replicate_succ']
  constructor
  · intro ⟨dotted, inLimit, spelled⟩
    cases dotted with
    | zero => exact Or.inl (List.append_cancel_right spelled)
    | succ dotted =>
        rw [behindDot] at spelled
        exact Or.inr ⟨dotted, inLimit, List.append_cancel_right spelled⟩
  · intro awaited
    rcases awaited with rfl | ⟨dotted, inLimit, rfl⟩
    · exact ⟨0, Nat.zero_le 2, rfl⟩
    · exact ⟨dotted + 1, inLimit, (behindDot dotted).symm⟩

/-- A reading stops in the table reference exactly where a name would go on with the table
clause and none is there.
-/
theorem stoppedIn_table_iff {tokens : List Token}
    : (Statement.read tokens).progress.stoppedIn = some .table
      ↔ ∃ front rest,
          tokens.map Token.kind = front ++ rest
          ∧ TableKinds (front ++ [.identifier])
          ∧ rest.head? ≠ some .identifier := by
  rw [stoppedIn_eq_iff]
  constructor
  · intro ⟨table, stops⟩
    cases stops with
    | @atTable keyword rest whole missing =>
        refine ⟨[.fromKeyword], rest.map Token.kind, ?_, ?_, lacksAhead_iff_head?.mp missing⟩
        · simp [whole, keyword.kind_eq]
        · exact tableKinds_concat_iff.mpr (Or.inl rfl)
    | @atPart clause dot rest whole inLimit missing =>
        rw [TableRef.length_parts, TableRef.maxParts] at inLimit
        refine ⟨clause.tokens.map Token.kind ++ [.dot], rest.map Token.kind, ?_, ?_,
          lacksAhead_iff_head?.mp missing⟩
        · simp [whole, dot.kind_eq]
        · rw [clause.map_kind_tokens]
          exact tableKinds_concat_iff.mpr
            (Or.inr ⟨clause.table.more.length, Nat.lt_of_succ_lt_succ inLimit, rfl⟩)
  · intro awaited
    obtain ⟨front, rest, spelled, kinds, missing⟩ := awaited
    obtain ⟨before, behind, rfl, spelledFront, rfl⟩ := List.map_eq_append_iff.mp spelled
    have lacks := lacksAhead_iff_head?.mpr missing
    rcases tableKinds_concat_iff.mp kinds with rfl | ⟨dotted, inLimit, rfl⟩
    · obtain ⟨keyword, empty, rfl, nothing⟩ := exists_token_of_map_kind spelledFront
      obtain rfl := List.map_eq_nil_iff.mp nothing
      exact ⟨_, .atTable rfl lacks⟩
    · obtain ⟨fromTokens, dotTokens, rfl, fromKinds, dotKinds⟩ :=
        List.map_eq_append_iff.mp spelledFront
      obtain ⟨clause, rfl, count⟩ := exists_fromClause_of_map_kind fromKinds
      obtain ⟨dot, empty, rfl, nothing⟩ := exists_token_of_map_kind dotKinds
      obtain rfl := List.map_eq_nil_iff.mp nothing
      refine ⟨_, .atPart clause (List.append_assoc _ _ _) ?_ lacks⟩
      rw [count, TableRef.maxParts]
      exact Nat.succ_lt_succ inLimit

/-- What is remembered of parsing tells how far it got, after a failure too.
The tokens decide in which list parsing stops and which names of the table are recorded then:
in the columns behind a whole table clause and their keyword, in the table reference where a
name of it is missing.  The last two rules that were entered are enough to tell the list, and
names that were recorded are never given up.
-/
theorem context_tells_how_far (tokens : List Token)
    : let context := (Statement.parse tokens).context
      (∀ list table,
        context.stoppedIn = list ∧ context.table = table ↔ StopsIn tokens list table)
      ∧ (context.stoppedIn = some .columnList
        ↔ ∃ front,
            TableKinds front ∧ front ++ [.selectKeyword] <+: tokens.map Token.kind)
      ∧ (context.stoppedIn = some .table
        ↔ ∃ front rest,
            tokens.map Token.kind = front ++ rest
            ∧ TableKinds (front ++ [.identifier])
            ∧ rest.head? ≠ some .identifier)
      ∧ (∀ statement,
          (Statement.parse tokens).result = .ok statement
          → context.stoppedIn = some .columnList
            ∧ context.table = some statement.fromClause.table)
      ∧ ∀ (clause : FromClause) (rest : List Token),
          tokens = clause.tokens ++ rest
          → clause.table.parts.length ≤ TableRef.maxParts
          → ∃ more, context.table = some (clause.table.extend more) := by
  intro context
  have list : context.stoppedIn = (Statement.read tokens).progress.stoppedIn :=
    Statement.stoppedIn_parse tokens
  have table : context.table = (Statement.read tokens).progress.table? :=
    Statement.table_parse tokens
  rw [list, table]
  refine ⟨fun _ _ => read_stopsIn_iff, stoppedIn_columnList_iff, stoppedIn_table_iff, ?_, ?_⟩
  · intro statement accepted
    obtain ⟨whole, inLimit⟩ := ofTokens?_eq_ok_iff.mp accepted
    exact (StopsIn.behindSelect statement.fromClause whole.symm inLimit).read_eq
  · intro clause rest whole inLimit
    subst whole
    exact Statement.exists_table_of_clause clause rest inLimit

/-- Behind the name in front of a dot parsing stops in the table reference and keeps it. -/
theorem name_kept_behind_dot
    : ∃ (clause : FromClause) (rest : List Token),
        tokensOf "FROM \"a\". SELECT" = .ok (clause.tokens ++ rest)
        ∧ clause.table.parts.length = 1
        ∧ (Statement.parse (clause.tokens ++ rest)).context.stoppedIn = some .table
        ∧ ∃ more,
            (Statement.parse (clause.tokens ++ rest)).context.table
            = some (clause.table.extend more) := by
  have kindsRead
      : List.map Token.kind <$> tokensOf "FROM \"a\". SELECT"
        = .ok ([.fromKeyword, .identifier] ++ [.dot, .selectKeyword]) := by
    decide +kernel
  obtain ⟨tokens, read, kinds⟩ := map_eq_ok_iff.mp kindsRead
  obtain ⟨fromTokens, rest, rfl, fromKinds, restKinds⟩ := List.map_eq_append_iff.mp kinds
  obtain ⟨clause, rfl, count⟩ : ∃ clause : FromClause,
      clause.tokens = fromTokens ∧ clause.table.parts.length = 0 + 1 :=
    exists_fromClause_of_map_kind fromKinds
  obtain ⟨_, _, inTable, _, kept⟩ := context_tells_how_far (clause.tokens ++ rest)
  refine ⟨clause, rest, read, count, ?_, kept clause rest rfl (count ▸ by decide)⟩
  exact inTable.mpr ⟨[.fromKeyword, .identifier, .dot], [.selectKeyword], kinds,
    tableKinds_concat_iff.mpr (Or.inr ⟨0, by decide, rfl⟩), by decide⟩

end TableQuery
