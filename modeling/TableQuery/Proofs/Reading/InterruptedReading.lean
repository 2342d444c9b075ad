import Mathlib.Data.List.Basic
import TableQuery.Proofs.Reading.StatementGrammar

/-! Reading the first tokens of a statement.
A statement can be cut between any two of its tokens.  The front part is then read as far as
it goes, the reader knows where it stopped, and nothing but the end of input stops it early.
-/

namespace TableQuery

/-- The reading of some tokens has got so far, and has succeeded or lacks only more tokens. -/
structure Outcome.ReadUpTo (outcome : Outcome) (progress : Progress) : Prop where
  progress_eq : outcome.progress = progress
  lacksOnlyMore
    : ∀ diagnostic, outcome.result = .error diagnostic → diagnostic.isUnexpectedEnd

/-- The clause with other names behind its first one. -/
def FromClause.upTo (clause : FromClause) (more : List DottedPart) : FromClause :=
  { clause with table := { clause.table with more } }

theorem FromClause.length_parts_upTo (clause : FromClause) (more : List DottedPart)
    : (clause.upTo more).table.parts.length = more.length + 1 := by
  simp [upTo]

/-- A statement cut between two of its tokens, with how far the tokens in front are read. -/
inductive Statement.CutAt (statement : Statement) : List Token → List Token → Progress → Prop
  | start : statement.CutAt [] statement.tokens .fromKeyword
  | behindFrom
    : statement.CutAt [statement.fromClause.keyword.token]
        (statement.fromClause.table.tokens ++ statement.selectClause.tokens) (.table none)
  | behindPart {more rest} (split : statement.fromClause.table.more = more ++ rest)
    : statement.CutAt (statement.fromClause.upTo more).tokens
        (dottedTokens rest ++ statement.selectClause.tokens)
        (.selectKeyword (statement.fromClause.upTo more).table)
  | behindDot {more dotted rest}
    (split : statement.fromClause.table.more = more ++ dotted :: rest)
    : statement.CutAt ((statement.fromClause.upTo more).tokens ++ [dotted.dot.token])
        (dotted.part.token :: (dottedTokens rest ++ statement.selectClause.tokens))
        (.table (some (statement.fromClause.upTo more).table))
  | inColumns {columns rest} (split : statement.selectClause.columns = columns ++ rest)
    : statement.CutAt
        (statement.fromClause.tokens
          ++ statement.selectClause.keyword.token :: columns.map TokenOf.token)
        (rest.map TokenOf.token) (.columns statement.fromClause.table columns)

-----------------------------------------------------------------------------------------
-- Every cut
-----------------------------------------------------------------------------------------

/-- A cut through further names and what follows them goes behind a name, behind a dot, or
behind all of them, by induction over the names.
-/
theorem exists_cut_of_dottedTokens {more : List DottedPart} {tail front rest : List Token}
    (whole : dottedTokens more ++ tail = front ++ rest)
    : (∃ done left,
        more = done ++ left
        ∧ front = dottedTokens done
        ∧ rest = dottedTokens left ++ tail)
      ∨ (∃ done dotted left,
          more = done ++ dotted :: left
          ∧ front = dottedTokens done ++ [dotted.dot.token]
          ∧ rest = dotted.part.token :: (dottedTokens left ++ tail))
      ∨ ∃ token behind,
          front = dottedTokens more ++ token :: behind
          ∧ tail = token :: behind ++ rest := by
  induction more generalizing front with
  | nil =>
      cases front with
      | nil => exact Or.inl ⟨[], [], rfl, rfl, whole.symm⟩
      | cons token behind => exact Or.inr (Or.inr ⟨token, behind, rfl, whole⟩)
  | cons dotted more ih =>
      match front with
      | [] => exact Or.inl ⟨[], dotted :: more, rfl, rfl, whole.symm⟩
      | [token] =>
          obtain ⟨rfl, same⟩ := List.cons.inj whole
          exact Or.inr (Or.inl ⟨[], dotted, more, rfl, rfl, same.symm⟩)
      | first :: second :: front =>
          obtain ⟨rfl, afterDot⟩ := List.cons.inj whole
          obtain ⟨rfl, same⟩ := List.cons.inj afterDot
          rcases ih same with
            ⟨done, left, rfl, rfl, rfl⟩ | ⟨done, next, left, rfl, rfl, rfl⟩
              | ⟨token, behind, rfl, rfl⟩
          · exact Or.inl ⟨dotted :: done, left, rfl, rfl, rfl⟩
          · exact Or.inr (Or.inl ⟨dotted :: done, next, left, rfl, rfl, rfl⟩)
          · exact Or.inr (Or.inr ⟨token, behind, rfl, rfl⟩)

/-- Wherever the tokens of a statement are cut, it is one of the cuts. -/
theorem Statement.exists_cutAt {statement : Statement} {front rest : List Token}
    (whole : statement.tokens = front ++ rest)
    : ∃ progress, statement.CutAt front rest progress := by
  match front with
  | [] =>
      obtain rfl : statement.tokens = rest := whole
      exact ⟨_, .start⟩
  | [token] =>
      obtain ⟨rfl, rfl⟩ := List.cons.inj whole
      exact ⟨_, .behindFrom⟩
  | keyword :: first :: front =>
      obtain ⟨rfl, afterFrom⟩ := List.cons.inj whole
      obtain ⟨rfl, behindFirst⟩ := List.cons.inj afterFrom
      rcases exists_cut_of_dottedTokens behindFirst with
        ⟨more, left, split, rfl, rfl⟩ | ⟨more, dotted, left, split, rfl, rfl⟩
          | ⟨token, behind, rfl, same⟩
      · exact ⟨_, .behindPart split⟩
      · exact ⟨_, .behindDot split⟩
      · obtain ⟨rfl, columns⟩ := List.cons.inj same
        obtain ⟨done, left, split, rfl, rfl⟩ := List.map_eq_append_iff.mp columns
        exact ⟨_, .inColumns split⟩

-----------------------------------------------------------------------------------------
-- Reading the front part
-----------------------------------------------------------------------------------------

theorem isUnexpectedEnd_unexpectedEnd (kind : TokenKind)
    : (Diagnostic.unexpectedEnd kind).isUnexpectedEnd := by
  cases kind <;> decide

/-- A reading that stopped at the end of input lacks only more tokens. -/
theorem Outcome.readUpTo_of_unexpectedEnd {outcome : Outcome} (kind : TokenKind)
    {progress : Progress} (stopped : outcome = ⟨.error (.unexpectedEnd kind), progress⟩)
    : outcome.ReadUpTo progress := by
  subst stopped
  refine ⟨rfl, ?_⟩
  intro diagnostic same
  obtain rfl := Except.error.inj same
  exact isUnexpectedEnd_unexpectedEnd kind

/-- The keyword alone is read up to the table reference. -/
theorem Statement.read_keyword (keyword : TokenOf .fromKeyword)
    : (Statement.read [keyword.token]).ReadUpTo (.table none) := by
  apply Outcome.readUpTo_of_unexpectedEnd .identifier
  simp [Statement.read, TableRef.read]

/-- A table clause alone is read up to the keyword of the columns. -/
theorem Statement.read_fromClause (clause : FromClause)
    (inLimit : clause.table.parts.length ≤ TableRef.maxParts)
    : (Statement.read clause.tokens).ReadUpTo (.selectKeyword clause.table) := by
  have taken := clause.table.read_tokens_append [] inLimit (Or.inr (by simp [LacksAhead]))
  rw [List.append_nil] at taken
  apply Outcome.readUpTo_of_unexpectedEnd .selectKeyword
  simp [Statement.read, FromClause.tokens, taken]

/-- A table clause that ends in a dot is read up to that dot. -/
theorem Statement.read_fromClause_dot (clause : FromClause) (dot : TokenOf .dot)
    (inLimit : clause.table.parts.length < TableRef.maxParts)
    : (Statement.read (clause.tokens ++ [dot.token])).ReadUpTo
        (.table (some clause.table)) := by
  have failed := clause.table.read_dot dot [] inLimit (expect_nil .identifier)
  apply Outcome.readUpTo_of_unexpectedEnd .identifier
  simp [Statement.read, FromClause.tokens, failed]

/-- A table clause and a column clause that may go on are read up to the last column. -/
theorem Statement.read_columns (clause : FromClause) (keyword : TokenOf .selectKeyword)
    (columns : List Identifier) (inLimit : clause.table.parts.length ≤ TableRef.maxParts)
    : (Statement.read (clause.tokens ++ keyword.token :: columns.map TokenOf.token)).ReadUpTo
        (.columns clause.table columns) := by
  have taken := clause.table.read_tokens_append (keyword.token :: columns.map TokenOf.token)
    inLimit (Or.inr (lacksAhead_token keyword _ (by decide)))
  cases columns with
  | nil =>
      rw [List.map_nil] at taken
      apply Outcome.readUpTo_of_unexpectedEnd .identifier
      simp [Statement.read, FromClause.tokens, taken]
  | cons column more =>
      have columnsTaken := splitIdentifiers_append more [] (by simp [LacksAhead])
      rw [List.append_nil] at columnsTaken
      rw [List.map_cons] at taken ⊢
      have finished
          : Statement.read
              (clause.tokens ++ keyword.token :: column.token :: more.map TokenOf.token)
            = {
                result := .ok ⟨clause, keyword, column, more⟩
                progress := .columns clause.table (column :: more)
              } := by
        simp [Statement.read, FromClause.tokens, taken, columnsTaken, Statement.endingHere]
      rw [finished]
      refine ⟨rfl, ?_⟩
      intro diagnostic rejected
      cases rejected

/-- The front part of a cut is read as far as the cut says. -/
theorem Statement.CutAt.read {statement : Statement} {front rest : List Token}
    {progress : Progress} (cut : statement.CutAt front rest progress)
    (inLimit : statement.fromClause.table.parts.length ≤ TableRef.maxParts)
    : (Statement.read front).ReadUpTo progress := by
  have names := inLimit
  rw [TableRef.length_parts] at names
  cases cut with
  | start => exact Outcome.readUpTo_of_unexpectedEnd .fromKeyword rfl
  | behindFrom => exact Statement.read_keyword statement.fromClause.keyword
  | @behindPart more rest split =>
      apply Statement.read_fromClause
      rw [split, List.length_append] at names
      rw [FromClause.length_parts_upTo]
      omega
  | @behindDot more dotted rest split =>
      apply Statement.read_fromClause_dot
      rw [split, List.length_append, List.length_cons] at names
      rw [FromClause.length_parts_upTo]
      omega
  | inColumns split => exact Statement.read_columns _ _ _ inLimit

-----------------------------------------------------------------------------------------
-- Telling cuts apart by the kinds in front of them
-----------------------------------------------------------------------------------------

namespace FromClause

theorem fromKeyword_mem_kinds (clause : FromClause)
    : TokenKind.fromKeyword ∈ clause.tokens.map Token.kind := by
  rw [map_kind_tokens]
  exact List.mem_cons_self

theorem selectKeyword_not_mem_kinds (clause : FromClause)
    : TokenKind.selectKeyword ∉ clause.tokens.map Token.kind := by
  simp [map_kind_tokens, List.mem_flatten, List.mem_replicate]

/-- A table clause ends in a name, which is its first one or the one behind its last dot. -/
theorem getLast?_kinds (clause : FromClause)
    : (clause.tokens.map Token.kind).getLast? = some .identifier := by
  rw [map_kind_tokens]
  cases clause.table.more.length with
  | zero => rfl
  | succ count =>
      rw [List.replicate_succ', List.flatten_concat, ← List.append_assoc, List.getLast?_append]
      rfl

theorem map_kind_concat (clause : FromClause) {kind : TokenKind} (known : TokenOf kind)
    : (clause.tokens ++ [known.token]).map Token.kind
      = clause.tokens.map Token.kind ++ [kind] := by
  rw [List.map_append, List.map_singleton, known.kind_eq]

end FromClause

namespace Statement.CutAt

variable {statement : Statement} {front rest : List Token} {progress : Progress}

/-- Once the keyword of the columns is in front of a cut, the columns are being read. -/
theorem exists_columns (cut : statement.CutAt front rest progress)
    (selected : TokenKind.selectKeyword ∈ front.map Token.kind)
    : ∃ columns, progress = .columns statement.fromClause.table columns := by
  cases cut with
  | start => cases selected
  | behindFrom => simp [TokenOf.kind_eq] at selected
  | behindPart => exact absurd selected (FromClause.selectKeyword_not_mem_kinds _)
  | behindDot =>
      rw [FromClause.map_kind_concat, List.mem_append] at selected
      rcases selected with inClause | isDot
      · exact absurd inClause (FromClause.selectKeyword_not_mem_kinds _)
      · cases List.mem_singleton.mp isDot
  | inColumns => exact ⟨_, rfl⟩

/-- Before the table clause, and behind a name of it, neither a path nor a column is read. -/
theorem outside_lists (cut : statement.CutAt front rest progress)
    (outside
      : TokenKind.fromKeyword ∉ front.map Token.kind
        ∨ (front.map Token.kind).getLast? = some .identifier
          ∧ TokenKind.selectKeyword ∉ front.map Token.kind)
    : progress = .fromKeyword ∨ ∃ table, progress = .selectKeyword table := by
  cases cut with
  | start => exact Or.inl rfl
  | behindFrom => simp [TokenOf.kind_eq] at outside
  | behindPart => exact Or.inr ⟨_, rfl⟩
  | behindDot =>
      rw [FromClause.map_kind_concat, List.getLast?_concat] at outside
      rcases outside with missing | ⟨isDot, _⟩
      · exact absurd (List.mem_append_left _ (FromClause.fromKeyword_mem_kinds _)) missing
      · cases isDot
  | inColumns =>
      rw [List.map_append] at outside
      rcases outside with missing | ⟨_, unselected⟩
      · exact absurd (List.mem_append_left _ (FromClause.fromKeyword_mem_kinds _)) missing
      · simp [TokenOf.kind_eq] at unselected

/-- The kind in front of a cut through the columns is that of their keyword or of a name. -/
theorem last_kind_of_columns {clause : FromClause} {keyword : TokenOf .selectKeyword}
    {columns : List Identifier} {kind : TokenKind}
    (last
      : ((clause.tokens ++ keyword.token :: columns.map TokenOf.token).map Token.kind).getLast?
        = some kind)
    : kind = .selectKeyword ∨ kind = .identifier := by
  rw [List.map_append, List.map_cons, List.getLast?_append_cons, keyword.kind_eq] at last
  have member := List.mem_of_getLast? last
  rw [map_kind_identifiers, List.mem_cons] at member
  exact member.imp_right List.eq_of_mem_replicate

/-- Where a name of the table reference has to follow, the table reference is being read up
to that name.
-/
theorem exists_next_part (cut : statement.CutAt front rest progress)
    (awaited
      : (front.map Token.kind).getLast? = some .fromKeyword
        ∨ (front.map Token.kind).getLast? = some .dot
        ∨ TokenKind.selectKeyword ∉ front.map Token.kind
          ∧ (rest.map Token.kind).head? = some .identifier)
    : ∃ partsRead, ∃ next : Identifier, ∃ behind,
        progress = .table partsRead
        ∧ rest.head? = some next.token
        ∧ statement.fromClause.table.names
          = partsRead.elim [] TableRef.names ++ next.name :: behind := by
  cases cut with
  | start =>
      have keywordFirst : (statement.tokens.map Token.kind).head? = some .fromKeyword :=
        congrArg some statement.fromClause.keyword.kind_eq
      rw [keywordFirst] at awaited
      simp at awaited
  | behindFrom =>
      exact ⟨none, statement.fromClause.table.first,
        (statement.fromClause.table.more.map DottedPart.part).map TokenOf.name, rfl, rfl, rfl⟩
  | @behindPart more rest split =>
      -- A dot or the keyword of the columns comes next, so no name is ahead.
      rw [FromClause.getLast?_kinds] at awaited
      cases rest with
      | nil => simp [dottedTokens, SelectClause.tokens, TokenOf.kind_eq] at awaited
      | cons dotted rest => simp [dottedTokens, TokenOf.kind_eq] at awaited
  | @behindDot more dotted rest split =>
      refine ⟨_, dotted.part, (rest.map DottedPart.part).map TokenOf.name, rfl, rfl, ?_⟩
      rw [TableRef.names, TableRef.parts, split]
      simp [FromClause.upTo, TableRef.names, TableRef.parts]
  | inColumns =>
      rcases awaited with isFrom | isDot | ⟨unselected, _⟩
      · simpa using last_kind_of_columns isFrom
      · simpa using last_kind_of_columns isDot
      · simp [TokenOf.kind_eq] at unselected

end Statement.CutAt

end TableQuery
