import Mathlib.Order.Bounds.Basic
import TableQuery.Proofs.Answers.Traversals
import TableQuery.Proofs.Lexing.TokenPlaces
import TableQuery.Proofs.Reading.GrammarPoints
import TableQuery.Proofs.Reading.InterruptedReading
import TableQuery.Proofs.Reading.ReadingEndings

/-! Where the reading of a statement is given up.
A reading follows the grammar from point to point.  It is given up in front of the first token
that leads from its point to no other one, or at the end of the tokens, so no error is reported
later than it could be known.
-/

namespace TableQuery

open GrammarPoint

/-- What begins the beginning of a statement begins the statement too. -/
theorem BeginsStatement.take {kinds : List TokenKind} (begins : BeginsStatement kinds)
    (count : Nat)
    : BeginsStatement (kinds.take count) := by
  obtain ⟨rest, spelled⟩ := begins
  refine ⟨kinds.drop count ++ rest, ?_⟩
  rwa [← List.append_assoc, List.take_append_drop]

theorem StatementKinds.beginsStatement {kinds : List TokenKind}
    (spelled : StatementKinds kinds)
    : BeginsStatement kinds :=
  ⟨[], by rwa [List.append_nil]⟩

-----------------------------------------------------------------------------------------
-- The points that tokens lead to
-----------------------------------------------------------------------------------------

/-- A statement within the limit has the kinds of one. -/
theorem Statement.statementKinds (statement : Statement)
    (inLimit : statement.fromClause.table.parts.length ≤ TableRef.maxParts)
    : StatementKinds (statement.tokens.map Token.kind) :=
  ⟨_, _, statement.fromClause.tableKinds inLimit, statement.selectClause.columnKinds,
    List.map_append⟩

/-- A table clause leads behind its last name, with room for the names it does not have. -/
theorem FromClause.follow?_tokens (clause : FromClause)
    (inLimit : clause.table.parts.length ≤ TableRef.maxParts)
    : start.follow? (clause.tokens.map Token.kind)
      = some (behindName (TableRef.maxParts - clause.table.parts.length)) := by
  rw [TableRef.length_parts, TableRef.maxParts] at inLimit ⊢
  rw [clause.map_kind_tokens, follow?_table (Nat.le_of_succ_le_succ inLimit),
    Nat.add_sub_add_right 2 1]

/-- A reading stands at a point and cannot go on with the tokens ahead.
Either a kind that may follow there is missing, and no token of another kind that may follow
is ahead, or the statement is complete and no column follows.
-/
inductive GrammarPoint.StopsAt (point : GrammarPoint) (ahead : List Token)
    : Diagnostic → Prop
  | incomplete {kind diagnostic} (unfinished : point ≠ behindColumn)
    (awaited : (point.next? kind).isSome)
    (leaves : ∀ found ∈ ahead.head?, point.next? found.kind = none)
    (missing : expect kind ahead = .error diagnostic)
    : point.StopsAt ahead diagnostic
  | complete {found} (finished : point = behindColumn) (isAhead : found ∈ ahead.head?)
    (leaves : point.next? found.kind = none)
    : point.StopsAt ahead (.unexpectedToken .endOfInput found)

/-- Only one kind may follow at a point that is not behind a name of the table. -/
theorem GrammarPoint.next?_eq_none {point : GrammarPoint} {kind other : TokenKind}
    (single : ∀ room, point ≠ behindName room) (follows : (point.next? kind).isSome)
    (different : other ≠ kind)
    : point.next? other = none := by
  cases point with
  | behindName room => exact absurd rfl (single room)
  | start | behindFrom | behindDot | behindSelect | behindColumn =>
      cases kind <;> cases other <;> simp [next?] at follows different ⊢

/-- Where only one kind may follow, a reading stops if no token of it is ahead. -/
theorem GrammarPoint.stopsAt_of_expect {point : GrammarPoint} {kind : TokenKind}
    {ahead : List Token} {diagnostic : Diagnostic} (unfinished : point ≠ behindColumn)
    (single : ∀ room, point ≠ behindName room) (awaited : (point.next? kind).isSome)
    (missing : expect kind ahead = .error diagnostic)
    : point.StopsAt ahead diagnostic := by
  refine .incomplete unfinished awaited ?_ missing
  intro found isAhead
  exact next?_eq_none single awaited (lacksAhead_of_expect missing found isAhead)

/-- Behind a name only the keyword of the columns may follow, and a dot where there is room. -/
theorem GrammarPoint.next?_behindName_eq_none {room : Nat} {kind : TokenKind}
    (undotted : room = 0 ∨ kind ≠ .dot) (notSelect : kind ≠ .selectKeyword)
    : (behindName room).next? kind = none := by
  cases kind with
  | selectKeyword => exact absurd rfl notSelect
  | dot =>
      rw [undotted.resolve_right (not_not_intro rfl)]
      rfl
  | fromKeyword | identifier => cases room <;> rfl

/-- A rejected reading follows some tokens to a point and stops there, way by way. -/
theorem Statement.Ending.exists_stopsAt {tokens : List Token} {outcome : Outcome}
    (ending : Ending tokens outcome) {diagnostic : Diagnostic}
    (rejected : outcome.result = .error diagnostic)
    : ∃ front ahead point,
        tokens = front ++ ahead
        ∧ start.follow? (front.map Token.kind) = some point
        ∧ point.StopsAt ahead diagnostic := by
  cases ending with
  | atFrom missing =>
      obtain rfl := Except.error.inj rejected
      exact ⟨[], tokens, start, rfl, rfl, stopsAt_of_expect (by simp) (by simp) rfl missing⟩
  | @atTable keyword rest _ whole missing =>
      obtain rfl := Except.error.inj rejected
      refine ⟨[keyword.token], rest, behindFrom, whole, ?_,
        stopsAt_of_expect (by simp) (by simp) rfl missing⟩
      simp [keyword.kind_eq, next?]
  | @atPart clause dot rest _ whole inLimit missing =>
      obtain rfl := Except.error.inj rejected
      obtain ⟨room, hasRoom⟩ := Nat.exists_eq_add_of_lt inLimit
      have followed := clause.follow?_tokens (Nat.le_of_lt inLimit)
      rw [hasRoom, Nat.add_assoc, Nat.add_sub_cancel_left] at followed
      refine ⟨clause.tokens ++ [dot.token], rest, behindDot room, by simp [whole], ?_,
        stopsAt_of_expect (by simp) (by simp) rfl missing⟩
      rw [clause.map_kind_concat, follow?_append, followed]
      rfl
  | @atSelect clause rest _ whole inLimit undotted missing =>
      obtain rfl := Except.error.inj rejected
      refine ⟨clause.tokens, rest, _, whole, clause.follow?_tokens inLimit,
        .incomplete (by simp) (Option.isSome_of_eq_some (next?_selectKeyword _)) ?_ missing⟩
      intro found isAhead
      refine next?_behindName_eq_none ?_ (lacksAhead_of_expect missing found isAhead)
      exact undotted.imp (by omega) (fun lacks => lacks found isAhead)
  | @atColumn clause keyword rest _ whole inLimit missing =>
      obtain rfl := Except.error.inj rejected
      refine ⟨clause.tokens ++ [keyword.token], rest, behindSelect, by simp [whole], ?_,
        stopsAt_of_expect (by simp) (by simp) rfl missing⟩
      rw [clause.map_kind_concat, follow?_append, clause.follow?_tokens inLimit,
        Option.bind_some, follow?_cons, next?_selectKeyword]
      rfl
  | @behindColumns statement rest whole inLimit unnamed =>
      cases rest with
      | nil => cases rejected
      | cons found behind =>
          obtain rfl := Except.error.inj rejected
          refine ⟨statement.tokens, found :: behind, behindColumn, whole, ?_,
            .complete rfl rfl ?_⟩
          · exact statementKinds_iff.mp (statement.statementKinds inLimit)
          · have notName := unnamed found rfl
            cases kind : found.kind <;> simp [kind, next?] at notName ⊢

-----------------------------------------------------------------------------------------
-- Errors of whole texts
-----------------------------------------------------------------------------------------

/-- The first kind that no statement has behind the ones in front of it is at the least place
up to which the kinds begin no statement.
-/
theorem isLeast_of_not_begins {front : List TokenKind} {kind : TokenKind}
    (behind : List TokenKind) (begins : BeginsStatement front)
    (leaves : ¬ BeginsStatement (front ++ [kind]))
    : IsLeast {index | ¬ BeginsStatement ((front ++ kind :: behind).take (index + 1))}
        front.length := by
  constructor
  · simpa [List.take_append, List.take_of_length_le] using leaves
  · intro index (leavesEarlier : ¬ BeginsStatement _)
    by_contra earlier
    have inFront : index + 1 ≤ front.length := by omega
    rw [List.take_append_of_le_length inFront] at leavesEarlier
    exact leavesEarlier (begins.take (index + 1))

/-- A diagnostic reports the end of tokens that only begin a statement, and names a kind that
may follow them.
-/
structure Diagnostic.ReportsEnd (kinds : List TokenKind) (expected : TokenKind)
    (diagnostic : Diagnostic)
    : Prop where
  diagnostic_eq : diagnostic = .unexpectedEnd expected
  message_eq
    : diagnostic.message = s!"Unexpected end of tokens (expected: {expected.name})"
  span?_eq : diagnostic.span? = some .endOfInput
  isUnexpectedEnd : diagnostic.isUnexpectedEnd
  follows : BeginsStatement (kinds ++ [expected])

/-- A diagnostic reports the first token up to which tokens begin no statement, and names a
kind that may stand there, or the end of input if the tokens in front are a statement.
-/
structure Diagnostic.ReportsToken (tokens : List Token) (index : Nat) (found : Token)
    (expected : Expectation) (diagnostic : Diagnostic)
    : Prop where
  first : IsLeast {index | ¬ BeginsStatement ((tokens.map Token.kind).take (index + 1))} index
  found_eq : tokens[index]? = some found
  diagnostic_eq : diagnostic = .unexpectedToken expected found
  message_eq
    : diagnostic.message
      = s!"Unexpected token: {found.lexeme} (expected: {expected.display})"
  span?_eq : diagnostic.span? = some found.span
  isUnexpectedEnd : diagnostic.isUnexpectedEnd = false
  endExpected : expected = .endOfInput ↔ StatementKinds ((tokens.map Token.kind).take index)
  kindExpected
    : expected ≠ .endOfInput
      → ∃ kind,
          expected = .token kind
          ∧ BeginsStatement ((tokens.map Token.kind).take index ++ [kind])

/-- Kinds are those of a statement exactly if they lead behind a column. -/
theorem statementKinds_iff_of_follow? {kinds : List TokenKind} {point : GrammarPoint}
    (reached : start.follow? kinds = some point)
    : StatementKinds kinds ↔ point = behindColumn := by
  rw [statementKinds_iff, reached, Option.some.injEq]

theorem beginsStatement_of_follow? {kinds : List TokenKind} {point : GrammarPoint}
    (reached : start.follow? kinds = some point)
    : BeginsStatement kinds :=
  beginsStatement_iff.mpr (Option.isSome_of_eq_some reached)

namespace GrammarPoint.StopsAt

variable {front : List Token} {point : GrammarPoint} {diagnostic : Diagnostic}

/-- A reading stops at the end of the tokens only where more of them may follow. -/
theorem exists_reportsEnd (stops : point.StopsAt [] diagnostic)
    (reached : start.follow? (front.map Token.kind) = some point)
    : ¬ StatementKinds (front.map Token.kind)
      ∧ ∃ expected, diagnostic.ReportsEnd (front.map Token.kind) expected := by
  cases stops with
  | complete _ isAhead => cases isAhead
  | @incomplete kind _ unfinished awaited _ missing =>
      obtain rfl := Except.error.inj missing
      refine ⟨mt (statementKinds_iff_of_follow? reached).mp unfinished, kind, rfl, rfl, rfl,
        ?_, ?_⟩
      · exact isUnexpectedEnd_unexpectedEnd kind
      · exact (beginsStatement_concat_iff reached kind).mpr awaited

/-- A reading that stops in front of a token names a kind that may stand there instead, or the
end of input where nothing has to follow.
-/
theorem exists_expectation {found : Token} {behind : List Token}
    (stops : point.StopsAt (found :: behind) diagnostic)
    : point.next? found.kind = none
      ∧ ∃ expected,
          diagnostic = .unexpectedToken expected found
          ∧ (expected = .endOfInput ↔ point = behindColumn)
          ∧ (expected ≠ .endOfInput
            → ∃ kind, expected = .token kind ∧ (point.next? kind).isSome) := by
  cases stops with
  | @incomplete kind _ unfinished awaited leaves missing =>
      refine ⟨leaves found rfl, .token kind, ?_, by simp [unfinished], ?_⟩
      · rcases expect_eq_error_iff.mp missing with ⟨impossible, _⟩ | ⟨_, _, same, _, rejected⟩
        · cases impossible
        · rw [(List.cons.inj same).1, rejected]
      · exact fun _ => ⟨kind, rfl, awaited⟩
  | complete finished isAhead leaves =>
      obtain rfl := Option.some.inj isAhead
      exact ⟨leaves, .endOfInput, rfl, by simp [finished], absurd rfl⟩

/-- A reading stops in front of a token only if no statement has it there. -/
theorem exists_reportsToken {found : Token} {behind : List Token}
    (stops : point.StopsAt (found :: behind) diagnostic)
    (reached : start.follow? (front.map Token.kind) = some point)
    (placed : found.span ≠ Span.endOfInput)
    : ∃ expected,
        diagnostic.ReportsToken (front ++ found :: behind) front.length found expected := by
  obtain ⟨leaves, expected, rfl, endExpected, kindExpected⟩ := stops.exists_expectation
  have notBegun : ¬ BeginsStatement (front.map Token.kind ++ [found.kind]) := by
    rw [beginsStatement_concat_iff reached, leaves]
    exact nofun
  have first := isLeast_of_not_begins (behind.map Token.kind)
    (beginsStatement_of_follow? reached) notBegun
  have inFront : ((front ++ found :: behind).map Token.kind).take front.length
      = front.map Token.kind := by
    simp
  refine ⟨expected, {
    first := by simpa using first
    found_eq := by simp
    diagnostic_eq := rfl
    message_eq := rfl
    span?_eq := rfl
    isUnexpectedEnd := by simp [Diagnostic.isUnexpectedEnd, Diagnostic.span?, placed]
    endExpected := by rw [inFront, endExpected, statementKinds_iff_of_follow? reached]
    kindExpected := ?_
  }⟩
  intro notEnd
  obtain ⟨kind, same, awaited⟩ := kindExpected notEnd
  rw [inFront]
  exact ⟨kind, same, (beginsStatement_concat_iff reached kind).mpr awaited⟩

end GrammarPoint.StopsAt

end TableQuery
