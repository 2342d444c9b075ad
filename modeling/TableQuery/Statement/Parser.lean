import TableQuery.Diagnostic
import TableQuery.Statement.Context

/-! Parsing tokens into a statement by recursive descent.
The grammar is `FROM name (. name (. name)?)? SELECT name+` with nothing behind it.  Each rule
first records that it is entered, so the context tells how far parsing got.
-/

namespace TableQuery

/-- The tokens that are still ahead of a parser, and what it remembers. -/
structure ParserState where
  ahead : List Token
  context : ParseContext

/-- Whether the token ahead is of the given kind. -/
def ParserState.isAhead (state : ParserState) (kind : TokenKind) : Bool :=
  state.ahead.head?.any (·.kind == kind)

/-- A parser fails with a diagnostic and keeps its state then. -/
abbrev StatementParser := EStateM Diagnostic ParserState

namespace TableRef

/-- The most names a reference may have. -/
def maxParts : Nat := 3

@[simp]
theorem length_parts_push (table : TableRef) (dot : TokenOf .dot) (part : Identifier)
    : (table.push dot part).parts.length = table.parts.length + 1 := by
  simp [parts, push]

end TableRef

namespace StatementParser

-----------------------------------------------------------------------------------------
-- Single steps
-----------------------------------------------------------------------------------------

/-- Records that a grammar rule is entered. -/
def enter (rule : NodeKind) : StatementParser Unit :=
  modify (fun state => { state with context := state.context.enter rule })

/-- Records the table reference as far as it is parsed. -/
def recordTable (table : TableRef) : StatementParser Unit :=
  modify (fun state => { state with context := { state.context with table := some table } })

/-- Looks at the kind of the token ahead and leaves the token there. -/
def check (kind : TokenKind) : StatementParser Bool := do
  return (← get).isAhead kind

/-- Takes the token ahead, whatever it is. -/
def next? : StatementParser (Option Token) :=
  modifyGet (fun state => (state.ahead.head?, { state with ahead := state.ahead.tail }))

/-- Takes the token ahead, which has to be of the given kind. -/
def expect (kind : TokenKind) : StatementParser (TokenOf kind) := fun state =>
  match state.ahead with
  | [] => .error (.unexpectedEnd kind) state
  | token :: rest =>
      if kind_eq : token.kind = kind then
        .ok { token, kind_eq } { state with ahead := rest }
      else
        .error (.unexpectedToken (.token kind) token) state

/-- A token that is taken leaves the tokens behind it. -/
theorem ahead_of_expect {kind : TokenKind} {state after : ParserState}
    {known : TokenOf kind} (taken : expect kind state = .ok known after)
    : state.ahead = known.token :: after.ahead := by
  unfold expect at taken
  split at taken
  · cases taken
  rename_i token rest ahead
  split at taken
  · cases taken
    exact ahead
  · cases taken

/-- Takes an identifier. -/
def expectIdentifier : StatementParser Identifier := do
  let known ← expect .identifier
  match Identifier.ofToken? known.token with
  | some identifier => return identifier
  | none => throw (.logical .identifierWithoutName)

/-- Every token of an identifier stands for a name, so no other fault is possible here. -/
theorem expectIdentifier_eq : expectIdentifier = expect .identifier := by
  simp [expectIdentifier]

-----------------------------------------------------------------------------------------
-- The clauses
-----------------------------------------------------------------------------------------

/-- Goes on with a reference while a dot is ahead and more names are allowed. -/
def moreParts (table : TableRef) : StatementParser TableRef := do
  if _inLimit : table.parts.length < TableRef.maxParts then
    if ← check .dot then
      let dot ← expect .dot
      let part ← expectIdentifier
      recordTable (table.push dot part)
      moreParts (table.push dot part)
    else
      return table
  else
    return table
termination_by TableRef.maxParts - table.parts.length
decreasing_by
  rw [TableRef.length_parts_push]
  omega

def tableRef : StatementParser TableRef := do
  enter .table
  let first ← expectIdentifier
  recordTable (.single first)
  moreParts (.single first)

def fromClause : StatementParser FromClause := do
  enter .fromClause
  let keyword ← expect .fromKeyword
  let table ← tableRef
  return { keyword, table }

def column : StatementParser Identifier := do
  enter .column
  expectIdentifier

theorem column_eq (state : ParserState)
    : column state
      = expect .identifier { state with context := state.context.enter .column } := by
  rw [← expectIdentifier_eq]
  rfl

/-- A column that is parsed takes a token. -/
theorem length_ahead_of_column {state after : ParserState} {identifier : Identifier}
    (parsed : column state = .ok identifier after)
    : after.ahead.length < state.ahead.length := by
  rw [column_eq] at parsed
  have taken := ahead_of_expect parsed
  dsimp only at taken
  simp [taken]

/-- Goes on with the columns while an identifier is ahead. -/
def moreColumns (columns : List Identifier) : StatementParser (List Identifier) := fun state =>
  if state.isAhead .identifier then
    match _parsed : column state with
    | .ok identifier after => moreColumns (columns ++ [identifier]) after
    | .error diagnostic after => .error diagnostic after
  else
    .ok columns state
termination_by state => state.ahead.length
decreasing_by exact length_ahead_of_column _parsed

/-- A column list has one column at least. -/
def columnList : StatementParser (Identifier × List Identifier) := do
  enter .columnList
  let first ← column
  let more ← moreColumns []
  return (first, more)

def selectClause : StatementParser SelectClause := do
  enter .selectClause
  let keyword ← expect .selectKeyword
  let (first, more) ← columnList
  return { keyword, first, more }

def clauses : StatementParser Statement := do
  enter .statement
  let fromClause ← fromClause
  let selectClause ← selectClause
  return { fromClause, selectClause }

/-- A statement has to span all tokens. -/
def statement : StatementParser Statement := do
  let statement ← clauses
  match ← next? with
  | none => return statement
  | some extra => throw (.unexpectedToken .endOfInput extra)

end StatementParser

/-- A statement or the diagnostic that rejects it, and how far parsing got. -/
structure ParseOutcome where
  result : Except Diagnostic Statement
  context : ParseContext

namespace Statement

/-- Parses a token list as one statement; the context is kept after a failure too. -/
def parse (tokens : List Token) : ParseOutcome :=
  match StatementParser.statement { ahead := tokens, context := { } } with
  | .ok statement state => { result := .ok statement, context := state.context }
  | .error diagnostic state => { result := .error diagnostic, context := state.context }

/-- The statement that a token list spells, without the context of its parsing. -/
def ofTokens? (tokens : List Token) : Except Diagnostic Statement :=
  (parse tokens).result

end Statement

end TableQuery
