import TableQuery.Proofs.Answers.Traversals
import TableQuery.Proofs.Reading.ParserRuns

/-! Reading does not look at the places of tokens.
Tokens can be given new places before they are read or afterwards, with the same outcome: the
reader only compares kinds, and places go along with the tokens wherever these end up.
-/

namespace TableQuery

/-- New places for what begins and for what ends at the old ones. -/
structure Respacing where
  start : Position → Position
  stop : Position → Position

namespace Respacing

variable (places : Respacing) {kind : TokenKind}

def span (old : Span) : Span where
  start := places.start old.start
  stop := places.stop old.stop

def token (old : Token) : Token :=
  { old with span := places.span old.span }

def known (old : TokenOf kind) : TokenOf kind where
  token := places.token old.token
  kind_eq := old.kind_eq

def dotted (old : DottedPart) : DottedPart where
  dot := places.known old.dot
  part := places.known old.part

def reference (table : TableRef) : TableRef where
  first := places.known table.first
  more := table.more.map places.dotted

def fromClause (clause : FromClause) : FromClause where
  keyword := places.known clause.keyword
  table := places.reference clause.table

def selectClause (clause : SelectClause) : SelectClause where
  keyword := places.known clause.keyword
  first := places.known clause.first
  more := clause.more.map places.known

def statement (old : Statement) : Statement where
  fromClause := places.fromClause old.fromClause
  selectClause := places.selectClause old.selectClause

/-- The end of input has no place in a text, so it is not moved. -/
def diagnostic : Diagnostic → Diagnostic
  | .unmatchedLexeme lexeme span => .unmatchedLexeme lexeme (places.span span)
  | .unterminatedQuote lexeme span => .unterminatedQuote lexeme (places.span span)
  | .unexpectedToken expected found => .unexpectedToken expected (places.token found)
  | .unexpectedEnd expected => .unexpectedEnd expected
  | .semantic fault span => .semantic fault (span.map places.span)
  | .logical fault => .logical fault

def progress : Progress → Progress
  | .fromKeyword => .fromKeyword
  | .table partsRead => .table (partsRead.map places.reference)
  | .selectKeyword table => .selectKeyword (places.reference table)
  | .columns table columnsRead =>
      .columns (places.reference table) (columnsRead.map places.known)

def outcome (old : Outcome) : Outcome where
  result := (old.result.mapError places.diagnostic).map places.statement
  progress := places.progress old.progress

-----------------------------------------------------------------------------------------
-- What places do not change
-----------------------------------------------------------------------------------------

@[simp]
theorem stage_diagnostic (diagnostic : Diagnostic)
    : (places.diagnostic diagnostic).stage = diagnostic.stage := by
  cases diagnostic <;> rfl

@[simp]
theorem message_diagnostic (diagnostic : Diagnostic)
    : (places.diagnostic diagnostic).message = diagnostic.message := by
  cases diagnostic <;> rfl

@[simp]
theorem name_known (identifier : Identifier)
    : (places.known identifier).name = identifier.name :=
  rfl

@[simp]
theorem parts_reference (table : TableRef)
    : (places.reference table).parts = table.parts.map places.known := by
  simp [reference, TableRef.parts, dotted, Function.comp_def]

@[simp]
theorem names_reference (table : TableRef)
    : (places.reference table).names = table.names := by
  simp [TableRef.names, Function.comp_def]

@[simp]
theorem tokens_reference (table : TableRef)
    : (places.reference table).tokens = table.tokens.map places.token := by
  simp [reference, TableRef.tokens, dotted, known, List.flatMap_map, List.map_flatMap]

theorem reference_push (table : TableRef) (dot : TokenOf .dot) (part : Identifier)
    : places.reference (table.push dot part)
      = (places.reference table).push (places.known dot) (places.known part) := by
  simp [reference, TableRef.push, dotted]

-----------------------------------------------------------------------------------------
-- Reading moved tokens
-----------------------------------------------------------------------------------------

theorem expect_map (kind : TokenKind) (tokens : List Token)
    : expect kind (tokens.map places.token)
      = ((expect kind tokens).mapError places.diagnostic).map
          (Prod.map places.known (List.map places.token)) := by
  cases tokens with
  | nil => rfl
  | cons token rest =>
      by_cases same : token.kind = kind
      · simp only [List.map_cons, expect, dif_pos same]
        exact dif_pos same
      · simp only [List.map_cons, expect, dif_neg same]
        exact dif_neg same

/-- Further names are read from moved tokens as from the old ones, by induction on the
limit.
-/
theorem readMore_map (table : TableRef) (limit : Nat) (tokens : List Token)
    : (places.reference table).readMore limit (tokens.map places.token)
      = ((table.readMore limit tokens).mapError
          (Prod.map places.diagnostic places.reference)).map
          (Prod.map places.reference (List.map places.token)) := by
  induction limit generalizing table tokens with
  | zero => rfl
  | succ limit ih =>
      rw [TableRef.readMore, TableRef.readMore, expect_map]
      cases expect .dot tokens with
      | error diagnostic => rfl
      | ok taken =>
          obtain ⟨dot, afterDot⟩ := taken
          simp only [mapError_ok, Except.map, Prod.map, expect_map]
          cases expect .identifier afterDot with
          | error diagnostic => rfl
          | ok taken =>
              obtain ⟨part, afterPart⟩ := taken
              simp only [mapError_ok, ← reference_push]
              exact ih (table.push dot part) afterPart

theorem read_reference_map (tokens : List Token)
    : TableRef.read (tokens.map places.token)
      = ((TableRef.read tokens).mapError
          (Prod.map places.diagnostic (Option.map places.reference))).map
          (Prod.map places.reference (List.map places.token)) := by
  rw [TableRef.read, TableRef.read, expect_map]
  cases expect .identifier tokens with
  | error diagnostic => rfl
  | ok taken =>
      obtain ⟨first, rest⟩ := taken
      have single : TableRef.single (places.known first)
          = places.reference (TableRef.single first) :=
        rfl
      simp only [mapError_ok, Except.map, Prod.map, single, readMore_map]
      cases (TableRef.single first).readMore (TableRef.maxParts - 1) rest <;> rfl

/-- Identifiers are split off moved tokens as off the old ones, by induction over them. -/
theorem splitIdentifiers_map (tokens : List Token)
    : splitIdentifiers (tokens.map places.token)
      = Prod.map (List.map places.known) (List.map places.token)
          (splitIdentifiers tokens) := by
  induction tokens with
  | nil => rfl
  | cons token rest ih =>
      have sameKind : (places.token token).kind = token.kind := rfl
      rw [List.map_cons, splitIdentifiers, splitIdentifiers, ih]
      by_cases isIdentifier : token.kind = .identifier
      · rw [dif_pos isIdentifier, dif_pos (sameKind.trans isIdentifier)]
        rfl
      · rw [dif_neg isIdentifier, dif_neg (sameKind ▸ isIdentifier)]
        rfl

/-- The outcome of reading moved tokens is the moved outcome of reading them. -/
theorem read_map (tokens : List Token)
    : Statement.read (tokens.map places.token) = places.outcome (Statement.read tokens) := by
  rw [Statement.read, Statement.read, expect_map]
  cases expect .fromKeyword tokens with
  | error diagnostic => rfl
  | ok taken =>
  obtain ⟨fromKeyword, afterFrom⟩ := taken
  simp only [mapError_ok, Except.map, Prod.map, read_reference_map]
  cases TableRef.read afterFrom with
  | error fault => rfl
  | ok taken =>
  obtain ⟨table, afterTable⟩ := taken
  simp only [mapError_ok, Except.map, Prod.map, expect_map]
  cases expect .selectKeyword afterTable with
  | error diagnostic => rfl
  | ok taken =>
  obtain ⟨selectKeyword, afterSelect⟩ := taken
  simp only [mapError_ok, Except.map, Prod.map, expect_map]
  cases expect .identifier afterSelect with
  | error diagnostic => rfl
  | ok taken =>
  obtain ⟨first, afterFirst⟩ := taken
  simp only [mapError_ok, Prod.map, splitIdentifiers_map]
  cases (splitIdentifiers afterFirst).2 <;> rfl

end Respacing

end TableQuery
