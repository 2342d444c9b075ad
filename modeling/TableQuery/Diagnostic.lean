import TableQuery.Token
import TableQuery.TablePath

/-! The reasons for which a statement is rejected.
Each reason keeps what it is about; wording and place are computed from it, so a reader of a
diagnostic never has to take a message apart.
-/

namespace TableQuery

/-- What the reader of a statement was ready to accept. -/
inductive Expectation where
  | token (kind : TokenKind)
  | endOfInput
  | described (text : String)
deriving DecidableEq

namespace Expectation

def display : Expectation → String
  | token kind => kind.name
  | endOfInput => "end of input"
  | described text => text

end Expectation

/-- A name that the catalog does not settle. -/
inductive NameFault where
  | unknownTable (table : String)
  | ambiguousTable (table : String)
  | unknownSchema (schema : String)
  | ambiguousSchema (schema : String)
  | unknownTableInSchema (table schema : String)
  | unknownDatabase (database : String)
  | unknownSchemaInDatabase (schema database : String)
  | unknownTableInDatabase (table schema database : String)
  | unknownColumn (column : String)
  | described (text : String)
deriving DecidableEq

namespace NameFault

def message : NameFault → String
  | unknownTable table => s!"Unknown table '{table}'"
  | ambiguousTable table =>
      s!"Multiple tables with name '{table}'. Schema name must be provided"
  | unknownSchema schema => s!"Unknown schema '{schema}'"
  | ambiguousSchema schema =>
      s!"Multiple schemas with name '{schema}'. Catalog name must be provided"
  | unknownTableInSchema table schema => s!"Unknown table '{table}' in schema '{schema}'"
  | unknownDatabase database => s!"Unknown database '{database}'"
  | unknownSchemaInDatabase schema database =>
      s!"Unknown schema '{schema}' in database '{database}'"
  | unknownTableInDatabase table schema database =>
      s!"Unknown table '{table}' in schema '{schema}' of database '{database}'"
  | unknownColumn column => s!"Unknown column '{column}'"
  | described text => text

end NameFault

/-- A broken promise between the parts of the program or of a catalog. -/
inductive InternalFault where
  | identifierWithoutName
  | columnsWithoutTable
  | unrecognizedReference
  | missingRows (path : TablePath)
  | described (text : String)
deriving DecidableEq

namespace InternalFault

def message : InternalFault → String
  | identifierWithoutName => "identifier token without a value"
  | columnsWithoutTable => "column list parsed without a table"
  | unrecognizedReference => "Unrecognized table identifier"
  | missingRows path => s!"resolved table '{path.display}' has no rows"
  | described text => text

end InternalFault

/-- The stage that rejected a statement. -/
inductive Stage where
  | lexical
  | syntactic
  | semantic
  | logical
deriving DecidableEq

namespace Stage

/-- The first word of a displayed diagnostic. -/
def word : Stage → String
  | lexical => "lexical"
  | syntactic => "syntactic"
  | semantic => "semantic"
  | logical => "logical"

end Stage

/-- Why a statement was rejected, and where. -/
inductive Diagnostic where
  | unmatchedLexeme (lexeme : String) (span : Span)
  | unterminatedQuote (lexeme : String) (span : Span)
  | unexpectedToken (expected : Expectation) (found : Token)
  | unexpectedEnd (expected : TokenKind)
  | semantic (fault : NameFault) (span : Option Span)
  | logical (fault : InternalFault)
deriving DecidableEq

namespace Diagnostic

/-- A rejected token, with the caller's words for what was expected. -/
def ofExpectedText (expected : String) (found : Token) : Diagnostic :=
  .unexpectedToken (.described expected) found

/-- A rejected name in the caller's words. -/
def ofSemanticText (text : String) (span : Option Span) : Diagnostic :=
  .semantic (.described text) span

/-- A broken promise in the caller's words. -/
def ofLogicalText (text : String) : Diagnostic :=
  .logical (.described text)

def stage : Diagnostic → Stage
  | unmatchedLexeme _ _ | unterminatedQuote _ _ => .lexical
  | unexpectedToken _ _ | unexpectedEnd _ => .syntactic
  | semantic _ _ => .semantic
  | logical _ => .logical

/-- What is wrong, without the place. -/
def message : Diagnostic → String
  | unmatchedLexeme lexeme _ => s!"No matching token for lexeme '{lexeme}'"
  | unterminatedQuote lexeme _ => s!"Unterminated quoted identifier '{lexeme}'"
  | unexpectedToken expected found =>
      s!"Unexpected token: {found.lexeme} (expected: {expected.display})"
  | unexpectedEnd expected => s!"Unexpected end of tokens (expected: {expected.name})"
  | semantic fault _ => fault.message
  | logical fault => fault.message

/-- The place that a diagnostic points at, if it points at one. -/
def span? : Diagnostic → Option Span
  | unmatchedLexeme _ span | unterminatedQuote _ span => some span
  | unexpectedToken _ found => some found.span
  | unexpectedEnd _ => some Span.endOfInput
  | semantic _ span => span
  | logical _ => none

/-- Stage, place and message in one line. -/
def display (diagnostic : Diagnostic) : String :=
  let place := diagnostic.span?.elim "" (fun span => " " ++ span.display)
  s!"{diagnostic.stage.word} error{place}: {diagnostic.message}"

/-- A known expectation is displayed as its words are. -/
theorem display_ofExpectedText (expected : Expectation) (found : Token)
    : (ofExpectedText expected.display found).display
      = (unexpectedToken expected found).display :=
  rfl

/-- A known fault of a name is displayed as its words are. -/
theorem display_ofSemanticText (fault : NameFault) (span : Option Span)
    : (ofSemanticText fault.message span).display = (semantic fault span).display :=
  rfl

/-- A known broken promise is displayed as its words are. -/
theorem display_ofLogicalText (fault : InternalFault)
    : (ofLogicalText fault.message).display = (logical fault).display :=
  rfl

/-- Whether the tokens ran out before the statement was complete, that is, whether a
syntactic diagnostic points at the end of input.
-/
def isUnexpectedEnd (diagnostic : Diagnostic) : Bool :=
  diagnostic.stage == .syntactic && diagnostic.span? == some Span.endOfInput

end Diagnostic

end TableQuery
