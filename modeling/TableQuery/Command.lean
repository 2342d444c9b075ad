import TableQuery.Catalog.Document
import TableQuery.Completion
import TableQuery.Statement.Tree
import TableQuery.Text.Blank

/-! The commands of the command line, as functions from what they read to what they print. -/

namespace TableQuery

/-- What the command line can be asked for. -/
inductive Command where
  | run (traced : Bool)
  | suggest
  | tokens
  | tables
deriving DecidableEq

/-- Where the text of a statement comes from. -/
inductive TextSource where
  | argument (text : String)
  | standardInput (bytes : ByteArray)

/-- Why a command failed. -/
inductive CommandError where
  | catalog (error : LoadError)
  | statement (diagnostic : Diagnostic)
  | noStatement
  | unreadableInput (reason : String)
  | unwritten (reason : String)

namespace CommandError

def message : CommandError → String
  | catalog error => error.message
  | statement diagnostic => diagnostic.display
  | noStatement => "no statement given (pass one as an argument or on stdin)"
  | unreadableInput reason => s!"IO error: {reason}"
  | unwritten reason => s!"Serialization error: {reason}"

/-- What lies behind an error, where it has a cause of its own. -/
def cause? : CommandError → Option String
  | catalog error => some error.cause
  | unreadableInput reason | unwritten reason => some reason
  | statement _ | noStatement => none

/-- The text that reports an error: one line for a rejected statement, and a second
paragraph for the cause of any other error.
-/
def report : CommandError → String
  | statement diagnostic => s!"error: {diagnostic.display}\n"
  | error =>
      let cause := error.cause?.elim "" (fun cause => s!"\nCaused by:\n    {cause}\n")
      s!"Error: {error.message}\n" ++ cause

end CommandError

/-- What a finished command leaves behind. -/
structure Report where
  exitCode : Nat
  stdout : String
  stderr : String
deriving DecidableEq

namespace Report

/-- A command that printed and met no error. -/
def success (stdout : String) : Report where
  exitCode := 0
  stdout
  stderr := ""

/-- A command that met an error after it had printed something. -/
def failure (stdout : String) (error : CommandError) : Report where
  exitCode := 1
  stdout
  stderr := error.report

end Report

/-- The text without one line end at its end. -/
def stripLineEnd (text : List Char) : List Char :=
  if ['\r', '\n'].isSuffixOf text then text.take (text.length - 2)
  else if ['\n'].isSuffixOf text then text.dropLast
  else text

namespace TextSource

/-- The text itself: an argument as it is, and standard input without its last line end. -/
def text : TextSource → Except CommandError String
  | argument text => .ok text
  | standardInput bytes =>
      match String.fromUTF8? bytes with
      | some text => .ok (String.ofList (stripLineEnd text.toList))
      | none => .error (.unreadableInput "stream did not contain valid UTF-8")

/-- The text of a statement, which may not be blank. -/
def statementText (source : TextSource) : Except CommandError String :=
  match source.text with
  | .error error => .error error
  | .ok text => if Text.isBlank text then .error .noStatement else .ok text

end TextSource

namespace Command

/-- Each text on a line of its own. -/
def lines (texts : List String) : String :=
  String.join (texts.map (· ++ "\n"))

/-- A headed part of a traced run. -/
def traceSection (title content : String) : String :=
  s!"{title}\n\n{content}\n"

/-- The parts of a traced run that come before its results, up to the stage that failed. -/
def traceSections (text : String) (trace : Trace) : String :=
  traceSection "STATEMENT" (text ++ "\n")
    ++ trace.tokens.elim "" (fun tokens =>
      traceSection "TOKENS" (String.intercalate " " (tokens.map Token.display) ++ "\n"))
    ++ trace.statement.elim "" (fun statement =>
      traceSection "SYNTAX TREE" statement.display)

/-- Answers a statement with rows in indented form and reports their number. -/
def runPlain (library : JsonLibrary) (catalog : Catalog) (text : String) : Report :=
  match catalog.execute text with
  | .error diagnostic => .failure "" (.statement diagnostic)
  | .ok result =>
      match library.writeIndented result.toJson with
      | .error reason => .failure "" (.unwritten reason)
      | .ok written => {
          exitCode := 0
          stdout := written ++ "\n"
          stderr := s!" INFO {result.rows.length} row(s)\n"
        }

/-- Answers a statement and shows every stage on the way. -/
def runTraced (library : JsonLibrary) (catalog : Catalog) (text : String) : Report :=
  let trace := catalog.trace text
  let before := traceSections text trace
  match trace.result with
  | .error diagnostic => .failure before (.statement diagnostic)
  | .ok result =>
      match library.writeIndented result.toJson with
      | .error reason => .failure before (.unwritten reason)
      | .ok written => .success (before ++ traceSection "RESULTS" written)

/-- The listing of a text's tokens with their places. -/
def listTokens (text : String) : Report :=
  match tokensOf text with
  | .error diagnostic => .failure "" (.statement diagnostic)
  | .ok listed =>
      .success (lines (listed.map (fun token => s!"{token.display}\t{token.span.display}")))

/-- Completion candidates, one on each line. -/
def listCandidates (catalog : Catalog) (text : String) : Report :=
  match catalog.suggest text with
  | .error diagnostic => .failure "" (.statement diagnostic)
  | .ok candidates => .success (lines candidates)

/-- Goes on with a value, or reports the error that came in its place. -/
def continueWith {α : Type} (value : Except CommandError α) (next : α → Report) : Report :=
  match value with
  | .error error => .failure "" error
  | .ok value => next value

/-- Whether a command reads a text. -/
def takesText : Command → Bool
  | run _ | suggest | tokens => true
  | tables => false

/-- Whether a command reads the catalog. -/
def takesCatalog : Command → Bool
  | run _ | suggest | tables => true
  | tokens => false

/-- Carries a command out.  The text is looked at before the catalog. -/
def perform (library : JsonLibrary) (command : Command) (source : TextSource)
    (loaded : Except LoadError DocumentCatalog)
    : Report :=
  let catalog := (loaded.map DocumentCatalog.toCatalog).mapError CommandError.catalog
  match command with
  | run traced =>
      continueWith source.statementText (fun text =>
        continueWith catalog (fun catalog =>
          if traced then runTraced library catalog text else runPlain library catalog text))
  | suggest =>
      continueWith source.text (fun text =>
        continueWith catalog (fun catalog => listCandidates catalog text))
  | tokens => continueWith source.statementText listTokens
  | tables =>
      continueWith catalog (fun catalog =>
        .success (lines (catalog.tablePaths.map TablePath.display)))

end Command

end TableQuery
