import TableQuery.Command

/-! Reading command-line arguments.
Options of the program stand before the command and options of a command behind it.  What
follows two dashes is a text, whatever it looks like.
-/

namespace TableQuery

/-- What one run of the program is asked to do. -/
structure Invocation where
  catalogPath : Option String
  verbose : Bool
  command : Command
  statement : Option String
deriving DecidableEq

namespace Invocation

/-- Whether an argument can only be an option. -/
def looksLikeOption (argument : String) : Bool :=
  match argument.toList with
  | '-' :: _ :: _ => true
  | _ => false

/-- What follows a given beginning of an argument. -/
def after? (beginning argument : String) : Option String :=
  if beginning.toList.isPrefixOf argument.toList then
    some (String.ofList (argument.toList.drop beginning.length))
  else
    none

/-- Reads the arguments behind a command: at most one text, and the trace option of `run`. -/
def ofCommandArguments? (invocation : Invocation) : List String → Option Invocation
  | [] => some invocation
  | "--" :: rest =>
      match rest, invocation.statement, invocation.command.takesText with
      | [], _, _ => some invocation
      | [text], none, true => some { invocation with statement := some text }
      | _, _, _ => none
  | argument :: rest =>
      if argument = "--trace" then
        if invocation.command = .run false then
          { invocation with command := .run true }.ofCommandArguments? rest
        else
          none
      else if looksLikeOption argument || invocation.statement.isSome
          || !invocation.command.takesText then
        none
      else
        { invocation with statement := some argument }.ofCommandArguments? rest

/-- The command of a name, without its options. -/
def command? : String → Option Command
  | "run" => some (.run false)
  | "suggest" => some .suggest
  | "tokens" => some .tokens
  | "tables" => some .tables
  | _ => none

/-- Reads arguments from the first one on, given the options read before them. -/
def ofArguments? (catalogPath : Option String) (verbose : Bool)
    : List String → Option Invocation
  | [] => none
  | argument :: rest =>
      if argument = "-v" ∨ argument = "--verbose" then
        if verbose then none else ofArguments? catalogPath true rest
      else if argument = "-c" ∨ argument = "--catalog" then
        match catalogPath, rest with
        | none, path :: behind => ofArguments? (some path) verbose behind
        | _, _ => none
      else
        match catalogPath, after? "--catalog=" argument with
        | none, some path => ofArguments? (some path) verbose rest
        | some _, some _ => none
        | _, none =>
            (command? argument).bind (fun command =>
              let invocation : Invocation :=
                { catalogPath, verbose, command, statement := none }
              invocation.ofCommandArguments? rest)

/-- How the program is called. -/
def usage (program : String) : String :=
  s!"Usage: {program} [OPTIONS] <COMMAND>\n"
    ++ "\nCommands:\n"
    ++ "  run [--trace] [STATEMENT]  Execute a statement and print the rows as JSON\n"
    ++ "  suggest [PARTIAL]          Print completion candidates for a partial statement\n"
    ++ "  tokens [STATEMENT]         Print the tokens of a statement with their locations\n"
    ++ "  tables                     List every table in the catalog\n"
    ++ "\nOptions:\n"
    ++ "  -c, --catalog <CATALOG>    Catalog document [default: catalog.json]\n"
    ++ "  -v, --verbose              Enable verbose output\n"

end Invocation

end TableQuery
