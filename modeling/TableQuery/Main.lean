import TableQuery.Invocation
import TableQuery.Json.Standard

/-! The command line.
It reads what the command needs from the file system and from standard input, and leaves all
else to the command.
-/

namespace TableQuery

/-- The system's own words for a failed call. -/
def systemReason : IO.Error → String
  | .noFileOrDirectory _ _ _ => "No such file or directory (os error 2)"
  | .permissionDenied _ code _ => s!"Permission denied (os error {code})"
  | .inappropriateType _ code _ => s!"Is a directory (os error {code})"
  | error => toString error

/-- The bytes of a file, or the reason for which it cannot be read. -/
def readFile (path : String) : IO (Except String ByteArray) := do
  try
    return .ok (← IO.FS.readBinFile path)
  catch error =>
    return .error (systemReason error)

/-- All of standard input. -/
def readInput : IO ByteArray := do
  (← IO.getStdin).readBinToEnd

/-- The name under which the program was started. -/
def programName : IO String := do
  return (← IO.appPath).fileStem.getD "tablequery"

/-- Where the catalog is looked for: at the given path, or at the one in the environment
variable named after the program, or in the current directory.
-/
def catalogPath (program : String) (given : Option String) : IO String := do
  match given with
  | some path => return path
  | none =>
      let name := program.map (fun c => if c = '-' then '_' else c.toUpper)
      return (← IO.getEnv (name ++ "_CATALOG")).getD "catalog.json"

end TableQuery

open TableQuery in
/-- Carries out one command and returns its exit code. -/
def main (arguments : List String) : IO UInt32 := do
  let program ← programName
  match Invocation.ofArguments? none false arguments with
  | none =>
      IO.eprint (Invocation.usage program)
      return 2
  | some invocation =>
      let command := invocation.command
      let source ← match invocation.statement with
        | some text => pure (TextSource.argument text)
        | none =>
            if command.takesText then TextSource.standardInput <$> readInput
            else pure (TextSource.argument "")
      let path ← catalogPath program invocation.catalogPath
      let content ←
        if command.takesCatalog then readFile path else pure (.ok ByteArray.empty)
      let library := JsonLibrary.standard
      let loaded := DocumentCatalog.ofFile library path content
      let report := command.perform library source loaded
      IO.print report.stdout
      IO.eprint report.stderr
      return report.exitCode.toUInt32
