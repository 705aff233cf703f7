import Depot.Console.Run

/-!
# The program

The command line. It takes in the arguments, the variables and the local files that a run looks at,
runs it, and writes what comes of it. There is no network here: every request is lost.
-/

set_option autoImplicit false

namespace Depot.Console

/-- What is shown to those who ask for help. -/
def helpText : String :=
  "\n".intercalate
    ["Usage: depot [OPTIONS] <COMMAND>",
     "",
     "Commands:",
     "  ls [-r] [PATH]                     list objects and directories",
     "  cat PATH                           write an object to the standard output",
     "  put LOCAL REMOTE                   upload a local file",
     "  stat PATH                          show the size of an object and when it was changed",
     "  rm [--object-disk] PATH            delete an object",
     "  cp-object BUCKET KEY TARGET        copy an object to the root of disk objects",
     "  kind                               show the kind of the store",
     "",
     "Options:",
     "  --config PATH, --bucket NAME, --endpoint URL, --debug, --json, --no-color,",
     "  -q, --quiet, -v, --verbose, -h, --help, -V, --version"]

/-- The text for arguments that do not make up a command. -/
def UsageError.text : UsageError → String
  | help => helpText
  | version => "depot 0.1.0"
  | nothingGiven => helpText
  | missingCommand => "error: a command is required"
  | unknownCommand => "error: there is no such command"
  | unknownArgument => "error: unexpected argument"
  | missingArgument => "error: a required argument is missing"
  | invalidValue => "error: invalid value"
  | conflict => "error: an option is given more than once"
  | tooManyValues => "error: an option takes no value"

/-- The variables that a run looks at. -/
def knownVariables : List String :=
  [Config.directoryVariable, "XDG_CONFIG_HOME", "HOME"] ++
    Invocation.globalOptions.filterMap (·.variableName)

/-- The failure of looking at a local file. -/
def ioErrorOf : IO.Error → IoError
  | .noFileOrDirectory _ _ _ => .missingFile
  | .inappropriateType _ code _ => if code = 20 then .throughFile else .readDirectory
  | .permissionDenied _ _ _ => ⟨.permissionDenied, some "Permission denied (os error 13)"⟩
  | e => ⟨.other, some e.toString⟩

/-- What is found under a path. A directory is told by the failure to read it. -/
def look (path : String) : BaseIO (Except IoError LocalNode) := do
  if path.contains '\x00' then pure (.error .zeroInPath)
  else
    match ← (IO.FS.readBinFile path).toBaseIO with
    | .ok bytes => pure (.ok (.file bytes))
    | .error e =>
      let e := ioErrorOf e
      pure (if e.kind = .isADirectory then .ok .directory else .error e)

/-- The files that were looked at. -/
def filesOf (found : List (String × Except IoError LocalNode)) : LocalFiles := fun path =>
  (found.lookup path).getD (.error .missingFile)

/-- Looks at all local files that an invocation depends on: the credentials file is known once the
settings are. -/
def gather (vars : Config.Variables) (i : Invocation) : IO LocalFiles := do
  let path := i.globals.config.getD (Config.defaultPath vars)
  let own := match i.command with
    | .upload localPath _ => [localPath]
    | _ => []
  let found ← (path :: own).mapM fun p => do pure (p, ← look p)
  match i.globals.loadConfig vars (filesOf found) with
  | .ok { credentialsFile := some p, .. } => pure (filesOf (found ++ [(p, ← look p)]))
  | _ => pure (filesOf found)

end Depot.Console

open Depot Depot.Console in
/-- Runs the program. -/
def main (args : List String) : IO UInt32 := do
  let vars ← knownVariables.filterMapM fun name => do
    pure ((← IO.getEnv name).map fun value => (name, value))
  let out ← IO.getStdout
  let err ← IO.getStderr
  match Invocation.ofArguments vars args with
  | .error e =>
    (if e.code = 0 then out else err).putStrLn e.text
    pure e.code.toUInt32
  | .ok i =>
    let result := i.run .unreachable vars (← gather vars i) (← out.isTty) ()
    for line in result.shownLog i.globals.leastLevel do
      err.putStrLn line.text
    out.write result.report.transcript.outBytes
    err.putStr result.report.transcript.errText
    pure result.report.status.code.toUInt32
