import Depot.Console.Report
import Depot.S3.Backend
import Depot.Storage.Schedule

/-!
# Runs of the program

From an invocation to a report: the settings are loaded, the store is connected, one request is made
and the store is closed. The first of these that fails ends the run. A local file is opened before
all that.
-/

set_option autoImplicit false

namespace Depot.Console

/-- The settings of a file, with those that an invocation brings in their places. -/
def Globals.apply (g : Globals) (c : Config) : Config :=
  { c with
    bucket := g.bucket.getD c.bucket
    endpoint := g.endpoint.or c.endpoint
    debug := g.debug || c.debug }

/-- The settings of a run. A file that was not asked for by name may be missing. -/
def Globals.loadConfig (vars : Config.Variables) (files : LocalFiles) (g : Globals) :
    Except Failure Config := do
  let path := g.config.getD (Config.defaultPath vars)
  let plain (e : StoreError) : Failure := ⟨.inl e, []⟩
  let c ← match (← (Config.readFrom files path).mapError plain), g.config with
    | some c, _ => pure c
    | none, some _ => throw (plain (Config.fileMissing path))
    | none, none => pure .standard
  let c := g.apply c
  c.validate.mapError fun e => ⟨.inl e, [s!"Invalid config {path}"]⟩
  pure c

/-- The report of settings that could not be loaded. -/
def Failure.report (s : Settings) (f : Failure) : Report := ⟨f.status, s.error f.text⟩

/-- A local file cannot be opened. -/
def openFailure (s : Settings) (path : String) (e : IoError) : Report :=
  ⟨.usageError, s.error s!"Cannot open {path}: {e.message}"⟩

/-- The local file of an upload. -/
def Command.source (files : LocalFiles) : Command → Except (String × IoError) LocalNode
  | .upload path _ => (files path).mapError fun e => (path, e)
  | _ => .ok (.file .empty)

/-- What a command asks of the storage, if anything. -/
def Command.request (source : LocalNode) : Command → Option Storage.Request
  | .list path recursive => some (.walk path recursive fun _ _ => .ok ())
  | .print path => some (.read path)
  | .upload _ remote => some (.put remote source.stream)
  | .stat path => some (.stat path)
  | .remove path false => some (.delete path)
  | .remove path true => some (.deleteDisk path)
  | .copy bucket key target => some (.copy bucket key target)
  | .kind => none

/-- The least level that is shown of what is logged. -/
def Globals.leastLevel (g : Globals) : LogLevel :=
  match g.verbose with
  | 0 => if g.debug then .info else .warn
  | 1 => .info
  | 2 => .debug
  | _ => .trace

/-- A run that has ended, with what was logged, newest first. -/
structure Result where
  report : Report
  log : List LogLine

/-- What is shown of what was logged, in order. -/
def Result.shownLog (least : LogLevel) (r : Result) : List LogLine :=
  r.log.reverse.filter fun l => least.rank ≤ l.level.rank

/-- The most steps in a row that are made for one request, before it is broken off. This limit makes
a run a function; nothing else sets one. -/
def manySteps : Nat := 1000000000

/-- What is told of a request that was broken off. A walk can be that: without a limit, an endpoint
that answers every listing with one more page and a token would keep it going forever, and nothing
would ever be told of it. -/
def endless : StoreError := .general "no outcome"

section

variable {World Writer : Type}

/-- Carries out a command on a storage. -/
def Command.perform (s : Settings) (env : Storage.Env World Writer) (source : LocalNode)
    (command : Command) (m : Storage.Schedule World Writer) :
    Report × Storage.Schedule World Writer :=
  match command.request source with
  | none => (kindReport s env.setup.bucket env.setup.kind, m)
  | some request =>
    match m.perform env manySteps request none with
    | (m, some (.done result visited)) => (command.report s source.size result visited, m)
    | (m, _) => (command.report s source.size (.error endless) [], m)

/-- A storage could not be closed in order. -/
def closeLog (e : StoreError) : LogLine :=
  ⟨.warn, "failed to close storage", [("error", e.message)]⟩

/-- Closes a storage. A failure is logged, and changes nothing. -/
def close (env : Storage.Env World Writer) (m : Storage.Schedule World Writer) : List LogLine :=
  match m.perform env manySteps .close none with
  | (m, some (.done (.error e) _)) => closeLog e :: m.machine.log
  | (m, _) => m.machine.log

end

/-- Runs an invocation. -/
def Invocation.run {State : Type} (network : S3.Network State) (vars : Config.Variables)
    (files : LocalFiles) (terminal : Bool) (i : Invocation) (state : State) : Result :=
  let s := i.globals.settings terminal
  match i.command.source files with
  | .error (path, e) => ⟨openFailure s path e, []⟩
  | .ok source =>
    match i.globals.loadConfig vars files with
    | .error f => ⟨f.report s, []⟩
    | .ok c =>
      match S3.connect files network c state with
      | .error e => ⟨.failure s "Failed to connect" e, []⟩
      | .ok (env, m) =>
        let (report, m) := i.command.perform s env source (.ofMachine m)
        ⟨report, close env m⟩

end Depot.Console
