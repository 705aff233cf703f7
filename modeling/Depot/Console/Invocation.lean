import Depot.Console.Arguments
import Depot.Console.Printer

/-!
# Invocations

The commands of the program, and how one is asked for. Some options are common to all commands: they
may stand in front of the command or behind its name, and there they count more.
-/

set_option autoImplicit false

namespace Depot.Console

/-- The options that are common to all commands. -/
structure Globals where
  /-- The path of the configuration file. -/
  config : Option String
  bucket : Option String
  endpoint : Option String
  debug : Bool
  json : Bool
  noColor : Bool
  quiet : Bool
  /-- How much is to be logged. -/
  verbose : Nat
  deriving DecidableEq, Repr, Inhabited

/-- What the program is asked to do. -/
inductive Command where
  /-- Lists what is below a path. -/
  | list (path : String) (recursive : Bool)
  /-- Writes an object to the standard output. -/
  | print (path : String)
  /-- Uploads a local file. -/
  | upload (localPath remote : String)
  /-- Shows the size of an object and when it was changed. -/
  | stat (path : String)
  | remove (path : String) (fromDisk : Bool)
  /-- Copies an object to the root of disk objects. -/
  | copy (sourceBucket sourceKey target : String)
  /-- Shows the kind of the store. -/
  | kind
  deriving DecidableEq, Repr, Inhabited

/-- What the program is asked for as a whole. -/
structure Invocation where
  globals : Globals
  command : Command
  deriving DecidableEq, Repr, Inhabited

namespace Invocation

/-- The options common to all commands. -/
def globalOptions : List OptionSpec :=
  [⟨"config", none, .path, none⟩,
   ⟨"bucket", none, .text, some "RSTORE_BUCKET"⟩,
   ⟨"endpoint", none, .text, some "RSTORE_ENDPOINT"⟩,
   ⟨"debug", none, .flag, some "RSTORE_DEBUG"⟩,
   ⟨"json", none, .flag, none⟩,
   ⟨"no-color", none, .flag, none⟩,
   ⟨"quiet", some 'q', .flag, none⟩,
   ⟨"verbose", some 'v', .count, none⟩,
   ⟨"help", some 'h', .help, none⟩]

/-- An operand that has to be given. -/
def required : OperandSpec := ⟨false, true⟩

/-- A path of a local file. -/
def requiredPath : OperandSpec := ⟨true, true⟩

/-- An operand that may be left out. -/
def optional : OperandSpec := ⟨false, false⟩

/-- The level of a command. -/
def level (own : List OptionSpec) (operands : List OperandSpec) : Level :=
  ⟨own ++ globalOptions, operands, []⟩

/-- The commands by name. -/
def levels : List (String × Level) :=
  [("ls", level [⟨"recursive", some 'r', .flag, none⟩] [optional]),
   ("cat", level [] [required]),
   ("put", level [] [requiredPath, required]),
   ("stat", level [] [required]),
   ("rm", level [⟨"object-disk", none, .flag, none⟩] [required]),
   ("cp-object", level [] [required, required, required]),
   ("kind", level [] [])]

/-- The command that shows help on the others. -/
def helpCommand : String := "help"

/-- All commands. -/
def commandNames : List String := levels.map (·.1) ++ [helpCommand]

/-- What may stand in front of a command. -/
def root : Level := ⟨⟨"version", some 'V', .version, none⟩ :: globalOptions, [], commandNames⟩

/-- What the words behind the help command come to: they may name one command. -/
def helpOn : List String → UsageError
  | [] => .help
  | [name] => if commandNames.contains name then .help else .unknownCommand
  | _ => .unknownCommand

/-- Of two places where an option may be set, the one that counts: the inner one, unless the outer
one has the better source. -/
def pick (outer inner : Reading) (name : String) : Option Setting :=
  match outer.setting? name, inner.setting? name with
  | some (.words, s), some (.surroundings, _) => some s
  | _, some (_, s) => some s
  | some (_, s), none => some s
  | none, none => none

/-- A setting that is a text. -/
def textOf : Option Setting → Option String
  | some (.text s) => some s
  | _ => none

/-- A setting that is a flag, which is off unless it is set. -/
def flagOf : Option Setting → Bool
  | some (.flag b) => b
  | _ => false

/-- A setting that counts. -/
def countOf : Option Setting → Nat
  | some (.count n) => n
  | _ => 0

/-- The common options. -/
def globalsOf (outer inner : Reading) : Globals :=
  let get := pick outer inner
  { config := textOf (get "config")
    bucket := textOf (get "bucket")
    endpoint := textOf (get "endpoint")
    debug := flagOf (get "debug")
    json := flagOf (get "json")
    noColor := flagOf (get "no-color")
    quiet := flagOf (get "quiet")
    verbose := countOf (get "verbose") }

/-- The command of a name with what is given to it. -/
def commandOf (name : String) (r : Reading) : Option Command :=
  let flag (name : String) := flagOf ((r.setting? name).map (·.2))
  match name, r.operands with
  | "ls", operands => some (.list (operands.headD "") (flag "recursive"))
  | "cat", [path] => some (.print path)
  | "put", [localPath, remote] => some (.upload localPath remote)
  | "stat", [path] => some (.stat path)
  | "rm", [path] => some (.remove path (flag "object-disk"))
  | "cp-object", [bucket, key, target] => some (.copy bucket key target)
  | "kind", [] => some .kind
  | _, _ => none

/-- What the words ask for. -/
def ofArguments (vars : Config.Variables) (args : List String) :
    Except UsageError Invocation := do
  let (outer, next) ← Reading.scan root args .start
  match next with
  | none =>
    let outer ← outer.finish root vars
    throw (if outer.settings.isEmpty then .nothingGiven else .missingCommand)
  | some (name, rest) =>
    let some level := levels.lookup name | throw (helpOn rest)
    let (inner, _) ← Reading.scan level rest .start
    let inner ← inner.finish level vars
    if !inner.hasRequired level then throw .missingArgument
    let outer ← outer.finish root vars
    let some command := commandOf name inner | throw .missingArgument
    pure ⟨globalsOf outer inner, command⟩

end Invocation

/-- How the output is to look. -/
def Globals.settings (g : Globals) (terminal : Bool) : Settings :=
  ⟨g.json, g.noColor, g.quiet, terminal⟩

end Depot.Console
