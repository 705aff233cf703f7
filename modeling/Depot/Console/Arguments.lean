import Depot.Config.File

/-!
# Arguments

How a list of words is read as options and operands. An option has a long name behind two hyphens,
and some have a letter behind one; letters may be put together. A value follows its option, or is
attached to its long name with an equals sign. Behind `--` all words are operands. Options may also
be set by variables of the surroundings, which the words take precedence over.

A word is checked when the next one is seen to be none of its own: what is wrong with an earlier
word is told before what is wrong with a later one, but for words that mean nothing at all.
-/

set_option autoImplicit false

namespace Depot.Console

/-- Why words do not make up a command, or what is to be shown instead of running it. -/
inductive UsageError where
  | help
  | version
  /-- There is nothing to go by, so that help is shown. -/
  | nothingGiven
  | missingCommand
  | unknownCommand
  | unknownArgument
  | missingArgument
  | invalidValue
  /-- An option is given more than once. -/
  | conflict
  /-- A value is attached to an option that takes none. -/
  | tooManyValues
  deriving DecidableEq, Repr, Inhabited

/-- The exit status. What was asked for is no failure. -/
def UsageError.code : UsageError → Nat
  | help => 0
  | version => 0
  | _ => 2

/-- What an option does. -/
inductive OptionKind where
  | help
  | version
  | flag
  /-- Counts how often it is given. -/
  | count
  /-- Takes a value. -/
  | text
  /-- Takes a path, which is not empty. -/
  | path
  deriving DecidableEq, Repr, Inhabited

/-- Whether an option takes a value. -/
def OptionKind.takesValue : OptionKind → Bool
  | text => true
  | path => true
  | _ => false

/-- An option. -/
structure OptionSpec where
  name : String
  letter : Option Char
  kind : OptionKind
  /-- The variable that sets it. -/
  variableName : Option String
  deriving DecidableEq, Repr, Inhabited

/-- An operand. -/
structure OperandSpec where
  isPath : Bool
  required : Bool
  deriving DecidableEq, Repr, Inhabited

/-- What may be given to a command. -/
structure Level where
  options : List OptionSpec
  operands : List OperandSpec
  /-- The commands below it. -/
  commands : List String
  deriving DecidableEq, Repr, Inhabited

/-- Where a setting comes from, the one that counts more behind the other. -/
inductive Source where
  | surroundings
  | words
  deriving DecidableEq, Repr, Inhabited

/-- What an option is set to. -/
inductive Setting where
  | flag (on : Bool)
  | count (n : Nat)
  | text (s : String)
  deriving DecidableEq, Repr, Inhabited

/-- The most that is counted. -/
def maxCount : Nat := 255

/-- A word whose meaning is known, and that is not checked yet. -/
inductive Pending where
  | nothing
  /-- An option, with its value if that was seen. -/
  | option (o : OptionSpec) (value : Option String)
  | operand (o : OperandSpec) (value : String)
  deriving Inhabited

/-- What was read so far. -/
structure Reading where
  settings : List (String × Source × Setting)
  operands : List String
  pending : Pending
  /-- Whether all further words are operands. -/
  literal : Bool

namespace Reading

/-- Before the first word. -/
def start : Reading := ⟨[], [], .nothing, false⟩

/-- What an option is set to. -/
def setting? (r : Reading) (name : String) : Option (Source × Setting) := r.settings.lookup name

/-- Sets an option. -/
def set (r : Reading) (name : String) (source : Source) (s : Setting) : Reading :=
  { r with settings := r.settings ++ [(name, source, s)] }

/-- Gives a value to an option. -/
def give (r : Reading) (o : OptionSpec) (source : Source) (value : String) :
    Except UsageError Reading :=
  if (r.setting? o.name).isSome then .error .conflict
  else
    match o.kind with
    | .flag =>
      if value = "true" then .ok (r.set o.name source (.flag true))
      else if value = "false" then .ok (r.set o.name source (.flag false))
      else .error .invalidValue
    | .path => if value = "" then .error .invalidValue else .ok (r.set o.name source (.text value))
    | _ => .ok (r.set o.name source (.text value))

/-- Checks the word that is not checked yet. -/
def settle (r : Reading) : Except UsageError Reading :=
  let settled := { r with pending := .nothing }
  match r.pending with
  | .nothing => .ok r
  | .option _ none => .error .invalidValue
  | .option o (some value) => settled.give o .words value
  | .operand o value =>
    if o.isPath && value = "" then .error .invalidValue
    else .ok { settled with operands := r.operands ++ [value] }

/-- Takes an option without a value. -/
def raise (r : Reading) (o : OptionSpec) : Except UsageError Reading := do
  let r ← r.settle
  match o.kind with
  | .help => .error .help
  | .version => .error .version
  | .count =>
    match r.setting? o.name with
    | some (_, .count n) =>
      let rest := r.settings.filter fun s => s.1 ≠ o.name
      pure <| { r with settings := rest }.set o.name .words (.count (min (n + 1) maxCount))
    | _ => pure (r.set o.name .words (.count 1))
  | _ => r.give o .words "true"

/-- The number of operands seen. -/
def operandCount (r : Reading) : Nat :=
  match r.pending with
  | .operand _ _ => r.operands.length + 1
  | _ => r.operands.length

/-- Takes a long option. -/
def long (level : Level) (name : String) (value : Option String) (r : Reading) :
    Except UsageError Reading :=
  match level.options.find? (·.name = name) with
  | none => .error .unknownArgument
  | some o =>
    match o.kind.takesValue, value with
    | true, some v => do (← r.settle).give o .words v
    | true, none => do pure { ← r.settle with pending := .option o none }
    | false, some _ => .error .tooManyValues
    | false, none => r.raise o

/-- Takes options by their letters. -/
def letters (level : Level) : List Char → Reading → Except UsageError Reading
  | [], r => .ok r
  | c :: cs, r =>
    match level.options.find? (·.letter = some c) with
    | none => .error .unknownArgument
    | some o => do letters level cs (← r.raise o)

/-- Takes an operand. -/
def operand (level : Level) (word : String) (r : Reading) : Except UsageError Reading :=
  match level.operands[r.operandCount]? with
  | some o => do pure { ← r.settle with pending := .operand o word }
  | none =>
    if level.commands.isEmpty || (r.literal && level.commands.contains word) then
      .error .unknownArgument
    else .error .unknownCommand

/-- Whether the next word is the value of an option. -/
def isAwaiting (r : Reading) : Bool :=
  match r.pending with
  | .option _ none => true
  | _ => false

/-- The name of a long option, and the value attached to it. -/
def splitLong (word : List Char) : String × Option String :=
  let name := String.ofList (word.takeWhile (· ≠ '='))
  match word.dropWhile (· ≠ '=') with
  | [] => (name, none)
  | _ :: value => (name, some (String.ofList value))

/-- Takes a word that is no command. -/
def word (level : Level) (w : String) (r : Reading) : Except UsageError Reading :=
  if r.literal then r.operand level w
  else
    match w.toList with
    | ['-', '-'] => .ok { r with literal := true }
    | '-' :: '-' :: name =>
      let (name, value) := splitLong name
      r.long level name value
    | '-' :: c :: cs => r.letters level (c :: cs)
    | _ =>
      match r.pending with
      | .option o none => .ok { r with pending := .option o (some w) }
      | _ => r.operand level w

/-- Reads words up to the first one that is a command, which is returned with those behind it. -/
def scan (level : Level) : List String → Reading →
    Except UsageError (Reading × Option (String × List String))
  | [], r => .ok (r, none)
  | w :: ws, r =>
    if !r.literal && !r.isAwaiting && level.commands.contains w then .ok (r, some (w, ws))
    else do scan level ws (← r.word level w)

/-- Sets the options that are not set by what the variables say. -/
def addVariables (vars : Config.Variables) : List OptionSpec → Reading → Except UsageError Reading
  | [], r => .ok r
  | o :: os, r =>
    match o.variableName.bind (fun name => vars.lookup name), r.setting? o.name with
    | some value, none => do addVariables vars os (← r.give o .surroundings value)
    | _, _ => addVariables vars os r

/-- Comes to the end of what is given to a level. -/
def finish (level : Level) (vars : Config.Variables) (r : Reading) :
    Except UsageError Reading := do
  (← r.settle).addVariables vars level.options

/-- Whether all operands are there that have to be. -/
def hasRequired (level : Level) (r : Reading) : Bool :=
  (level.operands.filter (·.required)).length ≤ r.operands.length

end Reading

end Depot.Console
