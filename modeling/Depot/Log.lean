/-!
# Log lines

What the library says about its own work while it runs.
-/

set_option autoImplicit false

namespace Depot

/-- How much a log line matters. -/
inductive LogLevel where
  | trace
  | debug
  | info
  | warn
  | error
  deriving DecidableEq, Repr, Inhabited

/-- The word for a level. -/
def LogLevel.word : LogLevel → String
  | trace => "TRACE"
  | debug => "DEBUG"
  | info => "INFO"
  | warn => "WARN"
  | error => "ERROR"

/-- How much a level matters. -/
def LogLevel.rank : LogLevel → Nat
  | trace => 0
  | debug => 1
  | info => 2
  | warn => 3
  | error => 4

/-- A message with named values. -/
structure LogLine where
  level : LogLevel
  message : String
  fields : List (String × String)
  deriving DecidableEq, Repr, Inhabited

/-- The line as it is shown: level, message, and each value behind its name. -/
def LogLine.text (l : LogLine) : String :=
  let fields := l.fields.map fun (name, value) => s!"{name}={value}"
  " ".intercalate (l.level.word :: l.message :: fields)

end Depot
