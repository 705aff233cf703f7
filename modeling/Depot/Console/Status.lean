import Depot.Error

/-!
# Exit statuses

What a run of the program ends with, so that a script can branch on the number and needs no text.
-/

set_option autoImplicit false

namespace Depot.Console

/-- The ways in which a run ends. -/
inductive Status where
  | success
  | generalError
  /-- Bad arguments or a local path that cannot be used. -/
  | usageError
  /-- A failure of the network or of the store, failed uploads among them. -/
  | networkError
  | notFound
  | configError
  /-- No client could be had from the pool. -/
  | unavailable
  deriving DecidableEq, Repr, Inhabited

namespace Status

/-- The number of a status. -/
def code : Status → Nat
  | success => 0
  | generalError => 1
  | usageError => 2
  | networkError => 3
  | notFound => 4
  | configError => 5
  | unavailable => 6

/-- The status of a failure, by the kind of its error. -/
def ofKind : StoreError.Kind → Status
  | .notFound => notFound
  | .transport => networkError
  | .connectFailed => networkError
  | .writeFinalization => networkError
  | .poolExhausted => unavailable
  | .poolClosed => unavailable
  | .config => configError
  | .io => generalError
  | .other => generalError

/-- The status of a failure. -/
def ofError (e : StoreError) : Status := ofKind e.kind

end Status

/-- What made a run fail before it reached the store: an error of this library or a text that says
no more, and what was being done, innermost first. -/
structure Failure where
  error : StoreError ⊕ String
  contexts : List String
  deriving DecidableEq, Repr

namespace Failure

/-- The status of a failure. A text alone tells nothing about its kind. -/
def status (f : Failure) : Status :=
  match f.error with
  | .inl e => .ofError e
  | .inr _ => .generalError

/-- The texts of a failure from the outermost context to the innermost cause. -/
def chain (f : Failure) : List String :=
  f.contexts.reverse ++
    match f.error with
    | .inl e => e.message :: e.cause?.toList
    | .inr text => [text]

/-- The whole failure on one line. -/
def text (f : Failure) : String := ": ".intercalate f.chain

end Failure

end Depot.Console
