/-!
# Errors

What can go wrong, by cause. Every backend reports in these terms, so that a caller can branch on
the kind and needs no text. `StoreError.message` is the one place where the wording is fixed.
-/

set_option autoImplicit false

namespace Depot

/-- Kinds of local input and output failures. -/
inductive IoKind where
  | notFound
  | permissionDenied
  | connectionRefused
  | connectionReset
  | connectionAborted
  | notConnected
  | brokenPipe
  | alreadyExists
  | wouldBlock
  | notADirectory
  | isADirectory
  | invalidInput
  | invalidData
  | timedOut
  | writeZero
  | interrupted
  | unexpectedEof
  | other
  deriving DecidableEq, Repr, Inhabited

/-- The text of a kind when a failure brings no text of its own. -/
def IoKind.text : IoKind → String
  | notFound => "entity not found"
  | permissionDenied => "permission denied"
  | connectionRefused => "connection refused"
  | connectionReset => "connection reset"
  | connectionAborted => "connection aborted"
  | notConnected => "not connected"
  | brokenPipe => "broken pipe"
  | alreadyExists => "entity already exists"
  | wouldBlock => "operation would block"
  | notADirectory => "not a directory"
  | isADirectory => "is a directory"
  | invalidInput => "invalid input parameter"
  | invalidData => "invalid data"
  | timedOut => "timed out"
  | writeZero => "write zero"
  | interrupted => "operation interrupted"
  | unexpectedEof => "unexpected end of file"
  | other => "other error"

/-- A failed input or output operation, with a text of its own if it has one. -/
structure IoError where
  kind : IoKind
  detail : Option String
  deriving DecidableEq, Repr, Inhabited

/-- The text of the failure: its own, or that of its kind. -/
def IoError.message (e : IoError) : String := e.detail.getD e.kind.text

/-- Failures of the pool, of the storage and of its backends. -/
inductive StoreError where
  /-- No slot became free in time. -/
  | poolExhausted (detail : String)
  /-- The pool was closed before a slot was granted. -/
  | poolClosed
  /-- A client could not be created. -/
  | connectFailed (detail : String)
  /-- There is no such object. -/
  | notFound (what : String)
  /-- Any other failure of the backend or of the network. -/
  | transport (detail : String)
  /-- An upload could not be completed; the object counts as not written. -/
  | writeFinalization (key detail : String)
  /-- The configuration is unusable. -/
  | config (detail : String)
  /-- A local operation failed, such as reading the source of an upload. -/
  | io (e : IoError)
  /-- Anything else, errors raised by a visitor among them. -/
  | general (detail : String)
  deriving DecidableEq, Repr, Inhabited

namespace StoreError

/-- The coarse classification that callers branch on. -/
inductive Kind where
  | poolExhausted
  | poolClosed
  | connectFailed
  | notFound
  | transport
  | writeFinalization
  | config
  | io
  | other
  deriving DecidableEq, Repr, Inhabited

/-- The kind of an error. -/
def kind : StoreError → Kind
  | poolExhausted _ => .poolExhausted
  | poolClosed => .poolClosed
  | connectFailed _ => .connectFailed
  | notFound _ => .notFound
  | transport _ => .transport
  | writeFinalization _ _ => .writeFinalization
  | config _ => .config
  | io _ => .io
  | general _ => .other

/-- The wording of each error. -/
def message : StoreError → String
  | poolExhausted detail => s!"Connection pool exhausted: {detail}"
  | poolClosed => "Connection pool is closed"
  | connectFailed detail => s!"Failed to connect: {detail}"
  | notFound what => s!"Not found: {what}"
  | transport detail => s!"Transport error: {detail}"
  | writeFinalization key detail => s!"Failed to finalize upload of {key}: {detail}"
  | config detail => s!"Configuration error: {detail}"
  | io e => s!"I/O error: {e.message}"
  | general detail => detail

/-- Whether the error says that an object is missing. -/
def isNotFound : StoreError → Bool
  | notFound _ => true
  | _ => false

/-- Whether a second attempt by the caller may well succeed. Nothing in this library retries. -/
def isTransient : StoreError → Bool
  | poolExhausted _ => true
  | transport _ => true
  | connectFailed _ => true
  | io e =>
    e.kind == .connectionReset || e.kind == .connectionRefused || e.kind == .connectionAborted
      || e.kind == .timedOut || e.kind == .interrupted
  | _ => false

/-- The text of the failure underneath, for errors that wrap one. -/
def cause? : StoreError → Option String
  | io e => some e.message
  | _ => none

/-- The error of a failed attempt to create a client: an error that already says so is kept, any
other is told by its text. -/
def toConnectFailed : StoreError → StoreError
  | connectFailed detail => connectFailed detail
  | e => connectFailed e.message

/-- The error of a failed completion of the upload of `key`: an error that already says so is kept,
any other is told by its text. -/
def toWriteFinalization (key : String) : StoreError → StoreError
  | writeFinalization key' detail => writeFinalization key' detail
  | e => writeFinalization key e.message

end StoreError

end Depot
