import Depot.Pool
import Depot.Roots
import Depot.Upload

/-!
# Tasks

What a storage can be asked for, and how far a request has come. A request that needs a client
borrows one, makes its calls on it, and settles: after a success the client is given back, after a
failure it is destroyed. A task stops at the points where an answer, a slot or some time has to be
waited for.
-/

set_option autoImplicit false

namespace Depot.Storage

/-- What a storage is set up with. -/
structure Setup where
  /-- The name of the kind of store behind it. -/
  kind : String
  bucket : String
  roots : Roots
  options : WriteOptions
  deriving DecidableEq, Repr, Inhabited

/-- What can be asked for. -/
inductive Request where
  /-- Borrows a client and keeps it. -/
  | borrow
  /-- Destroys a client that was kept. -/
  | invalidate (t : Ticket)
  /-- Visits the entries below a path, all of them or the immediate ones only. -/
  | walk (path : String) (recursive : Bool) (visitor : Visitor)
  /-- Reads an object to its end. -/
  | read (path : String)
  /-- Stores all that a source yields as an object. -/
  | put (path : String) (source : Stream)
  /-- Looks up an object. -/
  | stat (path : String)
  | delete (path : String)
  /-- Deletes an object of a disk. -/
  | deleteDisk (path : String)
  /-- Copies an object of some bucket to an object of a disk. -/
  | copy (sourceBucket sourceKey path : String)
  /-- Closes the pool. -/
  | closePool
  /-- Destroys the direct client and closes the pool. -/
  | close

/-- What a request comes to when it succeeds. -/
inductive Outcome where
  | unit
  | client (t : Ticket) (c : Client)
  | data (bytes : ByteArray)
  /-- The object was opened, and reading it failed behind some data. -/
  | broken (bytes : ByteArray) (e : IoError)
  | entry (e : Entry)
  /-- The number of bytes that were copied. -/
  | count (n : Nat)

/-- What a client is borrowed for, with the full keys. -/
inductive Goal where
  | keep
  | walk (w : Walk)
  | read (key : String)
  | put (key : String) (source : Stream)
  | stat (key : String)
  | delete (key : String)
  | copy (sourceBucket sourceKey key : String)

/-- How far a task has come. In most phases the task has the answer to its last call, although the
answer may arrive later. -/
inductive Phase (Writer : Type) where
  | start (r : Request)
  /-- Stands in line for a slot. -/
  | line (g : Goal)
  /-- Has destroyed an unfit client. -/
  | rejected (g : Goal) (reply : Except StoreError Unit)
  /-- Has asked for a new client. -/
  | created (g : Goal) (reply : Except StoreError Unit)
  /-- Has a client, and has made no call on it. -/
  | lent (g : Goal)
  | walking (w : Walk)
  | listed (w : Walk) (reply : Except StoreError Page)
  | opened (reply : Except StoreError Stream)
  /-- Reads what was opened, without a client. -/
  | draining (rest : Stream) (data : ByteArray)
  | accepted (key : String) (source : Stream) (reply : Except StoreError Writer)
  | uploading (u : Upload Writer)
  | wrote (u : Upload Writer) (reply : Except IoError Nat)
  | flushed (u : Upload Writer) (reply : Except IoError Unit)
  | completed (u : Upload Writer) (reply : Except StoreError Unit)
  | found (reply : Except StoreError Attributes)
  | deleted (key : String) (reply : Except StoreError Unit)
  | measured (sourceBucket sourceKey key : String) (reply : Except StoreError Attributes)
  | copied (sourceBucket sourceKey key : String) (size : Nat) (reply : Except StoreError Unit)
  /-- Has destroyed its client, and ends with `result`. -/
  | invalidated (reply : Except StoreError Unit) (result : Except StoreError Outcome)
  /-- Has destroyed the direct client, if that was there. -/
  | disconnected (result : Except StoreError Outcome)
  /-- Has destroyed one of the clients of a pool that it closes. -/
  | closing (reply : Except StoreError Unit) (result : Except StoreError Outcome)
  /-- Is to destroy a client in the background. -/
  | discard
  /-- Has destroyed a client in the background. -/
  | discarded (reply : Except StoreError Unit)
  | ended (result : Except StoreError Outcome)

/-- A time at which a task is to go on. Of two alarms for one time, that with the lower order was
set first. -/
structure Alarm where
  time : Nat
  order : Nat
  deriving DecidableEq, Repr

/-- The number of a task. -/
abbrev TaskId := Nat

/-- A request, or some work in the background, that is under way. -/
structure Task (Writer : Type) where
  phase : Phase Writer
  /-- Its party in the pool. -/
  ticket : Option Ticket
  /-- The client that it has borrowed. -/
  client : Option Client
  alarm : Option Alarm
  /-- The entries that it has visited, newest first. -/
  visited : List Entry

/-- A task that has not begun. -/
def Task.ofRequest (Writer : Type) (r : Request) : Task Writer := ⟨.start r, none, none, none, []⟩

/-- The destruction of a client in the background. -/
def Task.ofDiscard (Writer : Type) (t : Ticket) : Task Writer := ⟨.discard, some t, none, none, []⟩

end Depot.Storage
