import Depot.Backend

/-!
# A store that answers from a script

A backend for trials: every creation, destruction and call is answered by the next entry of a list,
and every call is recorded.
-/

set_option autoImplicit false

namespace Depot

/-- What becomes of the creation or destruction of a client. -/
structure Scripted.Turn where
  delay : Nat
  error : Option StoreError
  deriving Inhabited

/-- What is answered to a call. Of the fields, those that the call asks for are used. -/
structure Scripted.Reply where
  delay : Nat
  error : Option StoreError
  page : Page
  stream : Stream
  attributes : Attributes
  /-- The most bytes that the opened writer accepts at once. -/
  maxWrite : Option Nat
  /-- The failure of its writes once so many bytes are accepted. -/
  writeError : Option (Nat × IoError)
  flushError : Option IoError
  finishError : Option StoreError
  deriving Inhabited

/-- A call as it was made. -/
inductive Scripted.Record where
  | list (c : Client) (query : Query)
  | openReader (c : Client) (bucket key : String)
  | openWriter (c : Client) (bucket key : String) (options : WriteOptions)
  | attributes (c : Client) (bucket key : String)
  | delete (c : Client) (bucket key : String)
  | copy (c : Client) (sourceBucket sourceKey bucket key : String)
  | finish (writes : List Nat) (data : ByteArray)
  | dropWriter

/-- The script that is left, and what was done so far. -/
structure Scripted where
  creations : List Scripted.Turn
  destructions : List Scripted.Turn
  replies : List Scripted.Reply
  /-- The clients that are not to be lent out again. -/
  rejected : List Client
  /-- A mark that each client carries. -/
  tags : List (Client × Int)
  /-- The creations begun so far. -/
  attempts : Nat
  /-- The clients whose creation did not fail. -/
  created : Nat
  /-- The clients whose destruction began, the last one first. -/
  destroyed : List Client
  /-- The calls made so far, the last one first. -/
  records : List Scripted.Record

namespace Scripted

/-- A store at the beginning of a script. -/
def new (creations destructions : List Turn) (replies : List Reply) : Scripted :=
  ⟨creations, destructions, replies, [], [], 0, 0, [], []⟩

/-- The mark of a client, zero unless it was set. -/
def tag (s : Scripted) (c : Client) : Int := (s.tags.lookup c).getD 0

/-- Sets the mark of a client. -/
def setTag (s : Scripted) (c : Client) (value : Int) : Scripted :=
  { s with tags := (c, value) :: s.tags.filter (·.1 ≠ c) }

/-- What an error that may be there makes of a result. -/
def orError {ε α : Type} (error : Option ε) (value : α) : Except ε α :=
  match error with
  | some e => .error e
  | none => .ok value

/-- Creates a client. -/
def create (s : Scripted) : Answer Scripted (Except StoreError Unit) :=
  let turn := s.creations.headD ⟨0, none⟩
  let created := s.created + if turn.error.isNone then 1 else 0
  { world := { s with creations := s.creations.tail, attempts := s.attempts + 1, created }
    log := []
    delay := turn.delay
    result := orError turn.error () }

/-- Destroys a client. -/
def destroy (c : Client) (s : Scripted) : Answer Scripted (Except StoreError Unit) :=
  let turn := s.destructions.headD ⟨0, none⟩
  { world := { s with destructions := s.destructions.tail, destroyed := c :: s.destroyed }
    log := []
    delay := turn.delay
    result := orError turn.error () }

/-- Records a call, and answers it with what `use` makes of the next reply. -/
def call {α : Type} (record : Record) (use : Reply → α) (s : Scripted) :
    Answer Scripted (Except StoreError α) :=
  let s := { s with records := record :: s.records }
  match s.replies with
  | [] => .now s (.error (.general "script exhausted"))
  | r :: rest =>
    { world := { s with replies := rest }
      log := []
      delay := r.delay
      result := orError r.error (use r) }

/-- An upload that is under way: the sizes that were accepted, the last one first, and the data. -/
structure Writer where
  reply : Reply
  writes : List Nat
  data : ByteArray

/-- Accepts some bytes, as many as the script allows. -/
def write (w : Writer) (bytes : ByteArray) (s : Scripted) :
    Writer × Answer Scripted (Except IoError Nat) :=
  let failure := w.reply.writeError.filter (·.1 ≤ w.data.size)
  match failure with
  | some (_, e) => (w, .now s (.error e))
  | none =>
    let n := min bytes.size (w.reply.maxWrite.getD bytes.size)
    ({ w with
        writes := if n = 0 then w.writes else n :: w.writes
        data := w.data ++ bytes.extract 0 n },
      .now s (.ok n))

/-- Records the completion of an upload. -/
def finish (w : Writer) (s : Scripted) : Writer × Answer Scripted (Except StoreError Unit) :=
  (w, .now { s with records := .finish w.writes.reverse w.data :: s.records }
    (orError w.reply.finishError ()))

/-- The script as a backend. -/
def backend : Backend Scripted Writer where
  create := create
  destroy := destroy
  isValid c s := !s.rejected.contains c
  list c q := call (.list c q) (·.page)
  openReader c bucket key := call (.openReader c bucket key) (·.stream)
  openWriter c bucket key options :=
    call (.openWriter c bucket key options) fun r => ⟨r, [], .empty⟩
  write := write
  flush w s := .now s (orError w.reply.flushError ())
  finish := finish
  dropWriter _ s := { s with records := .dropWriter :: s.records }
  attributes c bucket key := call (.attributes c bucket key) (·.attributes)
  delete c bucket key := call (.delete c bucket key) fun _ => ()
  copy c sourceBucket sourceKey bucket key :=
    call (.copy c sourceBucket sourceKey bucket key) fun _ => ()

end Scripted

end Depot
