import Depot.Backend
import Depot.Memory.Objects

/-!
# A store in memory

A complete store that needs no network. Keys are flat, listings are sorted and come in pages, and
directories exist only as groups of keys. Failures can be ordered in advance for each kind of call.
-/

set_option autoImplicit false

namespace Depot

/-- The calls that can be made to fail. -/
inductive Memory.Call where
  | create
  | list
  | read
  | write
  | finish
  | attributes
  | delete
  | copy
  | destroy
  deriving DecidableEq, Repr, Inhabited

/-- The word for a call in the text of its failure. -/
def Memory.Call.word : Memory.Call → String
  | create => "Create"
  | list => "List"
  | read => "Read"
  | write => "Write"
  | finish => "Finish"
  | attributes => "Attrs"
  | delete => "Delete"
  | copy => "Copy"
  | destroy => "Destroy"

/-- The state of a store in memory. -/
structure Memory where
  objects : Memory.Objects
  /-- The failures ordered for each call. -/
  failures : List (Memory.Call × Nat)
  /-- The most items of a page. -/
  pageSize : Nat
  /-- The clients created so far. -/
  created : Nat
  /-- The clients destroyed so far. -/
  destroyed : Nat
  /-- The clients that were called, the last one first. -/
  served : List Client
  /-- The time that new objects get. -/
  clock : Time.Instant

namespace Memory

variable {α : Type}

/-- A store without objects. A page has at least one item. -/
def new (pageSize : Nat) : Memory := ⟨.empty, [], max pageSize 1, 0, 0, [], default⟩

/-- An upload that is under way: what was written so far is kept until the upload is completed. -/
structure Writer where
  client : Client
  location : Location
  options : WriteOptions
  buffer : ByteArray

/-- Stores an object directly. -/
def insert (m : Memory) (l : Location) (data : ByteArray) : Memory :=
  { m with objects := m.objects.insert l ⟨data, m.clock, ⟨none, []⟩⟩ }

/-- Makes the next calls of a kind fail, after those that are to fail already. -/
def failNext (m : Memory) (call : Call) (times : Nat) : Memory :=
  let before := (m.failures.lookup call).getD 0
  { m with failures := (call, before + times) :: m.failures.filter (·.1 ≠ call) }

/-- Takes one of the failures that were ordered for a call. -/
def takeFailure (m : Memory) (call : Call) : Memory × Bool :=
  match m.failures.lookup call with
  | some (n + 1) => ({ m with failures := (call, n) :: m.failures.filter (·.1 ≠ call) }, true)
  | _ => (m, false)

/-- The failure of a call that was ordered to fail. -/
def injected (call : Call) : String := s!"injected {call.word} failure"

/-- A call on a client is recorded, and fails if that was ordered. -/
def enter (m : Memory) (c : Client) (call : Call) : Memory × Except StoreError Unit :=
  let (m, failed) := { m with served := c :: m.served }.takeFailure call
  (m, if failed then .error (.transport (injected call)) else .ok ())

/-- The error of a missing object. -/
def absent (l : Location) : StoreError := .notFound s!"{l.bucket}/{l.key}"

/-- A call that answers with what `act` makes of the store, unless it was ordered to fail. -/
def call (c : Client) (kind : Call) (act : Memory → Memory × Except StoreError α) (m : Memory) :
    Answer Memory (Except StoreError α) :=
  match m.enter c kind with
  | (m, .error e) => .now m (.error e)
  | (m, .ok ()) =>
    let (m, result) := act m
    .now m result

/-- What is known of the object at a location. -/
def look (l : Location) (f : StoredObject → α) (m : Memory) : Memory × Except StoreError α :=
  match m.objects.get? l with
  | some o => (m, .ok (f o))
  | none => (m, .error (absent l))

/-- Removes the object at a location. -/
def delete (l : Location) (m : Memory) : Memory × Except StoreError Unit :=
  match m.objects.get? l with
  | some _ => ({ m with objects := m.objects.erase l }, .ok ())
  | none => (m, .error (absent l))

/-- Stores a copy of an object at another location. -/
def copy (source target : Location) (m : Memory) : Memory × Except StoreError Unit :=
  match m.objects.get? source with
  | some o =>
    ({ m with objects := m.objects.insert target { o with updated := m.clock } }, .ok ())
  | none => (m, .error (absent source))

/-- Stores what was written, and empties the writer. A completion that fails keeps it. -/
def finish (w : Writer) (m : Memory) : Writer × Answer Memory (Except StoreError Unit) :=
  match m.enter w.client .finish with
  | (m, .error e) => (w, .now m (.error (.writeFinalization w.location.key e.message)))
  | (m, .ok ()) =>
    let o : StoredObject := ⟨w.buffer, m.clock, w.options⟩
    ({ w with buffer := .empty }, .now { m with objects := m.objects.insert w.location o } (.ok ()))

/-- Creates a client. -/
def create (m : Memory) : Answer Memory (Except StoreError Unit) :=
  match m.takeFailure .create with
  | (m, true) => .now m (.error (.connectFailed (injected .create)))
  | (m, false) => .now { m with created := m.created + 1 } (.ok ())

/-- Destroys a client. It is gone even if that fails. -/
def destroy (m : Memory) : Answer Memory (Except StoreError Unit) :=
  let (m, failed) := { m with destroyed := m.destroyed + 1 }.takeFailure .destroy
  .now m (if failed then .error (.transport (injected .destroy)) else .ok ())

/-- The store as a backend. -/
def backend : Backend Memory Writer where
  create := create
  destroy _ := destroy
  isValid _ _ := true
  list c q := call c .list fun m => (m, .ok (m.objects.page m.pageSize q))
  openReader c bucket key := call c .read (look ⟨bucket, key⟩ fun o => .ofBytes o.data)
  openWriter c bucket key options :=
    call c .write fun m => (m, .ok ⟨c, ⟨bucket, key⟩, options, .empty⟩)
  write w bytes m := ({ w with buffer := w.buffer ++ bytes }, .now m (.ok bytes.size))
  flush _ m := .now m (.ok ())
  finish := finish
  dropWriter _ m := m
  attributes c bucket key := call c .attributes (look ⟨bucket, key⟩ (·.attributes key))
  delete c bucket key := call c .delete (delete ⟨bucket, key⟩)
  copy c sourceBucket sourceKey bucket key :=
    call c .copy (copy ⟨sourceBucket, sourceKey⟩ ⟨bucket, key⟩)

end Memory

end Depot
