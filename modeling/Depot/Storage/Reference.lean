import Depot.Storage.Connect
import Depot.Storage.Run
import Depot.Memory.Basic

/-!
# A storage as a map

What a storage over a store in memory is for its user: a map from buckets and keys to data. The
operations are told here as functions of such a map, without clients, pools or steps, and so is what
it means that operations are carried out one after the other.
-/

set_option autoImplicit false

namespace Depot

/-- All that a stream yields up to its end, or the failure that it breaks off with. -/
def Stream.content : Stream → Except IoError ByteArray
  | [] => .ok .empty
  | .data bytes :: rest => if bytes.size = 0 then .ok .empty else (content rest).map (bytes ++ ·)
  | .pause _ :: rest => content rest
  | .fail e :: rest => if e.kind = .interrupted then content rest else .error e

namespace Reference

/-- What is stored under a key, apart from the time of storing. -/
structure Item where
  data : ByteArray
  options : WriteOptions

/-- What is stored at every location. -/
abbrev Items := Memory.Location → Option Item

/-- What is stored in a store in memory. -/
def items (m : Memory) : Items := fun l => (m.objects.get? l).map fun o => ⟨o.data, o.options⟩

/-- What an operation answers. -/
inductive Reply where
  | done
  | data (bytes : ByteArray)
  | size (n : Nat)

/-- What an operation comes to: an answer or the kind of an error, and what is stored afterwards. -/
abbrev Result := Except StoreError.Kind Reply × Items

namespace Items

/-- Stores an item at a location, or removes what is there. -/
def set (items : Items) (l : Memory.Location) (item : Option Item) : Items :=
  fun l' => if l' = l then item else items l'

/-- Stores what a source yields. -/
def put (items : Items) (l : Memory.Location) (options : WriteOptions) :
    Except IoError ByteArray → Result
  | .ok data => (.ok .done, items.set l (some ⟨data, options⟩))
  | .error _ => (.error .io, items)

/-- Answers with something of an item, which has to be there. -/
def look (items : Items) (l : Memory.Location) (f : Item → Reply) : Result :=
  match items l with
  | some item => (.ok (f item), items)
  | none => (.error .notFound, items)

/-- Removes an item, which has to be there. -/
def delete (items : Items) (l : Memory.Location) : Result :=
  match items l with
  | some _ => (.ok .done, items.set l none)
  | none => (.error .notFound, items)

/-- Stores an item once more, at another location. -/
def copy (items : Items) (source l : Memory.Location) : Result :=
  match items source with
  | some item => (.ok (.size item.data.size), items.set l (some item))
  | none => (.error .notFound, items)

end Items

/-! ## Operations -/

/-- The operations that are carried out on the map. -/
inductive Operation where
  | put (path : String) (source : Stream)
  | read (path : String)
  | stat (path : String)
  | delete (path : String)
  | deleteDisk (path : String)
  | copy (sourceBucket sourceKey path : String)

/-- The request of an operation. -/
def Operation.request : Operation → Storage.Request
  | put path source => .put path source
  | read path => .read path
  | stat path => .stat path
  | delete path => .delete path
  | deleteDisk path => .deleteDisk path
  | copy sourceBucket sourceKey path => .copy sourceBucket sourceKey path

/-- The key of a path: its root followed by the normalized path. -/
def key (root path : String) : String :=
  let root := Key.normalize root
  let path := Key.normalize path
  if root = "" then path else if path = "" then root else root ++ "/" ++ path

/-- The place of a regular object. -/
def place (c : Config) (path : String) : Memory.Location := ⟨c.bucket, key c.path path⟩

/-- The place of an object of a disk, which needs a root of its own. -/
def diskPlace (c : Config) (path : String) : Option Memory.Location :=
  c.diskPath.map fun root => ⟨c.bucket, key root path⟩

/-- An operation on what is stored. -/
def Operation.run (c : Config) (items : Items) : Operation → Result
  | put path source => items.put (place c path) c.writeOptions source.content
  | read path => items.look (place c path) fun item => .data item.data
  | stat path => items.look (place c path) fun item => .size item.data.size
  | delete path => items.delete (place c path)
  | deleteDisk path =>
    match diskPlace c path with
    | some l => items.delete l
    | none => (.error .config, items)
  | copy sourceBucket sourceKey path =>
    match diskPlace c path with
    | some l => items.copy ⟨sourceBucket, sourceKey⟩ l
    | none => (.error .config, items)

/-- Operations one after the other, with all that they answer. -/
def runAll (c : Config) : List Operation → Items → List (Except StoreError.Kind Reply) × Items
  | [], items => ([], items)
  | op :: ops, items =>
    let (reply, items) := op.run c items
    let (replies, items) := runAll c ops items
    (reply :: replies, items)

/-- What a storage says is what the map answers: the same data, sizes and kinds of errors. -/
inductive Answers : Except StoreError Storage.Outcome → Except StoreError.Kind Reply → Prop where
  | done : Answers (.ok .unit) (.ok .done)
  | data (bytes : ByteArray) : Answers (.ok (.data bytes)) (.ok (.data bytes))
  | entry (name : String) (size : Nat) (updated : Option Time.Instant) :
      Answers (.ok (.entry (.object name size updated))) (.ok (.size size))
  | count (n : Nat) : Answers (.ok (.count n)) (.ok (.size n))
  | error (e : StoreError) : Answers (.error e) (.error e.kind)

end Reference

namespace Storage

/-- Whether an event lets tasks get on, or time pass. -/
def Event.isProgress : Event → Bool
  | step _ => true
  | pass _ => true
  | _ => false

/-- Whether an event is a step of one task or the passing of time. -/
def Event.isOwn (id : TaskId) : Event → Bool
  | step id' => id' = id
  | pass _ => true
  | _ => false

/-- A task comes to an end by its own steps, as time passes. -/
def Machine.EndsAlone {World Writer : Type} (env : Env World Writer) (m : Machine World Writer)
    (id : TaskId) : Prop :=
  ∃ events : List Event, (∀ e ∈ events, e.isOwn id = true) ∧
    ∃ task result, (m.run env events).task? id = some task ∧ task.phase = .ended result

/-- Operations are carried out one after the other: the next one is asked for when the last one has
come to its result. -/
inductive Machine.Completes {World Writer : Type} (env : Env World Writer) :
    Machine World Writer → List Reference.Operation → List (Except StoreError Outcome) →
      Machine World Writer → Prop where
  | nil {m : Machine World Writer} : Completes env m [] [] m
  | cons {m m' : Machine World Writer} {op : Reference.Operation}
      {ops : List Reference.Operation} {steps : List Event} {task : Task Writer}
      {result : Except StoreError Outcome} {results : List (Except StoreError Outcome)} :
      (∀ e ∈ steps, e.isProgress = true) →
      (m.run env (.request op.request :: steps)).task? m.nextTask = some task →
      task.phase = .ended result →
      Completes env (m.run env (.request op.request :: steps)) ops results m' →
      Completes env m (op :: ops) (result :: results) m'

end Storage

namespace Memory

/-- No call of a kind is ordered to fail. -/
def Allows (m : Memory) (call : Call) : Prop := ∀ n, m.failures.lookup call = some n → n = 0

/-- No call is ordered to fail. -/
def Unfailing (m : Memory) : Prop := ∀ call n, m.failures.lookup call = some n → n = 0

end Memory

end Depot
