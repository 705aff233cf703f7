import Depot.Stream

/-!
# Uploads

The data of a source is written to a store in pieces of at most half a MiB. The source is read again
only when all that was read is written. At its end the writer is flushed and the object is
completed.
-/

set_option autoImplicit false

namespace Depot

/-- The most that is read from a source at once. -/
def copyBufferSize : Nat := 512 * 1024

/-- How far an upload has come. -/
structure Upload (Writer : Type) where
  /-- The key of the object. -/
  key : String
  /-- What is still to be read. -/
  source : Stream
  /-- What was read and is not written yet. -/
  buffer : ByteArray
  /-- How much was written. -/
  amount : Nat
  writer : Writer

namespace Upload

variable {Writer : Type}

/-- At the start, with the whole source to be read. -/
def start (key : String) (source : Stream) (writer : Writer) : Upload Writer :=
  ⟨key, source, .empty, 0, writer⟩

/-- What an upload does next. -/
inductive Step (Writer : Type) where
  /-- Writes these bytes. -/
  | write (bytes : ByteArray)
  /-- Goes on after it has read something. -/
  | read (u : Upload Writer)
  /-- Goes on after a pause. -/
  | pause (ms : Nat) (u : Upload Writer)
  /-- Completes the object: all is written. -/
  | complete
  | fail (e : IoError)

/-- What there is to do next. -/
def step (u : Upload Writer) : Step Writer :=
  if u.buffer.size ≠ 0 then .write u.buffer
  else
    match Stream.pull copyBufferSize u.source with
    | .data bytes rest => .read { u with source := rest, buffer := bytes }
    | .pause ms rest => .pause ms { u with source := rest }
    | .fail e => .fail e
    | .finished => .complete

/-- Takes note that `n` bytes were written. A writer that takes none is an error. -/
def wrote (n : Nat) (u : Upload Writer) : Except IoError (Upload Writer) :=
  if n = 0 then .error ⟨.writeZero, none⟩
  else .ok { u with buffer := u.buffer.extract n u.buffer.size, amount := u.amount + n }

end Upload

end Depot
