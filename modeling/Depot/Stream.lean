import Depot.Error

/-!
# Streams

What a reader yields over time: pieces of data, pauses, and possibly a failure. A stream that runs
out, or yields an empty piece, has come to its end.
-/

set_option autoImplicit false

namespace Depot

/-- One thing that a stream does next. -/
inductive Chunk where
  | data (bytes : ByteArray)
  | pause (ms : Nat)
  | fail (e : IoError)

/-- All that a stream will do, in order. -/
abbrev Stream := List Chunk

namespace Stream

/-- The stream of one piece of data. -/
def ofBytes (bytes : ByteArray) : Stream := [.data bytes]

/-- What one read from a stream comes to. -/
inductive Pull where
  /-- Some data, and what the stream does afterwards. -/
  | data (bytes : ByteArray) (rest : Stream)
  /-- A pause, after which the read goes on. -/
  | pause (ms : Nat) (rest : Stream)
  | fail (e : IoError)
  | finished

/-- Reads at most `limit` bytes. A read yields one piece, or the front of one that is larger. A read
that was interrupted is tried again. -/
def pull (limit : Nat) : Stream → Pull
  | [] => .finished
  | .data bytes :: rest =>
    if bytes.size = 0 then .finished
    else if bytes.size ≤ limit then .data bytes rest
    else .data (bytes.extract 0 limit) (.data (bytes.extract limit bytes.size) :: rest)
  | .pause ms :: rest => .pause ms rest
  | .fail e :: rest => if e.kind = .interrupted then pull limit rest else .fail e

end Stream

end Depot
