import Depot.Console.Invocation
import Depot.Console.Status
import Depot.Entry.Json
import Depot.Storage.Task

/-!
# Reports

What the program writes about the outcome of a command, and the status that it ends with. In JSON
mode a success is told by one document on the first output stream, whether the run is quiet or not,
and a failure by one on the second.
-/

set_option autoImplicit false

namespace Depot.Console

open Depot.Json (Value)

/-- What is written, and the status. -/
structure Report where
  status : Status
  transcript : Transcript

namespace Report

/-- A success, with what is written about it. -/
def success (t : Transcript) : Report := ⟨.success, t⟩

/-- A failure in the middle of some action. -/
def failure (s : Settings) (action : String) (e : StoreError) : Report :=
  ⟨.ofError e, s.error s!"{action}: {e.message}"⟩

end Report

/-- Adds what was written before. -/
def Report.after (t : Transcript) (r : Report) : Report :=
  { r with transcript := t ++ r.transcript }

/-- A number of bytes. -/
def sizeValue (n : Nat) : Value := .number (.integer n)

/-- A size for people, in its style. -/
def Settings.sizeText (s : Settings) (n : Nat) : String := s.styled .size (Text.byteSize n)

/-! ## Listings -/

/-- The line of an entry: its time, its size in a column of its own, and its name. -/
def Settings.entryLine (s : Settings) (e : Entry) : String :=
  let time := timeText e.modified
  let date := s.styled .date s!"[{time}]"
  match e with
  | .directory name =>
    let size := Text.padLeft 10 "PRE"
    let shown := s.styled .directory name
    s!"{date} {size} {shown}"
  | .object name size _ =>
    let size := s.styled .size (Text.padLeft 10 (Text.byteSize size))
    s!"{date} {size} {name}"

/-- The objects among some entries. -/
def objectsOf (entries : List Entry) : List Entry := entries.filter fun e => !e.isDirectory

/-- The sizes of the objects among some entries, summed up in 64 bits. -/
def totalSize (entries : List Entry) : UInt64 :=
  (objectsOf entries).foldl (fun n e => n + UInt64.ofNat e.size) 0

/-- The document of a listing. -/
def listingValue (entries : List Entry) : Value :=
  .object
    [("items", .array (entries.map (·.toJson))),
     ("total_objects", sizeValue (objectsOf entries).length),
     ("total_size_bytes", sizeValue (totalSize entries).toNat)]

/-- The report of a listing. The lines of entries that were visited before a failure are there. -/
def listReport (s : Settings) (result : Except StoreError Unit) (visited : List Entry) : Report :=
  let lines :=
    if s.json then .empty
    else visited.foldl (fun t e => t ++ s.print (s.entryLine e)) Transcript.empty
  match result with
  | .ok () =>
    .success (lines ++ if s.json then Settings.document (listingValue visited) else .empty)
  | .error e => (Report.failure s "Failed to list objects" e).after lines

/-! ## Objects -/

/-- The text for a stream that breaks off. -/
def brokenText : String := "streaming error"

/-- The report of writing an object to the first stream. -/
def printReport (s : Settings) (path : String) (bytes : ByteArray) (broken : Bool) : Report :=
  let written : Transcript := ⟨[.data bytes], []⟩
  if broken then ⟨.networkError, written ++ s.error s!"Failed to read {path}: {brokenText}"⟩
  else .success written

/-- The document of an upload. -/
def uploadValue (localPath remote : String) (size : Nat) : Value :=
  .object
    [("local", .string localPath), ("remote", .string remote), ("size_bytes", sizeValue size),
     ("size_human", .string (Text.byteSize size))]

/-- The report of an upload that succeeded. -/
def uploadReport (s : Settings) (localPath remote : String) (size : Nat) : Report :=
  let human := s.sizeText size
  .success <|
    if s.json then Settings.document (uploadValue localPath remote size)
    else s.success s!"{localPath} -> {remote} ({human})"

/-- The document of a look-up. A time that is not known is left out. -/
def statValue (e : Entry) : Value :=
  .object <|
    [("name", .string e.name), ("size_bytes", sizeValue e.size),
     ("size_human", .string (Text.byteSize e.size))] ++
    (e.modified.map fun t => ("last_modified", Value.string t.text)).toList

/-- The report of a look-up that succeeded. -/
def statReport (s : Settings) (e : Entry) : Report :=
  let line (key value : String) : Transcript :=
    let key := s.styled .key key
    s.print s!"{key} {value}"
  let human := s.sizeText e.size
  .success <|
    if s.json then Settings.document (statValue e)
    else
      line "Name    :" e.name ++ line "Size    :" s!"{human} ({e.size} bytes)" ++
        line "Modified:" (s.styled .date (timeText e.modified))

/-- The document of a removal. -/
def removeValue (path : String) (fromDisk : Bool) : Value :=
  .object [("deleted", .string path), ("object_disk", .bool fromDisk)]

/-- The report of a removal that succeeded. -/
def removeReport (s : Settings) (path : String) (fromDisk : Bool) : Report :=
  .success <|
    if s.json then Settings.document (removeValue path fromDisk)
    else s.success s!"Removed {path}"

/-- The document of a copy. -/
def copyValue (source target : String) (size : Nat) : Value :=
  .object
    [("source", .string source), ("target", .string target), ("size_bytes", sizeValue size),
     ("size_human", .string (Text.byteSize size))]

/-- The report of a copy that succeeded. -/
def copyReport (s : Settings) (source target : String) (size : Nat) : Report :=
  let human := s.sizeText size
  .success <|
    if s.json then Settings.document (copyValue source target size)
    else s.success s!"{source} -> {target} ({human})"

/-- The document of a kind. -/
def kindValue (bucket kind : String) : Value :=
  .object [("bucket", .string bucket), ("kind", .string kind)]

/-- The report of the kind of the store. -/
def kindReport (s : Settings) (bucket kind : String) : Report :=
  .success <| if s.json then Settings.document (kindValue bucket kind) else s.print kind

/-! ## Commands -/

/-- What a command is about, for the report of its failure. -/
def Command.action : Command → String
  | .list _ _ => "Failed to list objects"
  | .print path => s!"Failed to open {path}"
  | .upload _ remote => s!"Failed to upload {remote}"
  | .stat path => s!"Failed to stat {path}"
  | .remove path _ => s!"Failed to remove {path}"
  | .copy bucket key _ => s!"Failed to copy {bucket}/{key}"
  | .kind => "Failed to tell the kind"

/-- An outcome that does not belong to its command. No storage comes to one. -/
def strayOutcome : StoreError := .general "unexpected outcome"

/-- The report of the outcome of a command, with the entries that it visited. -/
def Command.report (s : Settings) (command : Command) (localSize : Nat)
    (result : Except StoreError Storage.Outcome) (visited : List Entry) : Report :=
  match command, result with
  | .list _ _, result => listReport s (result.map fun _ => ()) visited
  | .print path, .ok (.data bytes) => printReport s path bytes false
  | .print path, .ok (.broken bytes _) => printReport s path bytes true
  | .upload localPath remote, .ok .unit => uploadReport s localPath remote localSize
  | .stat _, .ok (.entry e) => statReport s e
  | .remove path fromDisk, .ok .unit => removeReport s path fromDisk
  | .copy bucket key target, .ok (.count n) => copyReport s s!"{bucket}/{key}" target n
  | command, .ok _ => .failure s command.action strayOutcome
  | command, .error e => .failure s command.action e

end Depot.Console
