import Depot.Entry.Basic
import Depot.Json.Value
import Depot.Text.ByteSize

/-!
# Printing

What the program writes to its two output streams, as text for people or as JSON. In JSON mode the
first stream holds nothing but the document of a result, and nothing is styled.
-/

set_option autoImplicit false

namespace Depot.Console

/-- How the output is to look. -/
structure Settings where
  json : Bool
  noColor : Bool
  quiet : Bool
  /-- Whether the terminal shows styles. -/
  terminal : Bool
  deriving DecidableEq, Repr, Inhabited

/-- A way to make text stand out, as the codes of the attributes that it sets. -/
structure Style where
  codes : List Nat
  deriving DecidableEq, Repr

namespace Style

/-- Directories are blue and bold. -/
def directory : Style := ⟨[34, 1]⟩

/-- Sizes are green. -/
def size : Style := ⟨[32]⟩

/-- Times are dim. -/
def date : Style := ⟨[2]⟩

/-- The names of properties are cyan. -/
def key : Style := ⟨[36]⟩

/-- The mark of a success is green. -/
def success : Style := ⟨[32]⟩

/-- The mark of a failure is red. -/
def error : Style := ⟨[31]⟩

/-- The sequence that sets an attribute. -/
def sequence (code : Nat) : String := s!"\x1b[{code}m"

/-- A text with the attributes set in front and taken back behind. -/
def apply (style : Style) (text : String) : String :=
  String.join (style.codes.map sequence) ++ text ++ sequence 0

end Style

/-- Text or bytes that were written. -/
inductive Piece where
  | text (s : String)
  | data (bytes : ByteArray)

/-- The bytes of a piece. -/
def Piece.bytes : Piece → ByteArray
  | text s => s.toUTF8
  | data bytes => bytes

/-- What was written to the two streams, in order. -/
structure Transcript where
  out : List Piece
  err : List String

namespace Transcript

/-- Nothing. -/
def empty : Transcript := ⟨[], []⟩

/-- One after the other. -/
def append (s t : Transcript) : Transcript := ⟨s.out ++ t.out, s.err ++ t.err⟩

instance : Append Transcript := ⟨append⟩

/-- A line on the first stream. -/
def line (s : String) : Transcript := ⟨[.text (s ++ "\n")], []⟩

/-- A line on the second stream. -/
def errorLine (s : String) : Transcript := ⟨[], [s ++ "\n"]⟩

/-- The bytes of the first stream. -/
def outBytes (t : Transcript) : ByteArray := t.out.foldl (fun bytes p => bytes ++ p.bytes) .empty

/-- The text of the second stream. -/
def errText (t : Transcript) : String := String.join t.err

end Transcript

namespace Settings

/-- A text in a style, if styles are wanted and shown. -/
def styled (s : Settings) (style : Style) (text : String) : String :=
  if s.noColor || s.json || !s.terminal then text else style.apply text

/-- A line, unless the run is to be quiet. -/
def print (s : Settings) (text : String) : Transcript :=
  if s.quiet then .empty else .line text

/-- The report of a success; there is none in JSON mode. -/
def success (s : Settings) (text : String) : Transcript :=
  if s.quiet || s.json then .empty
  else
    let mark := s.styled .success "✓"
    .line s!"{mark} {text}"

/-- The report of a failure. -/
def error (s : Settings) (text : String) : Transcript :=
  if s.json then .errorLine (Json.Value.object [("error", .string text)]).toPretty
  else
    let mark := s.styled .error "✗"
    .errorLine s!"{mark} {text}"

/-- A document. -/
def document (v : Json.Value) : Transcript := .line v.toPretty

end Settings

/-- A time, or a hyphen in a field of the same width. -/
def timeText : Option Time.Instant → String
  | some t => t.display
  | none => Text.padRight 23 "-"

end Depot.Console
