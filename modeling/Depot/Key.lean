/-!
# Keys

An object is stored under a flat key. A path given by a caller is read as a list of segments: both
`/` and `\` separate, empty segments and `.` count for nothing, and `..` takes back the segment
before it. Under a root, `..` never takes back a segment of the root, so no path leaves it. Keys
carry no separator at either end; the empty key stands for the whole bucket.
-/

set_option autoImplicit false

namespace Depot

/-- One segment of a key: the characters between two separators. -/
abbrev Segment := List Char

namespace Key

/-- The separator that keys are written with. -/
def separator : Char := '/'

/-- The characters that separate segments in a caller's path. -/
def isSeparator (c : Char) : Bool := c == '/' || c == '\\'

/-- The pieces of a text between the characters that satisfy `sep`. There is one piece more than
there are such characters. -/
def pieces (sep : Char → Bool) : List Char → List Segment
  | [] => [[]]
  | c :: cs =>
    match sep c, pieces sep cs with
    | true, ps => [] :: ps
    | false, [] => [[c]]
    | false, p :: ps => (c :: p) :: ps

/-- One more piece of a path: empty pieces and `.` are passed over, `..` takes back the last
segment unless only `floor` segments are left, and any other piece is a segment. -/
def push (floor : Nat) (segments : List Segment) (piece : Segment) : List Segment :=
  if piece = [] ∨ piece = ['.'] then segments
  else if piece = ['.', '.'] then
    if floor < segments.length then segments.dropLast else segments
  else segments ++ [piece]

/-- The segments of `path` read below the segments `base`, which `..` leaves in place. -/
def resolve (base : List Segment) (path : List Char) : List Segment :=
  (pieces isSeparator path).foldl (push base.length) base

/-- Segments written as one key. -/
def render (segments : List Segment) : String :=
  String.ofList (List.intercalate [separator] segments)

/-- The segments that a normalized key is written with. -/
def segments (key : String) : List Segment :=
  (pieces (· == separator) key.toList).filter (· ≠ [])

/-- The normal form of a path. -/
def normalize (path : String) : String := render (resolve [] path.toList)

/-- The key of `path` below the normalized root `root`. -/
def below (root path : String) : String := render (resolve (segments root) path.toList)

/-- `text` without `lead` in front, or `none` if `text` does not begin with `lead`. -/
def dropLead? (lead text : String) : Option String :=
  if lead.toList <+: text.toList then
    some (String.ofList (text.toList.drop lead.toList.length))
  else none

/-- The name of a listed key: what follows the listing prefix. A key outside of the prefix is its
own name. -/
def relativeName (listed key : String) : String := (dropLead? listed key).getD key

/-- Whether the path `inner` equals `outer` or lies below it, segment by segment. -/
def isNested (outer inner : String) : Bool :=
  let outer := normalize outer
  let inner := normalize inner
  outer.isEmpty || inner == outer || (dropLead? (outer.push separator) inner).isSome

end Key

end Depot
