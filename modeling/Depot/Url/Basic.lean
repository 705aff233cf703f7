import Depot.Text.Blank
import Depot.Url.Domain

/-!
# Addresses of services

Checks that a text is an absolute address: a scheme, and for the schemes of the web a host. What
follows the host may be anything.
-/

set_option autoImplicit false

namespace Depot.Url

/-- What keeps a text from being an address. -/
inductive Fault where
  | emptyHost
  | invalidName
  | invalidPort
  | invalidAddress4
  | invalidAddress6
  | invalidCharacter
  /-- There is no scheme. -/
  | notAbsolute
  deriving DecidableEq, Repr

/-- The wording of a fault. -/
def Fault.message : Fault → String
  | emptyHost => "empty host"
  | invalidName => "invalid international domain name"
  | invalidPort => "invalid port number"
  | invalidAddress4 => "invalid IPv4 address"
  | invalidAddress6 => "invalid IPv6 address"
  | invalidCharacter => "invalid domain character"
  | notAbsolute => "relative URL without a base"

/-- The kinds of schemes. -/
inductive SchemeKind where
  | file
  /-- The other schemes of the web, which always name a host. -/
  | web
  | other
  deriving DecidableEq, Repr

/-- The kind of a scheme in lower case. -/
def SchemeKind.of (scheme : String) : SchemeKind :=
  if scheme = "file" then .file
  else if ["http", "https", "ws", "wss", "ftp"].contains scheme then .web
  else .other

/-- Whether a backslash separates as a slash does. -/
def SchemeKind.isSpecial (k : SchemeKind) : Bool := k ≠ .other

/-- Whether a character may stand in a scheme behind its first letter. -/
def isSchemeChar (c : Char) : Bool := c.isAlphanum || c == '+' || c == '-' || c == '.'

/-- The scheme in lower case, and what follows its colon. -/
def splitScheme (cs : List Char) : Option (String × List Char) :=
  let scheme := cs.takeWhile isSchemeChar
  match scheme.head?, cs.dropWhile isSchemeChar with
  | some c, ':' :: rest =>
    if c.isAlpha then some (String.ofList (scheme.map Char.toLower), rest) else none
  | _, _ => none

/-- Whether a character ends the part that names the host. -/
def endsAuthority (k : SchemeKind) (c : Char) : Bool :=
  c == '/' || c == '?' || c == '#' || (k.isSpecial && c == '\\')

/-- A part with a user in front of the last `@`: whether a user is named, and the rest. -/
def splitUser (authority : List Char) : Option (List Char) × List Char :=
  if authority.contains '@' then
    let (host, user) := authority.reverse.span (· ≠ '@')
    (some (user.drop 1).reverse, host.reverse)
  else (none, authority)

/-- A host up to a colon that is outside of brackets, and the rest from the colon on. -/
def splitHost (inBrackets : Bool) : List Char → List Char × List Char
  | [] => ([], [])
  | c :: cs =>
    if c = ':' ∧ ¬ inBrackets then ([], c :: cs)
    else
      let inBrackets := if c = '[' then true else if c = ']' then false else inBrackets
      let (host, rest) := splitHost inBrackets cs
      (c :: host, rest)

/-- A port: digits up to a separator, with a value of 16 bits. -/
def checkPort : List Char → Nat → Except Fault Unit
  | [], _ => .ok ()
  | c :: cs, port =>
    match Decimal.digit? c with
    | some d => if port * 10 + d > 65535 then .error .invalidPort else checkPort cs (port * 10 + d)
    | none =>
      if c = '/' ∨ c = '\\' ∨ c = '?' ∨ c = '#' then .ok () else .error .invalidPort

/-- An address of version 6 in brackets. -/
def checkBrackets (host : List Char) : Except Fault Unit :=
  if host.getLast? = some ']' ∧ isAddress6 (host.drop 1).dropLast then .ok ()
  else .error .invalidAddress6

/-- A host of a scheme of the web. -/
def checkName (host : List Char) : Except Fault Unit :=
  if host.head? = some '[' then checkBrackets host
  else
    match plainName? host with
    | none => .error .invalidName
    | some name =>
      if name.isEmpty then .error .emptyHost
      else if endsInNumber name ∧ ¬ isAddress4 name then .error .invalidAddress4
      else .ok ()

/-- A host of any other scheme. -/
def checkOpaque (host : List Char) : Except Fault Unit :=
  if host.head? = some '[' then checkBrackets host
  else if host.any fun c => "\x00\t\n\r #/:<>?@[\\]^|".toList.contains c then
    .error .invalidCharacter
  else .ok ()

/-- The part behind two slashes, up to which `rest` was read. -/
def checkAuthority (k : SchemeKind) (cs : List Char) : Except Fault Unit := do
  let authority := cs.takeWhile fun c => !endsAuthority k c
  let rest := cs.dropWhile fun c => !endsAuthority k c
  let (user?, host) := splitUser authority
  if user? = some [] ∧ host.isEmpty ∧ ¬ rest.isEmpty then throw .emptyHost
  -- A user that is only a colon counts as none.
  let named := user?.any fun u => ¬ u.isEmpty ∧ u ≠ [':']
  let (host, port) := splitHost false host
  if k = .web ∧ host.isEmpty then throw .emptyHost
  match k with
  | .other => checkOpaque host
  | _ => checkName host
  match port with
  | ':' :: digits =>
    if host.isEmpty then throw .emptyHost
    checkPort (digits ++ rest) 0
  | _ => pure ()
  if host.isEmpty ∧ named then throw .emptyHost

/-- Whether a text is a letter of a drive. -/
def isDrive (host : List Char) : Bool :=
  match host with
  | [c, d] => c.isAlpha && (d == ':' || d == '|')
  | _ => false

/-- What follows the colon of the scheme for files. -/
def checkFile (cs : List Char) : Except Fault Unit :=
  let isSlash (c : Char) : Bool := c == '/' || c == '\\'
  match cs with
  | a :: b :: rest =>
    if isSlash a ∧ isSlash b then
      let host := rest.takeWhile fun c => !endsAuthority .file c
      if host.isEmpty ∨ isDrive host then .ok () else checkName host
    else .ok ()
  | _ => .ok ()

/-- Whether a character is read over everywhere in an address. -/
def isSkipped (c : Char) : Bool := c == '\t' || c == '\n' || c == '\r'

/-- Whether a text is an absolute address. -/
def check (text : String) : Except Fault Unit :=
  let cs := (Text.trimBy (fun c => c.toNat ≤ 0x20) text.toList).filter fun c => !isSkipped c
  match splitScheme cs with
  | none => .error .notAbsolute
  | some (scheme, rest) =>
    match SchemeKind.of scheme with
    | .file => checkFile rest
    | .web => checkAuthority .web (rest.dropWhile fun c => c == '/' || c == '\\')
    | .other =>
      match rest with
      | '/' :: '/' :: rest => checkAuthority .other rest
      | _ => .ok ()

end Depot.Url
