/-!
# UTF-8

Text as bytes. A character takes one to four bytes, of which the first tells the number; the least
number is used, and the codes of surrogates do not occur. A fault is reported with the length of
what cannot be the beginning of a character.
-/

set_option autoImplicit false

namespace Depot.Text.Utf8

/-- A fault in a sequence of bytes. -/
structure Fault where
  /-- The bytes in front of it, which are in order. -/
  offset : Nat
  /-- The bytes that cannot begin a character; none if the sequence ends too early. -/
  length : Option Nat
  deriving DecidableEq, Repr

/-- The wording of a fault. -/
def Fault.message (f : Fault) : String :=
  match f.length with
  | some n => s!"invalid utf-8 sequence of {n} bytes from index {f.offset}"
  | none => s!"incomplete utf-8 byte sequence from index {f.offset}"

/-- The bytes of a text. -/
def encode (cs : List Char) : List UInt8 := cs.flatMap String.utf8EncodeChar

/-- Whether a byte continues a character. -/
def isTail (b : UInt8) : Bool := 0x80 ≤ b && b ≤ 0xBF

/-- Whether a second byte may follow the first byte `a` of three. -/
def second3 (a b : UInt8) : Bool :=
  if a == 0xE0 then 0xA0 ≤ b && b ≤ 0xBF
  else if a == 0xED then 0x80 ≤ b && b ≤ 0x9F
  else isTail b

/-- Whether a second byte may follow the first byte `a` of four. -/
def second4 (a b : UInt8) : Bool :=
  if a == 0xF0 then 0x90 ≤ b && b ≤ 0xBF
  else if a == 0xF4 then 0x80 ≤ b && b ≤ 0x8F
  else isTail b

/-- The last six bits of a byte. -/
def low (b : UInt8) : Nat := b.toNat % 64

/-- The first character and the bytes behind it, or the number of bytes that are at fault. -/
def scan : List UInt8 → Except (Option Nat) (Char × List UInt8)
  | [] => .error none
  | a :: rest =>
    if a < 0x80 then .ok (Char.ofNat a.toNat, rest)
    else if 0xC2 ≤ a && a ≤ 0xDF then
      match rest with
      | [] => .error none
      | b :: rest =>
        if isTail b then .ok (Char.ofNat (a.toNat % 32 * 64 + low b), rest) else .error (some 1)
    else if 0xE0 ≤ a && a ≤ 0xEF then
      match rest with
      | [] => .error none
      | b :: rest =>
        if !second3 a b then .error (some 1)
        else
          match rest with
          | [] => .error none
          | c :: rest =>
            if isTail c then .ok (Char.ofNat ((a.toNat % 16 * 64 + low b) * 64 + low c), rest)
            else .error (some 2)
    else if 0xF0 ≤ a && a ≤ 0xF4 then
      match rest with
      | [] => .error none
      | b :: rest =>
        if !second4 a b then .error (some 1)
        else
          match rest with
          | [] => .error none
          | c :: rest =>
            if !isTail c then .error (some 2)
            else
              match rest with
              | [] => .error none
              | d :: rest =>
                if isTail d then
                  .ok (Char.ofNat (((a.toNat % 8 * 64 + low b) * 64 + low c) * 64 + low d), rest)
                else .error (some 3)
    else .error (some 1)

/-- The text of some bytes, behind `offset` bytes that were read, in at most `fuel` characters. -/
def decodeFrom : Nat → Nat → List UInt8 → Except Fault (List Char)
  | _, _, [] => .ok []
  | 0, offset, _ => .error ⟨offset, none⟩
  | fuel + 1, offset, bytes =>
    match scan bytes with
    | .error length => .error ⟨offset, length⟩
    | .ok (c, rest) =>
      (decodeFrom fuel (offset + (bytes.length - rest.length)) rest).map (c :: ·)

/-- The text of some bytes. -/
def decode (bytes : List UInt8) : Except Fault (List Char) := decodeFrom bytes.length 0 bytes

end Depot.Text.Utf8
