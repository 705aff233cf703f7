/-!
# Base 64

Bytes written as text, three bytes as four symbols of six bits each. The last group of symbols is
filled up with `=`, and the bits that it has too many are zero.
-/

set_option autoImplicit false

namespace Depot.Text.Base64

/-- What is wrong with a text, with the place of the character and its code. -/
inductive Fault where
  | symbol (offset : Nat) (code : Nat)
  | lastSymbol (offset : Nat) (code : Nat)
  | length (n : Nat)
  | padding
  deriving DecidableEq, Repr

/-- The wording of a fault. -/
def Fault.message : Fault → String
  | symbol offset code => s!"Invalid symbol {code}, offset {offset}."
  | lastSymbol offset code => s!"Invalid last symbol {code}, offset {offset}."
  | length n => s!"Invalid input length: {n}"
  | padding => "Invalid padding"

/-- The byte that fills up the last group. -/
def pad : UInt8 := 61

/-- The symbol of six bits. -/
def symbolOf (n : Nat) : UInt8 :=
  if n < 26 then (65 + n).toUInt8
  else if n < 52 then (97 + (n - 26)).toUInt8
  else if n < 62 then (48 + (n - 52)).toUInt8
  else if n = 62 then 43
  else 47

/-- The six bits of a symbol. -/
def valueOf (b : UInt8) : Option Nat :=
  let n := b.toNat
  if 65 ≤ n ∧ n ≤ 90 then some (n - 65)
  else if 97 ≤ n ∧ n ≤ 122 then some (n - 97 + 26)
  else if 48 ≤ n ∧ n ≤ 57 then some (n - 48 + 52)
  else if n = 43 then some 62
  else if n = 47 then some 63
  else none

/-- The symbols of some bytes. -/
def encode : List UInt8 → List UInt8
  | [] => []
  | [a] => [symbolOf (a.toNat / 4), symbolOf (a.toNat % 4 * 16), pad, pad]
  | [a, b] =>
    [symbolOf (a.toNat / 4), symbolOf (a.toNat % 4 * 16 + b.toNat / 16),
      symbolOf (b.toNat % 16 * 4), pad]
  | a :: b :: c :: rest =>
    symbolOf (a.toNat / 4) :: symbolOf (a.toNat % 4 * 16 + b.toNat / 16) ::
      symbolOf (b.toNat % 16 * 4 + c.toNat / 64) :: symbolOf (c.toNat % 64) :: encode rest

/-- The bits of a symbol at some place, which must be one. -/
def value (offset : Nat) (b : UInt8) : Except Fault Nat :=
  match valueOf b with
  | some n => .ok n
  | none => .error (.symbol offset b.toNat)

/-- The bits of the symbols of the last group, whose padding may begin at its third place. -/
def lastValues (start : Nat) : Nat → Option Nat → List UInt8 → Except Fault (List Nat × Nat)
  | _, _, [] => .ok ([], 0)
  | i, padded, b :: rest =>
    if b = pad then
      if i < 2 then .error (.symbol (start + i) b.toNat)
      else (lastValues start (i + 1) (some (padded.getD i)) rest).map fun (vs, n) => (vs, n + 1)
    else
      match padded with
      | some first => .error (.symbol (start + first) pad.toNat)
      | none => do
        let v ← value (start + i) b
        let (vs, n) ← lastValues start (i + 1) none rest
        pure (v :: vs, n)

/-- The bytes of the last group, of at most four symbols, that begins at the place `start`. -/
def decodeLast (start : Nat) (group : List UInt8) : Except Fault (List UInt8) := do
  let (values, pads) ← lastValues start 0 none group
  if values.length < 2 then throw (.length (start + values.length))
  if (values.length + pads) % 4 ≠ 0 then throw .padding
  let code (i : Nat) : Nat := ((group[i]?).map (·.toNat)).getD 0
  match values with
  | [a, b] =>
    if b % 16 ≠ 0 then throw (.lastSymbol (start + 1) (code 1))
    pure [(a * 4 + b / 16).toUInt8]
  | [a, b, c] =>
    if c % 4 ≠ 0 then throw (.lastSymbol (start + 2) (code 2))
    pure [(a * 4 + b / 16).toUInt8, (b % 16 * 16 + c / 4).toUInt8]
  | [a, b, c, d] =>
    pure [(a * 4 + b / 16).toUInt8, (b % 16 * 16 + c / 4).toUInt8, (c % 4 * 64 + d).toUInt8]
  | _ => throw .padding

/-- The bytes of the groups from the place `start` on. -/
def decodeGroups (start : Nat) : List UInt8 → Except Fault (List UInt8)
  | s :: t :: u :: v :: w :: rest => do
    let a ← value start s
    let b ← value (start + 1) t
    let c ← value (start + 2) u
    let d ← value (start + 3) v
    let bytes ← decodeGroups (start + 4) (w :: rest)
    pure ((a * 4 + b / 16).toUInt8 :: (b % 16 * 16 + c / 4).toUInt8 ::
      (c % 4 * 64 + d).toUInt8 :: bytes)
  | group => decodeLast start group

/-- The bytes that a text stands for. A last character that is no symbol and stands alone behind
full groups is reported before all others. -/
def decode (text : List UInt8) : Except Fault (List UInt8) :=
  match text, text.getLast? with
  | [], _ => .ok []
  | text, some b =>
    if text.length % 4 = 1 ∧ b ≠ pad ∧ (valueOf b).isNone then
      .error (.symbol (text.length - 1) b.toNat)
    else decodeGroups 0 text
  | text, none => decodeGroups 0 text

end Depot.Text.Base64
