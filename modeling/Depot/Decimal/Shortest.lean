import Depot.Decimal.Digits

/-!
# Shortest decimals

The decimal with the fewest digits that reads back as a given binary floating point number, and of
those the nearest. A number is taken apart into `m · 2 ^ q`; the reals that round to it form an
interval around it, whose ends belong to it exactly if `m` is even. Grids of powers of ten are
tried from coarse to fine, and the first grid with a point in the interval gives the digits.
-/

set_option autoImplicit false

namespace Depot.Decimal

/-- A finite binary number without its sign: `mantissa · 2 ^ exponent`. The interval of reals that
round to it is half as wide below if the number is the least of its binade. -/
structure Binary where
  mantissa : Nat
  exponent : Int
  narrowBelow : Bool
  deriving DecidableEq, Repr

/-- The finite number that 64 bits stand for, without its sign. -/
def Binary.ofBits (bits : UInt64) : Binary :=
  let field := (bits >>> 52).toNat % 2048
  let fraction := bits.toNat % Nat.pow 2 52
  if field = 0 then ⟨fraction, -1074, false⟩
  else ⟨Nat.pow 2 52 + fraction, (field : Int) - 1075, fraction = 0 && field > 1⟩

/-- Whether 64 bits stand for a finite number. -/
def isFinite (bits : UInt64) : Bool := (bits >>> 52).toNat % 2048 ≠ 2047

/-- `n · 2 ^ e` as a fraction of natural numbers. -/
def scaled (n : Nat) (e : Int) : Nat × Nat :=
  if 0 ≤ e then (n * Nat.pow 2 e.toNat, 1) else (n, Nat.pow 2 (-e).toNat)

/-- Whether the grid point `p · 10 ^ k` rounds to the number. -/
def Binary.covers (b : Binary) (p : Nat) (k : Int) : Bool :=
  -- All ends are compared as multiples of a quarter of the last place.
  let low := 4 * b.mantissa - (if b.narrowBelow then 1 else 2)
  let high := 4 * b.mantissa + 2
  let (lowNum, den) := scaled low (b.exponent - 2)
  let (highNum, _) := scaled high (b.exponent - 2)
  let (pNum, pDen) := if 0 ≤ k then (p * Nat.pow 10 k.toNat, 1) else (p, Nat.pow 10 (-k).toNat)
  let left := lowNum * pDen
  let right := highNum * pDen
  let point := pNum * den
  if b.mantissa % 2 = 0 then left ≤ point && point ≤ right else left < point && point < right

/-- The grid points `lo · 10 ^ k` and `(lo + 1) · 10 ^ k` around the number, and whether the upper
one is nearer. -/
def Binary.neighbours (b : Binary) (k : Int) : Nat × Bool :=
  let (num, den) := scaled b.mantissa b.exponent
  let (num, den) :=
    if 0 ≤ k then (num, den * Nat.pow 10 k.toNat) else (num * Nat.pow 10 (-k).toNat, den)
  (num / den, den < 2 * (num % den) || (2 * (num % den) == den && num / den % 2 == 1))

/-- The grid point of `10 ^ k` that reads back as the number, the nearer one of two. -/
def Binary.onGrid (b : Binary) (k : Int) : Option Nat :=
  let (lo, upper) := b.neighbours k
  match b.covers lo k, b.covers (lo + 1) k with
  | true, true => some (if upper then lo + 1 else lo)
  | true, false => some lo
  | false, true => some (lo + 1)
  | false, false => none

/-- The first grid from `10 ^ k` on, of `steps` grids each ten times finer than the one before,
that has a point for the number. -/
def Binary.search (b : Binary) : Nat → Int → Nat × Int
  | 0, k => (0, k)
  | steps + 1, k =>
    match b.onGrid k with
    | some p => (p, k)
    | none => b.search steps (k - 1)

/-- The shortest decimal `p · 10 ^ k` of a number that is not zero. -/
def Binary.shortest (b : Binary) : Nat × Int := b.search 640 309

/-- The text of a finite 64 bit floating point number: positional from `10 ^ -5` up to below
`10 ^ 16`, always with a point there, else with an exponent. -/
def realText (bits : UInt64) : String :=
  let b := Binary.ofBits bits
  let sign := if bits >>> 63 == 1 then "-" else ""
  if b.mantissa = 0 then sign ++ "0.0"
  else
    let (p, k) := b.shortest
    let digits := text p
    let point : Int := digits.length + k
    let body : List Char :=
      if 0 ≤ k ∧ point ≤ 16 then digits ++ List.replicate k.toNat '0' ++ ['.', '0']
      else if 0 < point ∧ point ≤ 16 then
        digits.take point.toNat ++ '.' :: digits.drop point.toNat
      else if -5 < point ∧ point ≤ 0 then
        ['0', '.'] ++ List.replicate (-point).toNat '0' ++ digits
      else
        let tail := match digits.drop 1 with
          | [] => []
          | rest => '.' :: rest
        digits.take 1 ++ tail ++ 'e' :: intText (point - 1)
    sign ++ String.ofList body

end Depot.Decimal
