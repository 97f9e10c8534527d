import AppendLog.Number.Binary

/-! Floats in decimal.

`Binary64.shortest` finds the decimal with the fewest digits among those that read
back as the float, and the nearest one of those. A `DecimalLayout` says how such a
decimal is written out.
-/

set_option autoImplicit false

namespace AppendLog

/-- The number `digits * 10 ^ exponent`. -/
structure Decimal where
  digits : Nat
  exponent : Int
  deriving DecidableEq, Repr

def scaleByTen (num den : Nat) (exponent : Int) : Nat × Nat :=
  (num * 10 ^ exponent.toNat, den * 10 ^ (-exponent).toNat)

def digitCount (n : Nat) : Nat := (Nat.toDigits 10 n).length

/-- The greatest `e` with `10 ^ e` at most the positive fraction. -/
def floorLog10 (num den : Nat) : Int :=
  if den ≤ num then (digitCount (num / den) : Int) - 1
  else -(digitCount ((den + num - 1) / num - 1) : Int)

def Decimal.strip : (fuel : Nat) → Decimal → Decimal
  | 0, decimal => decimal
  | fuel + 1, decimal =>
    if decimal.digits % 10 = 0 then strip fuel ⟨decimal.digits / 10, decimal.exponent + 1⟩
    else decimal

namespace Binary64

/-- A positive finite float and the ends of the interval of reals that round to it,
in quarters of its unit in the last place. The ends belong to it when the
significand is even. -/
structure Neighbourhood where
  value : Nat
  low : Nat
  high : Nat
  closed : Bool

def neighbourhood (bits : Binary64) : Neighbourhood :=
  let m := significand bits
  let gap := if fraction bits = 0 ∧ 1 < exponentField bits then 1 else 2
  ⟨4 * m, 4 * m - gap, 4 * m + 2, m % 2 == 0⟩

def quarterUnit (bits : Binary64) : Nat × Nat :=
  (2 ^ (scale bits - 1077), 2 ^ (1077 - scale bits))

def ofCount? (bits : Binary64) (count : Nat) : Option Decimal :=
  let near := neighbourhood bits
  let (num, den) := quarterUnit bits
  let exponent := floorLog10 (near.value * num) den - (count - 1)
  let (num, den) := scaleByTen num den (-exponent)
  let below := near.value * num / den
  let readsBack (digits : Nat) : Bool :=
    if near.closed then near.low * num ≤ digits * den && digits * den ≤ near.high * num
    else near.low * num < digits * den && digits * den < near.high * num
  let nearest := roundDiv (near.value * num) den
  let other := if nearest = below then below + 1 else below
  if readsBack nearest then some ⟨nearest, exponent⟩
  else if readsBack other then some ⟨other, exponent⟩
  else none

def shortest (bits : Binary64) : Decimal :=
  match (List.range 17).findSome? fun count => ofCount? bits (count + 1) with
  | some decimal => decimal.strip 17
  | none => ⟨0, 0⟩

end Binary64

/-- How decimals are written out: the exponents of the leading digit from
`lowest` to `highest` are positional, the others have an exponent part. -/
structure DecimalLayout where
  lowest : Int
  highest : Int

namespace DecimalLayout

def zeros (count : Int) : List Char := List.replicate count.toNat '0'

/-- A number with a point in it always has a digit on either side. -/
def positional (digits : List Char) (point : Int) : List Char :=
  if point ≤ 0 then '0' :: '.' :: zeros (-point) ++ digits
  else if (digits.length : Int) ≤ point then
    digits ++ zeros (point - digits.length) ++ ['.', '0']
  else digits.take point.toNat ++ '.' :: digits.drop point.toNat

def scientific (digits : List Char) (leading : Int) : List Char :=
  let fraction := if digits.length ≤ 1 then [] else '.' :: digits.drop 1
  let sign := if leading < 0 then '-' else '+'
  digits.take 1 ++ fraction ++ 'e' :: sign :: Nat.toDigits 10 leading.natAbs

def write (layout : DecimalLayout) (decimal : Decimal) : List Char :=
  let digits := Nat.toDigits 10 decimal.digits
  let point := digits.length + decimal.exponent
  if layout.lowest ≤ point - 1 ∧ point - 1 ≤ layout.highest then positional digits point
  else scientific digits (point - 1)

def float (layout : DecimalLayout) (bits : Binary64) : String :=
  let magnitude :=
    if Binary64.significand bits = 0 then positional ['0'] 1
    else layout.write (Binary64.shortest bits)
  String.ofList (if Binary64.isNegative bits then '-' :: magnitude else magnitude)

end DecimalLayout

end AppendLog
