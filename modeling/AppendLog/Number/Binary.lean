import AppendLog.Number.Kind

/-! The two IEEE 754 binary formats, on bit patterns.

Widening is exact. Rounding goes to the nearest representable number, an exact
tie to the even one, and past the largest finite number to infinity. Either way a
NaN keeps its sign and the leading bits of its payload and becomes quiet.
-/

set_option autoImplicit false

namespace AppendLog

abbrev Binary32 := FloatKind.f32.Bits
abbrev Binary64 := FloatKind.f64.Bits

/-- A quotient rounded to the nearest whole number, a tie to the even one. -/
def roundDiv (num den : Nat) : Nat :=
  let floor := num / den
  let twice := 2 * (num % den)
  if twice < den || (twice == den && floor % 2 == 0) then floor else floor + 1

namespace Binary32

def widenMagnitude (exponent fraction : Nat) : Nat :=
  if exponent = 255 then
    let payload := fraction * 2 ^ 29
    2047 * 2 ^ 52 + (if 0 < fraction ∧ payload < 2 ^ 51 then payload + 2 ^ 51 else payload)
  else if exponent = 0 then
    if fraction = 0 then 0
    else
      let top := Nat.log2 fraction
      (top + 874) * 2 ^ 52 + (fraction - 2 ^ top) * 2 ^ (52 - top)
  else (exponent + 896) * 2 ^ 52 + fraction * 2 ^ 29

def widen (bits : Binary32) : Binary64 :=
  let n := bits.toNat
  BitVec.ofNat _ (n / 2 ^ 31 * 2 ^ 63 + widenMagnitude (n / 2 ^ 23 % 256) (n % 2 ^ 23))

end Binary32

namespace Binary64

def isNegative (bits : Binary64) : Bool := bits.toNat / 2 ^ 63 == 1

def exponentField (bits : Binary64) : Nat := bits.toNat / 2 ^ 52 % 2048

def fraction (bits : Binary64) : Nat := bits.toNat % 2 ^ 52

def isFinite (bits : Binary64) : Bool := exponentField bits != 2047

/-- The magnitude of a finite number is `significand * 2 ^ (scale - 1075)`. -/
def significand (bits : Binary64) : Nat :=
  if exponentField bits = 0 then fraction bits else fraction bits + 2 ^ 52

def scale (bits : Binary64) : Nat := max (exponentField bits) 1

/-- Bits of the magnitude rounded to single precision.

A finite single is a multiple of `2 ^ (unit - 149)` for the least `unit` that leaves
at most 24 bits; its bits are then the unit and the multiple laid end to end. -/
def roundMagnitude (bits : Binary64) : Nat :=
  if isFinite bits then
    let m := significand bits
    let unit := Nat.log2 m + scale bits - 949
    let shift := unit + 926
    let multiple :=
      if scale bits ≤ shift then roundDiv m (2 ^ (shift - scale bits))
      else m * 2 ^ (scale bits - shift)
    min (unit * 2 ^ 23 + multiple) (255 * 2 ^ 23)
  else if fraction bits = 0 then 255 * 2 ^ 23
  else
    let payload := fraction bits / 2 ^ 29
    255 * 2 ^ 23 + (if payload < 2 ^ 22 then payload + 2 ^ 22 else payload)

def toBinary32 (bits : Binary64) : Binary32 :=
  BitVec.ofNat _ (bits.toNat / 2 ^ 63 * 2 ^ 31 + roundMagnitude bits)

end Binary64

namespace FloatKind

def widen : (kind : FloatKind) → kind.Bits → Binary64
  | f32, bits => Binary32.widen bits
  | f64, bits => bits

def narrow : (kind : FloatKind) → Binary64 → kind.Bits
  | f32, bits => Binary64.toBinary32 bits
  | f64, bits => bits

end FloatKind

end AppendLog
