import AppendLog.Number.Binary

/-! Floats of single precision that are carried in double precision.

Widening and narrowing again gives a float back bit for bit, but for a NaN that was
signalling: it comes back as the quiet one of the same sign and payload. What has been
narrowed is never signalling, and so is not changed by doing it again.
-/

set_option autoImplicit false

namespace AppendLog

namespace Binary32

def isSignalling (bits : Binary32) : Bool :=
  bits.toNat / 2 ^ 23 % 256 == 255 && (0 < bits.toNat % 2 ^ 23 && bits.toNat % 2 ^ 23 < 2 ^ 22)

def quiet (bits : Binary32) : Binary32 :=
  if isSignalling bits then BitVec.ofNat _ (bits.toNat + 2 ^ 22) else bits

def quietMagnitude (exponent fraction : Nat) : Nat :=
  exponent * 2 ^ 23 +
    if exponent = 255 ∧ 0 < fraction ∧ fraction < 2 ^ 22 then fraction + 2 ^ 22 else fraction

theorem quiet_eq (bits : Binary32) : quiet bits = BitVec.ofNat _ (bits.toNat / 2 ^ 31 * 2 ^ 31 +
    quietMagnitude (bits.toNat / 2 ^ 23 % 256) (bits.toNat % 2 ^ 23)) := by
  have whole : bits.toNat / 2 ^ 31 * 2 ^ 31 +
      (bits.toNat / 2 ^ 23 % 256 * 2 ^ 23 + bits.toNat % 2 ^ 23) = bits.toNat := by omega
  unfold quiet quietMagnitude
  by_cases signalling : isSignalling bits = true
  · rw [if_pos signalling]
    simp only [isSignalling, Bool.and_eq_true, beq_iff_eq, decide_eq_true_eq] at signalling
    rw [if_pos signalling, ← Nat.add_assoc _ (bits.toNat % 2 ^ 23), ← Nat.add_assoc, whole]
  · rw [if_neg signalling]
    simp only [isSignalling, Bool.and_eq_true, beq_iff_eq, decide_eq_true_eq] at signalling
    rw [if_neg signalling, whole, BitVec.ofNat_toNat, BitVec.setWidth_eq]

theorem widenMagnitude_of_subnormal {fraction : Nat} (some : fraction ≠ 0) : widenMagnitude 0 fraction =
    (Nat.log2 fraction + 874) * 2 ^ 52 + (fraction - 2 ^ Nat.log2 fraction) * 2 ^ (52 - Nat.log2 fraction) := by
  simp only [widenMagnitude, if_neg some, if_true]
  rfl

theorem leading_lt {fraction : Nat} (some : fraction ≠ 0) (short : fraction < 2 ^ 23) :
    Nat.log2 fraction ≤ 22 ∧ 2 ^ Nat.log2 fraction * 2 ^ (52 - Nat.log2 fraction) = 2 ^ 52 ∧
      (fraction - 2 ^ Nat.log2 fraction) * 2 ^ (52 - Nat.log2 fraction) < 2 ^ 52 := by
  have next : fraction < 2 ^ (Nat.log2 fraction + 1) := Nat.lt_log2_self
  have low : Nat.log2 fraction ≤ 22 := Nat.le_of_lt_succ ((Nat.log2_lt some).mpr short)
  have place : 2 ^ Nat.log2 fraction * 2 ^ (52 - Nat.log2 fraction) = 2 ^ 52 := by
    rw [← Nat.pow_add, Nat.add_sub_of_le (by omega)]
  refine ⟨low, place, ?_⟩
  rw [Nat.pow_succ] at next
  exact place ▸ Nat.mul_lt_mul_of_pos_right (by omega) (Nat.two_pow_pos _)

theorem widenMagnitude_lt {exponent fraction : Nat} (small : exponent < 256) (short : fraction < 2 ^ 23) :
    widenMagnitude exponent fraction < 2 ^ 63 := by
  by_cases subnormal : exponent = 0 ∧ fraction ≠ 0
  · obtain ⟨rfl, some⟩ := subnormal
    obtain ⟨low, -, behind⟩ := leading_lt some short
    rw [widenMagnitude_of_subnormal some]
    omega
  · unfold widenMagnitude
    dsimp only
    split
    · split <;> omega
    · split
      · rw [if_pos (by omega)]
        decide
      · omega

end Binary32

theorem roundDiv_mul (n : Nat) {den : Nat} (positive : 0 < den) : roundDiv (n * den) den = n := by
  simp [roundDiv, Nat.mul_div_cancel n positive, positive]

namespace Binary64

theorem fields_ofNat {sign magnitude : Nat} (binary : sign < 2) (bound : magnitude < 2 ^ 63) :
    (BitVec.ofNat _ (sign * 2 ^ 63 + magnitude) : Binary64).toNat / 2 ^ 63 = sign ∧
      exponentField (BitVec.ofNat _ (sign * 2 ^ 63 + magnitude)) = magnitude / 2 ^ 52 ∧
      fraction (BitVec.ofNat _ (sign * 2 ^ 63 + magnitude)) = magnitude % 2 ^ 52 := by
  have fits : (BitVec.ofNat _ (sign * 2 ^ 63 + magnitude) : Binary64).toNat = sign * 2 ^ 63 + magnitude := by
    rw [BitVec.toNat_ofNat]
    exact Nat.mod_eq_of_lt (show _ < 2 ^ 64 by omega)
  simp only [exponentField, fraction, fits]
  omega

/-- A finite number that is a multiple of the unit of its place in single precision is not rounded. -/
theorem roundMagnitude_of_multiple {bits : Binary64} (unit drop multiple : Nat)
    (finite : exponentField bits ≠ 2047) (unit_eq : Nat.log2 (significand bits) + scale bits - 949 = unit)
    (aligned : scale bits + drop = unit + 926) (divides : significand bits = multiple * 2 ^ drop) :
    roundMagnitude bits = min (unit * 2 ^ 23 + multiple) (255 * 2 ^ 23) := by
  have isFinite : isFinite bits = true := by simpa [Binary64.isFinite] using finite
  have shift : unit + 926 - scale bits = drop := by omega
  simp only [roundMagnitude, isFinite, if_true, unit_eq]
  rw [if_pos (by omega), shift, divides, roundDiv_mul multiple (Nat.two_pow_pos drop)]

theorem log2_significand {bits : Binary64} (normal : exponentField bits ≠ 0) :
    Nat.log2 (significand bits) = 52 := by
  have below : fraction bits < 2 ^ 52 := Nat.mod_lt _ (Nat.two_pow_pos 52)
  rw [significand, if_neg normal, Nat.log2_eq_iff (by omega)]
  omega

theorem roundMagnitude_of_infinite {bits : Binary64} (infinite : exponentField bits = 2047) :
    roundMagnitude bits = 255 * 2 ^ 23 + if fraction bits = 0 then 0
      else if fraction bits / 2 ^ 29 < 2 ^ 22 then fraction bits / 2 ^ 29 + 2 ^ 22
      else fraction bits / 2 ^ 29 := by
  have special : isFinite bits = false := by simp [isFinite, infinite]
  simp only [roundMagnitude, special, Bool.false_eq_true, if_false]
  split <;> rfl

variable {bits : Binary64} {exponent rest : Nat}

theorem roundMagnitude_of_subnormal (some : rest ≠ 0) (short : rest < 2 ^ 23)
    (exponent_eq : exponentField bits = Binary32.widenMagnitude 0 rest / 2 ^ 52)
    (fraction_eq : fraction bits = Binary32.widenMagnitude 0 rest % 2 ^ 52) : roundMagnitude bits = rest := by
  have leading := Nat.log2_self_le some
  obtain ⟨low, place, behind⟩ := Binary32.leading_lt some short
  rw [Binary32.widenMagnitude_of_subnormal some] at exponent_eq fraction_eq
  generalize Nat.log2 rest = top at *
  have exponent_top : exponentField bits = top + 874 := by omega
  have fraction_top : fraction bits = (rest - 2 ^ top) * 2 ^ (52 - top) := by omega
  have moved : significand bits = rest * 2 ^ (52 - top) := by
    have whole := Nat.mul_le_mul_right (2 ^ (52 - top)) leading
    rw [significand, if_neg (by omega), fraction_top, Nat.sub_mul, place]
    omega
  have log : Nat.log2 (significand bits) = 52 := log2_significand (by omega)
  rw [roundMagnitude_of_multiple 0 (52 - top) _ (by omega) (by rw [log, scale]; omega)
    (by rw [scale]; omega) moved]
  omega

/-- A magnitude that has been widened is rounded back to what it was, and a NaN to a quiet one. -/
theorem roundMagnitude_of_widened (small : exponent < 256) (short : rest < 2 ^ 23)
    (exponent_eq : exponentField bits = Binary32.widenMagnitude exponent rest / 2 ^ 52)
    (fraction_eq : fraction bits = Binary32.widenMagnitude exponent rest % 2 ^ 52) :
    roundMagnitude bits = Binary32.quietMagnitude exponent rest := by
  by_cases infinite : exponent = 255
  · subst infinite
    simp only [Binary32.widenMagnitude, if_true] at exponent_eq fraction_eq
    rw [roundMagnitude_of_infinite (by split at exponent_eq <;> omega)]
    simp only [Binary32.quietMagnitude, true_and]
    split at fraction_eq <;> grind
  rw [Binary32.quietMagnitude, if_neg (by simp [infinite])]
  by_cases subnormal : exponent = 0
  · subst subnormal
    rw [Nat.zero_mul, Nat.zero_add]
    by_cases zero : rest = 0
    · subst zero
      have exponent_zero : exponentField bits = 0 := exponent_eq
      have nothing : significand bits = 0 := by rw [significand, if_pos exponent_zero]; exact fraction_eq
      have first : scale bits = 1 := by rw [scale, exponent_zero]; rfl
      rw [roundMagnitude_of_multiple 0 (926 - scale bits) 0 (by omega)
        (by rw [nothing, first]; rfl) (by omega) (nothing.trans (Nat.zero_mul _).symm)]
      rfl
    · exact roundMagnitude_of_subnormal zero short exponent_eq fraction_eq
  · simp only [Binary32.widenMagnitude, if_neg infinite, if_neg subnormal] at exponent_eq fraction_eq
    have log : Nat.log2 (significand bits) = 52 := log2_significand (by omega)
    have whole : significand bits = (rest + 2 ^ 23) * 2 ^ 29 := by
      rw [significand, if_neg (by omega)]
      omega
    rw [roundMagnitude_of_multiple (exponent - 1) 29 _ (by omega)
      (by rw [log, scale]; omega) (by rw [scale]; omega) whole]
    omega

theorem quietMagnitude_roundMagnitude (bits : Binary64) : roundMagnitude bits < 2 ^ 31 ∧
    Binary32.quietMagnitude (roundMagnitude bits / 2 ^ 23) (roundMagnitude bits % 2 ^ 23) =
      roundMagnitude bits := by
  by_cases infinite : exponentField bits = 2047
  · have below : fraction bits < 2 ^ 52 := Nat.mod_lt _ (Nat.two_pow_pos 52)
    rw [roundMagnitude_of_infinite infinite, Binary32.quietMagnitude]
    split
    · rw [if_neg (by omega)]
      omega
    · split <;> rw [if_neg (by omega)] <;> omega
  · have bound : roundMagnitude bits ≤ 255 * 2 ^ 23 := by
      have finite : isFinite bits = true := by simpa [isFinite] using infinite
      simp only [roundMagnitude, finite, if_true]
      omega
    rw [Binary32.quietMagnitude, if_neg (by omega)]
    omega

end Binary64

namespace FloatKind

/-- What is left of a float of the kind that has been carried in double precision. -/
def quiet : (kind : FloatKind) → kind.Bits → kind.Bits
  | f32, bits => Binary32.quiet bits
  | f64, bits => bits

theorem narrow_widen : (kind : FloatKind) → (bits : kind.Bits) → kind.narrow (kind.widen bits) = kind.quiet bits
  | f64, _ => rfl
  | f32, bits => by
    have bound : bits.toNat < 2 ^ 32 := bits.isLt
    have small : bits.toNat / 2 ^ 23 % 256 < 256 := Nat.mod_lt _ (by decide)
    have short : bits.toNat % 2 ^ 23 < 2 ^ 23 := Nat.mod_lt _ (by decide)
    obtain ⟨sign, exponent_eq, fraction_eq⟩ := Binary64.fields_ofNat
      (show bits.toNat / 2 ^ 31 < 2 by omega) (Binary32.widenMagnitude_lt small short)
    rw [quiet, Binary32.quiet_eq, ← Binary64.roundMagnitude_of_widened small short exponent_eq fraction_eq]
    exact congrArg (fun s => BitVec.ofNat _ (s * 2 ^ 31 + _)) sign

theorem quiet_narrow : (kind : FloatKind) → (bits : Binary64) → kind.quiet (kind.narrow bits) = kind.narrow bits
  | f64, _ => rfl
  | f32, bits => by
    have bound : bits.toNat < 2 ^ 64 := bits.isLt
    obtain ⟨short, same⟩ := Binary64.quietMagnitude_roundMagnitude bits
    have word : (Binary64.toBinary32 bits).toNat = bits.toNat / 2 ^ 63 * 2 ^ 31 + Binary64.roundMagnitude bits := by
      rw [Binary64.toBinary32, BitVec.toNat_ofNat]
      exact Nat.mod_eq_of_lt (show _ < 2 ^ 32 by omega)
    have sign : (Binary64.toBinary32 bits).toNat / 2 ^ 31 = bits.toNat / 2 ^ 63 := by omega
    have exponent : (Binary64.toBinary32 bits).toNat / 2 ^ 23 % 256 = Binary64.roundMagnitude bits / 2 ^ 23 := by
      omega
    have fraction : (Binary64.toBinary32 bits).toNat % 2 ^ 23 = Binary64.roundMagnitude bits % 2 ^ 23 := by omega
    rw [quiet, narrow, Binary32.quiet_eq, sign, exponent, fraction, same]
    rfl

theorem narrow_widen_narrow (kind : FloatKind) (bits : Binary64) :
    kind.narrow (kind.widen (kind.narrow bits)) = kind.narrow bits := by
  rw [narrow_widen, quiet_narrow]

end FloatKind

end AppendLog
