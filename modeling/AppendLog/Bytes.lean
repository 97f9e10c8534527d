/-! Byte strings and the words written in them.

A word of `width` bytes is written most significant byte first. Unsigned words
stand for the numbers below `256 ^ width`; signed words stand for the numbers of
the same width in two's complement. Writing and reading a word are inverse to
each other: `toNat_ofNat` and `ofNat_toNat`, `toInt_ofInt` and `ofInt_toInt`.
-/

set_option autoImplicit false

namespace AppendLog

-- Powers of numbers are the core library's own, whatever else is imported.
attribute [instance (2000), default_instance 20000] instPowNat

abbrev Bytes := List UInt8

namespace Bytes

def ofNat : (width : Nat) → Nat → Bytes
  | 0, _ => []
  | width + 1, n => UInt8.ofNat (n / 256 ^ width) :: ofNat width n

def toNat : Bytes → Nat
  | [] => 0
  | byte :: rest => byte.toNat * 256 ^ rest.length + toNat rest

def ofInt (width : Nat) (n : Int) : Bytes :=
  ofNat width (n % (256 ^ width : Nat)).toNat

def toInt (bytes : Bytes) : Int :=
  (toNat bytes : Int).bmod (256 ^ bytes.length)

@[simp] theorem length_ofNat (width n : Nat) : (ofNat width n).length = width := by
  induction width with
  | zero => rfl
  | succ width ih => simp [ofNat, ih]

@[simp] theorem length_ofInt (width : Nat) (n : Int) : (ofInt width n).length = width := by
  simp [ofInt]

theorem toNat_lt (bytes : Bytes) : toNat bytes < 256 ^ bytes.length := by
  induction bytes with
  | nil => simp [toNat]
  | cons byte rest ih =>
    have bound : byte.toNat + 1 ≤ 256 := byte.toNat_lt
    have scaled := Nat.mul_le_mul_right (256 ^ rest.length) bound
    rw [toNat, List.length_cons, Nat.pow_succ]
    rw [Nat.add_mul, Nat.one_mul] at scaled
    omega

theorem toNat_ofNat_mod (width n : Nat) : toNat (ofNat width n) = n % 256 ^ width := by
  induction width with
  | zero => simp [ofNat, toNat, Nat.mod_one]
  | succ width ih =>
    rw [ofNat, toNat, ih, length_ofNat, Nat.pow_succ, Nat.mod_mul]
    simp only [UInt8.toNat_ofNat']
    rw [Nat.mul_comm, Nat.add_comm]

theorem toNat_ofNat {width n : Nat} (fits : n < 256 ^ width) : toNat (ofNat width n) = n := by
  rw [toNat_ofNat_mod, Nat.mod_eq_of_lt fits]

theorem ofNat_mod (width n : Nat) {k : Nat} (le : width ≤ k) :
    ofNat width (n % 256 ^ k) = ofNat width n := by
  induction width with
  | zero => rfl
  | succ width ih =>
    rw [ofNat, ofNat, ih (by omega)]
    congr 1
    obtain ⟨d, rfl⟩ := Nat.exists_eq_add_of_le le
    apply UInt8.toNat_inj.mp
    simp only [UInt8.toNat_ofNat']
    rw [show width + 1 + d = width + (1 + d) by omega, Nat.pow_add, Nat.mod_mul_right_div_self,
      Nat.pow_add, Nat.mod_mul_right_mod]

theorem ofNat_toNat (bytes : Bytes) : ofNat bytes.length (toNat bytes) = bytes := by
  induction bytes with
  | nil => rfl
  | cons byte rest ih =>
    have low : toNat (byte :: rest) % 256 ^ rest.length = toNat rest := by
      rw [toNat, Nat.mul_comm, Nat.mul_add_mod, Nat.mod_eq_of_lt (toNat_lt rest)]
    have high : toNat (byte :: rest) / 256 ^ rest.length = byte.toNat := by
      rw [toNat, Nat.mul_comm, Nat.mul_add_div (Nat.pow_pos (by decide)),
        Nat.div_eq_of_lt (toNat_lt rest), Nat.add_zero]
    rw [List.length_cons, ofNat, high, UInt8.ofNat_toNat,
      ← ofNat_mod rest.length (toNat (byte :: rest)) (Nat.le_refl _), low, ih]

theorem toInt_ofInt {width : Nat} {n : Int} (low : -((256 ^ width : Nat) : Int) ≤ 2 * n)
    (high : 2 * n < (256 ^ width : Nat)) : toInt (ofInt width n) = n := by
  have pos : 0 < ((256 ^ width : Nat) : Int) := by exact_mod_cast Nat.pow_pos (by decide)
  have nonneg := Int.emod_nonneg n (show ((256 ^ width : Nat) : Int) ≠ 0 by omega)
  have below := Int.emod_lt_of_pos n pos
  rw [toInt, length_ofInt, ofInt, toNat_ofNat (by omega), Int.toNat_of_nonneg nonneg,
    Int.emod_bmod]
  exact Int.bmod_eq_of_le_mul_two (by omega) (by omega)

theorem ofInt_toInt (bytes : Bytes) : ofInt bytes.length (toInt bytes) = bytes := by
  have bound : (toNat bytes : Int) < (256 ^ bytes.length : Nat) := by
    exact_mod_cast toNat_lt bytes
  rw [ofInt, toInt, Int.bmod_emod, Int.emod_eq_of_lt (by omega) bound, Int.toNat_natCast,
    ofNat_toNat]

end Bytes

end AppendLog
