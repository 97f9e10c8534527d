import AppendLog.Bytes

/-! The widths that numbers have in encoded data.

An integer kind is a width and a sign; pointer-sized integers take eight bytes. A
float kind is one of the two IEEE 754 binary formats.
-/

set_option autoImplicit false

namespace AppendLog

inductive IntKind where
  | i8 | i16 | i32 | i64 | i128 | isize
  | u8 | u16 | u32 | u64 | u128 | usize
  deriving DecidableEq, Repr

namespace IntKind

def all : List IntKind :=
  [i8, i16, i32, i64, i128, isize, u8, u16, u32, u64, u128, usize]

def name : IntKind → String
  | i8 => "i8"
  | i16 => "i16"
  | i32 => "i32"
  | i64 => "i64"
  | i128 => "i128"
  | isize => "isize"
  | u8 => "u8"
  | u16 => "u16"
  | u32 => "u32"
  | u64 => "u64"
  | u128 => "u128"
  | usize => "usize"

def width : IntKind → Nat
  | i8 | u8 => 1
  | i16 | u16 => 2
  | i32 | u32 => 4
  | i64 | u64 | isize | usize => 8
  | i128 | u128 => 16

def isSigned : IntKind → Bool
  | i8 | i16 | i32 | i64 | i128 | isize => true
  | u8 | u16 | u32 | u64 | u128 | usize => false

def Holds (kind : IntKind) (n : Int) : Prop :=
  if kind.isSigned then
    -((256 ^ kind.width : Nat) : Int) ≤ 2 * n ∧ 2 * n < (256 ^ kind.width : Nat)
  else 0 ≤ n ∧ n < (256 ^ kind.width : Nat)

instance (kind : IntKind) (n : Int) : Decidable (kind.Holds n) := by
  unfold Holds
  infer_instance

def bytes (kind : IntKind) (n : Int) : Bytes :=
  Bytes.ofInt kind.width n

def ofBytes (kind : IntKind) (word : Bytes) : Int :=
  if kind.isSigned then Bytes.toInt word else Bytes.toNat word

@[simp] theorem length_bytes (kind : IntKind) (n : Int) : (kind.bytes n).length = kind.width := by
  simp [bytes]

theorem width_pos (kind : IntKind) : 0 < kind.width := by
  cases kind <;> decide

theorem ofBytes_bytes {kind : IntKind} {n : Int} (holds : kind.Holds n) :
    kind.ofBytes (kind.bytes n) = n := by
  unfold Holds at holds
  unfold ofBytes bytes
  split
  · rw [if_pos (by assumption)] at holds
    exact Bytes.toInt_ofInt holds.1 holds.2
  · rw [if_neg (by assumption)] at holds
    have wrapped : n % ((256 ^ kind.width : Nat) : Int) = n := Int.emod_eq_of_lt holds.1 holds.2
    rw [Bytes.ofInt, wrapped, Bytes.toNat_ofNat (by omega), Int.toNat_of_nonneg holds.1]

theorem bytes_ofBytes {kind : IntKind} {word : Bytes} (full : word.length = kind.width) :
    kind.bytes (kind.ofBytes word) = word := by
  unfold ofBytes bytes
  split
  · rw [← full, Bytes.ofInt_toInt]
  · have bound : (Bytes.toNat word : Int) < (256 ^ kind.width : Nat) := by
      rw [← full]
      exact_mod_cast Bytes.toNat_lt word
    rw [Bytes.ofInt, Int.emod_eq_of_lt (by omega) bound, Int.toNat_natCast, ← full,
      Bytes.ofNat_toNat]

end IntKind

inductive FloatKind where
  | f32 | f64
  deriving DecidableEq, Repr

namespace FloatKind

def all : List FloatKind := [f32, f64]

def name : FloatKind → String
  | f32 => "f32"
  | f64 => "f64"

def complexName : FloatKind → String
  | f32 => "c64"
  | f64 => "c128"

def width : FloatKind → Nat
  | f32 => 4
  | f64 => 8

/-- A float is carried as its bits, so that no two are ever confused. -/
abbrev Bits (kind : FloatKind) := BitVec (8 * kind.width)

def bytes (kind : FloatKind) (bits : kind.Bits) : Bytes :=
  Bytes.ofNat kind.width bits.toNat

def ofBytes (kind : FloatKind) (word : Bytes) : kind.Bits :=
  BitVec.ofNat _ (Bytes.toNat word)

@[simp] theorem length_bytes (kind : FloatKind) (bits : kind.Bits) :
    (kind.bytes bits).length = kind.width := by
  simp [bytes]

theorem width_pos (kind : FloatKind) : 0 < kind.width := by
  cases kind <;> decide

theorem two_pow_bits (kind : FloatKind) : 2 ^ (8 * kind.width) = 256 ^ kind.width := by
  cases kind <;> decide

theorem ofBytes_bytes (kind : FloatKind) (bits : kind.Bits) :
    kind.ofBytes (kind.bytes bits) = bits := by
  have bound := bits.isLt
  rw [two_pow_bits] at bound
  rw [ofBytes, bytes, Bytes.toNat_ofNat bound]
  simp

theorem bytes_ofBytes {kind : FloatKind} {word : Bytes} (full : word.length = kind.width) :
    kind.bytes (kind.ofBytes word) = word := by
  have bound := Bytes.toNat_lt word
  rw [full, ← two_pow_bits] at bound
  rw [bytes, ofBytes, BitVec.toNat_ofNat, Nat.mod_eq_of_lt bound, ← full, Bytes.ofNat_toNat]

end FloatKind

end AppendLog
