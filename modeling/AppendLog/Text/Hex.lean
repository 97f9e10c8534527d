import AppendLog.Bytes

/-! Bytes in lowercase hexadecimal, two digits each. -/

set_option autoImplicit false

namespace AppendLog.Hex

/-- A lowercase hexadecimal digit; digits from sixteen on have none and print as zero. -/
def digit (n : Nat) : Char :=
  if n < 10 then Char.ofNat (48 + n) else if n < 16 then Char.ofNat (87 + n) else '0'

def ofByte (byte : UInt8) : String :=
  String.ofList [digit (byte.toNat / 16), digit (byte.toNat % 16)]

def ofBytes (bytes : Bytes) : String :=
  String.join (bytes.map ofByte)

def ofNat (n : Nat) : String :=
  String.ofList (Nat.toDigits 16 n)

end AppendLog.Hex
