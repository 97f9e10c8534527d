import AppendLog.Codec.Encoding

/-! The header in front of a log.

It says how many records have been committed and where the footer starts, and is
rewritten in place as the last step of every commit.
-/

set_option autoImplicit false

namespace AppendLog

structure Header where
  version : UInt8
  totalRecords : Nat
  footerOffset : Nat
  deriving DecidableEq, Repr

def Encoding.word (n : Nat) : Encoding := .ofBytes (Bytes.ofNat 8 n)

def Decoding.word : Decoding Nat := do return Bytes.toNat (← raw 8)

namespace Header

def currentVersion : UInt8 := 1

def width : Nat := 17

def fresh : Header := ⟨currentVersion, 0, width⟩

def encode (header : Header) : Encoding :=
  .ofBytes [header.version] ++ .word header.totalRecords ++ .word header.footerOffset

def bytes (header : Header) : Bytes := header.encode.bytes

def decode : Decoding Header := do
  return ⟨← Decoding.byte, ← Decoding.word, ← Decoding.word⟩

def fromBytes (bytes : Bytes) : Except CodecError Header := Decoding.fromBytes decode bytes

end Header

end AppendLog
