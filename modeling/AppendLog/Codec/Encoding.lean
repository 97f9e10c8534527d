import AppendLog.Codec.Decoding

/-! Encoding: the bytes that a value is written in.

An encoding that fails still has the bytes written before the failure. Encodings are
put one behind another, and nothing is written behind a failure.
-/

set_option autoImplicit false

namespace AppendLog

structure Encoding where
  bytes : Bytes
  error : Option CodecError
  deriving DecidableEq, Repr

namespace Encoding

def empty : Encoding := ⟨[], none⟩

def ofBytes (bytes : Bytes) : Encoding := ⟨bytes, none⟩

def fail (error : CodecError) : Encoding := ⟨[], some error⟩

def append (first second : Encoding) : Encoding :=
  match first.error with
  | some _ => first
  | none => ⟨first.bytes ++ second.bytes, second.error⟩

instance : Append Encoding := ⟨append⟩

def concat (parts : List Encoding) : Encoding := parts.foldr append empty

def toBytes (encoding : Encoding) : Except CodecError Bytes :=
  match encoding.error with
  | none => .ok encoding.bytes
  | some error => .error error

def int (kind : IntKind) (n : Int) : Encoding := ofBytes (kind.bytes n)

def float (kind : FloatKind) (bits : kind.Bits) : Encoding := ofBytes (kind.bytes bits)

def bool (value : Bool) : Encoding := ofBytes [if value then 1 else 0]

def presence (present : Bool) : Encoding := bool present

def length (n : Nat) : Encoding :=
  if n < 256 ^ lengthWidth then ofBytes (Bytes.ofNat lengthWidth n)
  else fail (.lengthOverflow n)

def text (value : String) : Encoding :=
  length (Text.bytes value).length ++ ofBytes (Text.bytes value)

def seq (items : List Encoding) : Encoding :=
  length items.length ++ concat items

end Encoding

end AppendLog
