import AppendLog.Shape.Basic
import AppendLog.Text.Hex
import AppendLog.Value.Basic

/-! What can go wrong while a value is encoded or decoded. -/

set_option autoImplicit false

namespace AppendLog

/-- A value as far as it matters to a shape that it does not have. -/
inductive Misfit where
  | kind (kind : Value.Kind)
  /-- An integer outside the range of its kind. -/
  | int (value : Int)
  | uint (value : Nat)
  | fieldCount (count : Nat)
  deriving DecidableEq, Repr

def Misfit.describe : Misfit → String
  | .kind k => k.name
  | .int n => "int " ++ Int.repr n
  | .uint n => "uint " ++ Nat.repr n
  | .fieldCount n => "record with " ++ Nat.repr n ++ " fields"

inductive CodecError where
  | unexpectedEnd (needed remaining : Nat)
  /-- A sequence of fixed length is stored with another one. -/
  | lengthMismatch (expected found : Nat)
  /-- More items are announced than the rest of the input can hold. -/
  | tooManyItems (length limit : Nat)
  /-- A length does not fit in the four bytes in front of a sequence. -/
  | lengthOverflow (length : Nat)
  | invalidBool (byte : UInt8)
  | invalidPresence (byte : UInt8)
  | invalidTag (family : String) (tag : UInt8)
  | invalidText
  | trailingBytes (remaining : Nat)
  | shapeMismatch (expected : Shape) (found : Misfit)
  | fieldMismatch (expected found : String)
  deriving DecidableEq, Repr

namespace CodecError

def message : CodecError → String
  | unexpectedEnd needed remaining =>
    "unexpected end of input: needed " ++ Nat.repr needed ++ " bytes, " ++ Nat.repr remaining
      ++ " remaining"
  | lengthMismatch expected found =>
    "length mismatch: expected " ++ Nat.repr expected ++ " elements, found " ++ Nat.repr found
  | tooManyItems length limit =>
    "sequence of " ++ Nat.repr length ++ " items exceeds the limit of " ++ Nat.repr limit
  | lengthOverflow length =>
    "length " ++ Nat.repr length ++ " exceeds the 4-byte length prefix"
  | invalidBool byte => "invalid boolean byte 0x" ++ Hex.ofByte byte
  | invalidPresence byte => "invalid presence flag 0x" ++ Hex.ofByte byte
  | invalidTag family tag => "invalid " ++ family ++ " tag " ++ Nat.repr tag.toNat
  | invalidText => "invalid UTF-8 string"
  | trailingBytes remaining => Nat.repr remaining ++ " trailing bytes after value"
  | shapeMismatch expected found =>
    "shape mismatch: expected " ++ expected.render ++ ", found " ++ found.describe
  | fieldMismatch expected found =>
    "shape mismatch: expected field " ++ expected ++ ", found field " ++ found

end CodecError

end AppendLog
