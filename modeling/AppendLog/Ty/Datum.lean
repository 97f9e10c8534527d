import AppendLog.Codec.Encoding

/-! Data: values of a known type, each with all that its encoding depends on. -/

set_option autoImplicit false

namespace AppendLog

inductive Datum where
  | bool (value : Bool)
  | int (kind : IntKind) (value : Int)
  | float (kind : FloatKind) (bits : kind.Bits)
  | complex (kind : FloatKind) (re im : kind.Bits)
  | text (value : String)
  | unit
  | transient (value : Datum)
  | list (items : List Datum)
  | absent
  | present (value : Datum)
  | tuple (parts : List Datum)
  | record (fields skipped : List (String × Datum))
  deriving Repr

namespace Datum

mutual

/-- Fields and parts follow one another; skipped and transient values are left out. -/
def encode : Datum → Encoding
  | bool value => .bool value
  | int kind value => .int kind value
  | float kind bits => .float kind bits
  | complex kind re im => .float kind re ++ .float kind im
  | text value => .text value
  | unit | transient _ => .empty
  | list items => .length items.length ++ encodeAll items
  | absent => .presence false
  | present value => .presence true ++ value.encode
  | tuple parts => encodeAll parts
  | record fields _ => encodeFields fields

def encodeAll : List Datum → Encoding
  | [] => .empty
  | datum :: rest => datum.encode ++ encodeAll rest

def encodeFields : List (String × Datum) → Encoding
  | [] => .empty
  | (_, datum) :: rest => datum.encode ++ encodeFields rest

end

def toBytes (datum : Datum) : Except CodecError Bytes := datum.encode.toBytes

end Datum

end AppendLog
