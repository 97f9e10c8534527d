import AppendLog.Codec.Encoding
import AppendLog.Shape.Basic
import AppendLog.Value.Basic

/-! Values laid out by a shape. -/

set_option autoImplicit false

namespace AppendLog.Shape

def decodeFloat (kind : FloatKind) : Decoding Binary64 := do
  return kind.widen (← Decoding.float kind)

def decodeInt (kind : IntKind) : Decoding Value := do
  let n ← Decoding.int kind
  return if kind.isSigned then .int n else .uint n.toNat

mutual

def decode : Shape → Decoding Value
  | bool => return .bool (← Decoding.bool)
  | int kind => decodeInt kind
  | float kind => return .float (← decodeFloat kind)
  | complex kind => return .complex (← decodeFloat kind) (← decodeFloat kind)
  | text => return .text (← Decoding.text)
  | seq item => return .seq (← Decoding.seq (decode item))
  | array item expected => do
    let found ← Decoding.length
    if found = expected then return .seq (← Decoding.items (decode item) found)
    else throw (.lengthMismatch expected found)
  | optional item => do
    if ← Decoding.presence then decode item else return .null
  | record fields => return .record (← decodeFields fields)
  | void _ => return .unit

def decodeFields : List (String × Shape) → Decoding (List (String × Value))
  | [] => return []
  | (name, shape) :: rest => do
    let value ← decode shape
    return (name, value) :: (← decodeFields rest)

end

/-- The integer must be in the range of its kind. -/
def encodeInt (kind : IntKind) (n : Int) (found : Misfit) : Encoding :=
  if kind.Holds n then .int kind n else .fail (.shapeMismatch (int kind) found)

def encodeFloat (kind : FloatKind) (bits : Binary64) : Encoding :=
  .float kind (kind.narrow bits)

def misfit (shape : Shape) (value : Value) : Encoding :=
  .fail (.shapeMismatch shape (.kind value.kind))

mutual

/-- Writes a value in the shape. A void shape takes any value and writes nothing. -/
def encode : Shape → Value → Encoding
  | void _, _ => .empty
  | bool, .bool b => .bool b
  | int kind, .int n =>
    if kind.isSigned then encodeInt kind n (.int n) else misfit (int kind) (.int n)
  | int kind, .uint n =>
    if kind.isSigned then misfit (int kind) (.uint n) else encodeInt kind n (.uint n)
  | float kind, .float bits => encodeFloat kind bits
  | complex kind, .complex re im => encodeFloat kind re ++ encodeFloat kind im
  | text, .text value => .text value
  | seq item, .seq items => .seq (items.map (encode item))
  | array item expected, .seq items =>
    if items.length = expected then .seq (items.map (encode item))
    else .fail (.lengthMismatch expected items.length)
  | optional _, .null => .presence false
  | optional item, value => .presence true ++ encode item value
  | record fields, .record values =>
    if fields.length = values.length then encodeFields fields values
    else .fail (.shapeMismatch (record fields) (.fieldCount values.length))
  | shape, value => misfit shape value

/-- Fields are matched in order, and their names must agree. -/
def encodeFields : List (String × Shape) → List (String × Value) → Encoding
  | (name, shape) :: fields, (name', value) :: values =>
    if name = name' then encode shape value ++ encodeFields fields values
    else .fail (.fieldMismatch name name')
  | _, _ => .empty

end

end AppendLog.Shape
