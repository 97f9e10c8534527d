import AppendLog.Json
import AppendLog.Number.Decimal
import AppendLog.Value.Basic

/-! Values as JSON.

What takes no bytes or is absent is null, and so is a float that is not finite. A
complex number is an object of its two parts.
-/

set_option autoImplicit false

namespace AppendLog.Value

/-- Floats are positional from five places after the point to sixteen before it. -/
def floatLayout : DecimalLayout := ⟨-5, 15⟩

def floatJson (bits : Binary64) : Json :=
  if Binary64.isFinite bits then .number (floatLayout.float bits) else .null

mutual

def toJson : Value → Json
  | unit | null => .null
  | bool value => .bool value
  | int value => .ofInt value
  | uint value => .ofNat value
  | float bits => floatJson bits
  | complex re im => .object [("re", floatJson re), ("im", floatJson im)]
  | text value => .string value
  | seq items => .array (itemsToJson items)
  | record fields => .object (fieldsToJson fields)

def itemsToJson : List Value → List Json
  | [] => []
  | item :: rest => item.toJson :: itemsToJson rest

def fieldsToJson : List (String × Value) → List (String × Json)
  | [] => []
  | (name, value) :: rest => (name, value.toJson) :: fieldsToJson rest

end

end AppendLog.Value
