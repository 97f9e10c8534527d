import AppendLog.Number.Binary

/-! Values whose layout is known only from a shape.

Integers carry their sign but not their width, and floats are carried as double
precision bits; the shape says which width a number has in encoded data.
-/

set_option autoImplicit false

namespace AppendLog

inductive Value where
  /-- What stands in for a value that takes no bytes. -/
  | unit
  /-- An absent optional value. -/
  | null
  | bool (value : Bool)
  | int (value : Int)
  | uint (value : Nat)
  | float (bits : Binary64)
  | complex (re im : Binary64)
  | text (value : String)
  | seq (items : List Value)
  | record (fields : List (String × Value))
  deriving Repr

namespace Value

inductive Kind where
  | unit | null | bool | int | uint | float | complex | text | seq | record
  deriving DecidableEq, Repr

def Kind.name : Kind → String
  | unit => "unit"
  | null => "null"
  | bool => "bool"
  | int => "int"
  | uint => "uint"
  | float => "float"
  | complex => "complex"
  | text => "text"
  | seq => "seq"
  | record => "record"

def kind : Value → Kind
  | unit => .unit
  | null => .null
  | bool _ => .bool
  | int _ => .int
  | uint _ => .uint
  | float _ => .float
  | complex _ _ => .complex
  | text _ => .text
  | seq _ => .seq
  | record _ => .record

def text? : Value → Option String
  | text value => some value
  | _ => none

def field? (value : Value) (name : String) : Option Value :=
  match value with
  | record fields => fields.lookup name
  | _ => none

end Value

end AppendLog
