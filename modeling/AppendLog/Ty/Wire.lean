import AppendLog.Ty.Basic

/-! Decoding data of a known type.

Inside a record, the records around it and their decoders are at hand, innermost
first, for the references to them.
-/

set_option autoImplicit false

namespace AppendLog

/-- Ties a decoder to itself. The inner reading takes place on a shorter input; where
it would not, nothing could ever end it, and it fails as if the input had ended. -/
def Decoding.recursive {α : Type} (body : Decoding α → Decoding α) (cursor : Cursor) :
    EStateM.Result CodecError Cursor α :=
  body (fun inner =>
    if inner.rest.length < cursor.rest.length then recursive body inner
    else .error (.unexpectedEnd (inner.rest.length + 1) inner.rest.length) inner) cursor
termination_by cursor.rest.length

namespace Ty

/-- The decoder of a record further out. Outside every record there is nothing to refer to. -/
def enclosing (outer : List (Decoding Datum)) (up : Nat) : Decoding Datum :=
  outer.getD up (pure .unit)

mutual

def decodeIn (scope : Scope) (outer : List (Decoding Datum)) : Ty → Decoding Datum
  | bool => return .bool (← Decoding.bool)
  | int kind => return .int kind (← Decoding.int kind)
  | float kind => return .float kind (← Decoding.float kind)
  | complex kind => return .complex kind (← Decoding.float kind) (← Decoding.float kind)
  | text => return .text (← Decoding.text)
  | unit => return .unit
  | transient ty => return .transient (ty.default scope)
  | seq item => return .list (← Decoding.seq (decodeIn scope outer item))
  | array item length => return .list (← Decoding.array (decodeIn scope outer item) length)
  | option item => do
    if ← Decoding.presence then return .present (← decodeIn scope outer item) else return .absent
  | boxed ty => decodeIn scope outer ty
  | tuple parts => return .tuple (← decodeParts scope outer parts)
  | record fields skipped own =>
    let inside : Scope := ⟨fields, skipped, own⟩ :: scope
    Decoding.recursive fun self =>
      return .record (← decodeFields inside (self :: outer) fields) (defaultFields inside skipped)
  | ref up => enclosing outer up

def decodeParts (scope : Scope) (outer : List (Decoding Datum)) : List Ty → Decoding (List Datum)
  | [] => return []
  | ty :: rest => return (← decodeIn scope outer ty) :: (← decodeParts scope outer rest)

def decodeFields (scope : Scope) (outer : List (Decoding Datum)) :
    List (String × Ty) → Decoding (List (String × Datum))
  | [] => return []
  | (name, ty) :: rest => return (name, ← decodeIn scope outer ty) :: (← decodeFields scope outer rest)

end

def decode (ty : Ty) : Decoding Datum := decodeIn [] [] ty

def fromBytes (ty : Ty) (bytes : Bytes) : Except CodecError Datum :=
  Decoding.fromBytes ty.decode bytes

def decodeInto (ty : Ty) (bytes : Bytes) (old : Datum) : Except CodecError Unit × Datum :=
  match ty.fromBytes bytes with
  | .ok value => (.ok (), value)
  | .error error => (.error error, old)

end Ty

end AppendLog
