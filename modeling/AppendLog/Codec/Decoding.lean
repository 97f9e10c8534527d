import AppendLog.Codec.Error
import AppendLog.Number.Kind
import AppendLog.Text.Utf8

/-! Decoding: reading values off the front of a byte string.

A `Cursor` is what is left to read and how much has been read. A decoder moves it
over the bytes it reads, and one that fails leaves it after the last complete read.
-/

set_option autoImplicit false

namespace AppendLog

structure Cursor where
  rest : Bytes
  position : Nat
  deriving DecidableEq, Repr

def Cursor.ofBytes (bytes : Bytes) : Cursor := ⟨bytes, 0⟩

def Cursor.skip (cursor : Cursor) (count : Nat) : Cursor :=
  ⟨cursor.rest.drop count, cursor.position + count⟩

/-- A failed decoder still leaves a cursor. -/
abbrev Decoding (α : Type) := EStateM CodecError Cursor α

def lengthWidth : Nat := 4

/-- The most items a sequence may have when its items take no bytes. -/
def emptyItemLimit : Nat := 65536

namespace Decoding

def raw (count : Nat) : Decoding Bytes := fun cursor =>
  let front := cursor.rest.take count
  if front.length = count then .ok front (cursor.skip count)
  else .error (.unexpectedEnd count cursor.rest.length) cursor

def byte : Decoding UInt8 := do
  return (← raw 1).headD 0

def int (kind : IntKind) : Decoding Int := do
  return kind.ofBytes (← raw kind.width)

def float (kind : FloatKind) : Decoding kind.Bits := do
  return kind.ofBytes (← raw kind.width)

def flag (error : UInt8 → CodecError) : Decoding Bool := do
  let byte ← byte
  if byte = 0 then return false
  else if byte = 1 then return true
  else throw (error byte)

def bool : Decoding Bool := flag .invalidBool

def presence : Decoding Bool := flag .invalidPresence

def length : Decoding Nat := do
  return Bytes.toNat (← raw lengthWidth)

def text : Decoding String := do
  let spelling ← raw (← length)
  match Text.ofBytes? spelling with
  | some text => return text
  | none => throw .invalidText

variable {α : Type}

def repeated (item : Decoding α) : (count : Nat) → (done : List α) → Decoding (List α)
  | 0, done, cursor => .ok done.reverse cursor
  | count + 1, done, cursor =>
    match item cursor with
    | .ok value next => repeated item count (value :: done) next
    | .error error stop => .error error stop

/-- Reads a sequence of a length that the input claims.

Items that take bytes cannot outnumber the bytes left, and items that take none are
limited outright; the first item shows which of the two limits holds. -/
def items (item : Decoding α) (length : Nat) : Decoding (List α) := fun cursor =>
  match length with
  | 0 => .ok [] cursor
  | more + 1 =>
    match item cursor with
    | .error error stop => .error error stop
    | .ok first next =>
      let limit := if next.position = cursor.position then emptyItemLimit else cursor.rest.length
      if limit < more + 1 then .error (.tooManyItems (more + 1) limit) next
      else repeated item more [first] next

def seq (item : Decoding α) : Decoding (List α) := do
  items item (← length)

def array (item : Decoding α) (expected : Nat) : Decoding (List α) := do
  let found ← length
  if found = expected then repeated item expected []
  else throw (.lengthMismatch expected found)

def finish : Decoding Unit := fun cursor =>
  if cursor.rest.isEmpty then .ok () cursor
  else .error (.trailingBytes cursor.rest.length) cursor

/-- Reads over existing items in order. On failure the items before the failing one
are replaced and the others kept. -/
def overwrite (item : Decoding α) : (old : List α) → (done : List α) → Cursor →
    Except CodecError Unit × List α × Cursor
  | [], done, cursor => (.ok (), done.reverse, cursor)
  | old :: more, done, cursor =>
    match item cursor with
    | .ok value next => overwrite item more (value :: done) next
    | .error error stop => (.error error, done.reverse ++ old :: more, stop)

def sliceInto (item : Decoding α) (old : List α) (cursor : Cursor) :
    Except CodecError Unit × List α × Cursor :=
  match length cursor with
  | .error error stop => (.error error, old, stop)
  | .ok found next =>
    if found = old.length then overwrite item old [] next
    else (.error (.lengthMismatch old.length found), old, next)

def fromBytes (decoder : Decoding α) (bytes : Bytes) : Except CodecError α :=
  match (do let value ← decoder; finish; return value : Decoding α) (Cursor.ofBytes bytes) with
  | .ok value _ => .ok value
  | .error error _ => .error error

end Decoding

end AppendLog
