import AppendLog.Codec.Encoding

/-! A growing byte string with one cursor for reading and writing.

Writing makes the end of what is written the end of the buffer, so whatever stood
behind the cursor is dropped. Reading and seeking leave the contents alone, and an
operation that fails leaves everything as it was.
-/

set_option autoImplicit false

namespace AppendLog

structure Buffer where
  bytes : Bytes
  position : Nat
  deriving DecidableEq, Repr

inductive SeekTarget where
  | front (offset : Nat)
  | ahead (delta : Int)
  | back (delta : Int)
  deriving DecidableEq, Repr

structure SeekError where
  position : Int
  length : Nat
  deriving DecidableEq, Repr

def SeekError.message (error : SeekError) : String :=
  "seek to " ++ Int.repr error.position ++ " outside buffer of length " ++ Nat.repr error.length

namespace Buffer

def empty : Buffer := ⟨[], 0⟩

def ofBytes (bytes : Bytes) : Buffer := ⟨bytes, 0⟩

def length (buffer : Buffer) : Nat := buffer.bytes.length

def rest (buffer : Buffer) : Bytes := buffer.bytes.drop buffer.position

def splice (buffer : Buffer) (bytes : Bytes) : Buffer :=
  ⟨buffer.bytes.take buffer.position ++ bytes, buffer.position + bytes.length⟩

def write (buffer : Buffer) (encoding : Encoding) : Except CodecError Nat × Buffer :=
  match encoding.toBytes with
  | .ok bytes => (.ok bytes.length, buffer.splice bytes)
  | .error error => (.error error, buffer)

variable {α : Type}

def read (buffer : Buffer) (decoder : Decoding α) : Except CodecError α × Buffer :=
  match decoder (Cursor.ofBytes buffer.rest) with
  | .ok value cursor => (.ok value, { buffer with position := buffer.position + cursor.position })
  | .error error _ => (.error error, buffer)

def readInto (buffer : Buffer) (decoder : Decoding α) (old : α) :
    Except CodecError Nat × α × Buffer :=
  match buffer.read decoder with
  | (.ok value, after) => (.ok (after.position - buffer.position), value, after)
  | (.error error, after) => (.error error, old, after)

def readBytes (buffer : Buffer) (count : Nat) : Bytes × Buffer :=
  let front := buffer.rest.take count
  (front, { buffer with position := buffer.position + front.length })

def readAll (buffer : Buffer) : Bytes × Buffer := buffer.readBytes buffer.rest.length

def target (buffer : Buffer) : SeekTarget → Int
  | .front offset => offset
  | .ahead delta => buffer.position + delta
  | .back delta => buffer.length + delta

def seek (buffer : Buffer) (place : SeekTarget) : Except SeekError Nat × Buffer :=
  let position := buffer.target place
  if 0 ≤ position ∧ position ≤ buffer.length then
    (.ok position.toNat, { buffer with position := position.toNat })
  else (.error ⟨position, buffer.length⟩, buffer)

def reset (_ : Buffer) : Buffer := empty

end Buffer

end AppendLog
