import AppendLog.Log.Header

/-! What is recorded about every record: when it was written, what kind of thing it
is about, and how it changes it. -/

set_option autoImplicit false

namespace AppendLog

inductive Op where
  | insert | update | replace | delete
  deriving DecidableEq, Repr

namespace Op

def all : List Op := [insert, update, replace, delete]

def code : Op → UInt8
  | insert => 0
  | update => 1
  | replace => 2
  | delete => 4

def ofCode? (code : UInt8) : Option Op := all.find? (·.code = code)

def name : Op → String
  | insert => "insert"
  | update => "update"
  | replace => "replace"
  | delete => "delete"

theorem ofCode?_code (op : Op) : ofCode? op.code = some op := by
  cases op <;> decide

theorem code_of_ofCode? {code : UInt8} {op : Op} (found : ofCode? code = some op) :
    op.code = code := by
  simpa using List.find?_some found

end Op

structure Kind where
  first : UInt8
  second : UInt8
  third : UInt8
  fourth : UInt8
  deriving DecidableEq, Repr

namespace Kind

def bytes (kind : Kind) : Bytes := [kind.first, kind.second, kind.third, kind.fourth]

/-- The tag of the first four bytes; bytes that are missing are zero. -/
def ofBytes (bytes : Bytes) : Kind :=
  ⟨bytes.getD 0 0, bytes.getD 1 0, bytes.getD 2 0, bytes.getD 3 0⟩

def isPrintable (byte : UInt8) : Bool := 0x20 ≤ byte && byte ≤ 0x7e

def trimmed (kind : Kind) : Bytes := (kind.bytes.reverse.dropWhile (· == 0)).reverse

/-- A printable tag is shown as text without the zeros behind it, any other in hexadecimal. -/
def describe (kind : Kind) : String :=
  if kind.trimmed.all isPrintable then
    String.ofList (kind.trimmed.map fun byte => Char.ofNat byte.toNat)
  else "0x" ++ Hex.ofBytes kind.bytes

end Kind

structure Meta where
  /-- Nanoseconds since 1970; zero as long as no time has been assigned. -/
  time : Int
  kind : Kind
  op : Op
  deriving DecidableEq, Repr

namespace Meta

def width : Nat := 13

def isUnset (info : Meta) : Bool := info.time == 0

def stamp (now : Int) (info : Meta) : Meta :=
  if info.isUnset then { info with time := now } else info

def encode (info : Meta) : Encoding :=
  .int .i64 info.time ++ .ofBytes info.kind.bytes ++ .ofBytes [info.op.code]

def bytes (info : Meta) : Bytes := info.encode.bytes

def decode : Decoding Meta := do
  let time ← Decoding.int .i64
  let kind ← Decoding.raw 4
  let code ← Decoding.byte
  match Op.ofCode? code with
  | some op => return ⟨time, Kind.ofBytes kind, op⟩
  | none => throw (.invalidTag "Op" code)

def fromBytes (bytes : Bytes) : Except CodecError Meta := Decoding.fromBytes decode bytes

end Meta

structure Record where
  index : Nat
  offset : Nat
  info : Meta
  data : Bytes
  deriving DecidableEq, Repr

def Record.size (record : Record) : Nat := Meta.width + record.data.length

end AppendLog
