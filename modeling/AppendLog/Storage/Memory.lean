import AppendLog.Bytes
import AppendLog.Storage.Error

/-! A store in memory: a byte string that is read, overwritten and extended by
position, and never has a gap. -/

set_option autoImplicit false

namespace AppendLog

structure Memory where
  bytes : Bytes
  deriving DecidableEq, Repr

namespace Memory

def size (memory : Memory) : Nat := memory.bytes.length

def readAt (memory : Memory) (offset length : Nat) : Except StorageError Bytes :=
  if offset + length ≤ memory.size then .ok ((memory.bytes.drop offset).take length)
  else .error (.readPastEnd offset length memory.size)

/-- Overwrites what is there and extends the store by the rest. -/
def writeAt (memory : Memory) (offset : Nat) (data : Bytes) : Except StorageError Memory :=
  if offset ≤ memory.size then
    .ok ⟨memory.bytes.take offset ++ data ++ memory.bytes.drop (offset + data.length)⟩
  else .error (.writePastEnd offset memory.size)

def truncate (memory : Memory) (wanted : Nat) : Except StorageError Memory :=
  if wanted ≤ memory.size then .ok ⟨memory.bytes.take wanted⟩
  else .error (.truncateBeyondEnd wanted memory.size)

end Memory

end AppendLog
