import AppendLog.Storage.File
import AppendLog.Storage.Memory

/-! The two media that a log can be kept on. -/

set_option autoImplicit false

namespace AppendLog

inductive Medium where
  | memory (memory : Memory)
  | file (file : OpenFile)
  deriving DecidableEq, Repr

namespace Medium

def content : Medium → Bytes
  | memory m => m.bytes
  | file f => f.content

/-- The same medium with other bytes. A file goes on with the size that it has remembered. -/
def withContent (bytes : Bytes) : Medium → Medium
  | memory _ => memory ⟨bytes⟩
  | file f => file { f with content := bytes }

def size : Medium → Nat
  | memory m => m.size
  | file f => f.size

def readAt (medium : Medium) (offset length : Nat) : Except StorageError Bytes :=
  match medium with
  | memory m => m.readAt offset length
  | file f => f.readAt offset length

def writeAt (medium : Medium) (offset : Nat) (data : Bytes) : Except StorageError Medium :=
  match medium with
  | memory m => return memory (← m.writeAt offset data)
  | file f => return file (← f.writeAt offset data)

def append (medium : Medium) (data : Bytes) : Except StorageError (Nat × Medium) :=
  return (medium.size, ← medium.writeAt medium.size data)

def truncate (medium : Medium) (wanted : Nat) : Except StorageError Medium :=
  match medium with
  | memory m => return memory (← m.truncate wanted)
  | file f => return file (← f.truncate wanted)

end Medium

end AppendLog
