import AppendLog.Bytes
import AppendLog.Storage.Error

/-! A store in an open file.

The size is remembered from the moment the file was opened and kept up to date by
the operations of the store; changes made to the file by others do not show in it.
Requests are checked against the remembered size.

A folder can be opened for reading as well, and only then shows that it has no bytes.
-/

set_option autoImplicit false

namespace AppendLog

inductive FileAccess where
  | readWrite
  | readOnly
  /-- For reading, but what was opened is a folder. -/
  | folder
  deriving DecidableEq, Repr

structure OpenFile where
  content : Bytes
  size : Nat
  access : FileAccess
  deriving DecidableEq, Repr

namespace OpenFile

def ofContent (content : Bytes) (access : FileAccess) : OpenFile :=
  ⟨content, content.length, access⟩

/-- The size given for a folder: one block. -/
def folderSize : Nat := 4096

def ofFolder : OpenFile := ⟨[], folderSize, .folder⟩

def resized (content : Bytes) (length : Nat) : Bytes :=
  content.take length ++ List.replicate (length - content.length) 0

/-- Content with bytes put at a position; zeros fill the gap before them. -/
def patched (content : Bytes) (offset : Nat) (data : Bytes) : Bytes :=
  resized content offset ++ data ++ content.drop (offset + data.length)

def readAt (file : OpenFile) (offset length : Nat) : Except StorageError Bytes :=
  if file.size < offset + length then .error (.readPastEnd offset length file.size)
  else if length = 0 then .ok []
  else if file.access = .folder then .error (.device .isFolder)
  else if offset + length ≤ file.content.length then
    .ok ((file.content.drop offset).take length)
  else .error (.device .cutShort)

/-- Writing nothing does not touch the file. -/
def writeAt (file : OpenFile) (offset : Nat) (data : Bytes) : Except StorageError OpenFile :=
  if file.size < offset then .error (.writePastEnd offset file.size)
  else if data.isEmpty then .ok file
  else if file.access = .readWrite then
    .ok { file with
      content := patched file.content offset data
      size := max file.size (offset + data.length) }
  else .error (.device .refused)

def truncate (file : OpenFile) (wanted : Nat) : Except StorageError OpenFile :=
  if file.size < wanted then .error (.truncateBeyondEnd wanted file.size)
  else if file.access = .readWrite then
    .ok { file with content := resized file.content wanted, size := wanted }
  else .error (.device .refused)

end OpenFile

end AppendLog
