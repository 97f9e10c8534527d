/-! What can go wrong in a store. -/

set_option autoImplicit false

namespace AppendLog

inductive DeviceFailure where
  /-- The operating system refused, for a reason of its own. -/
  | refused
  /-- The operating system refused because a folder has no bytes to read. -/
  | isFolder
  /-- A name with a zero byte in it was not handed to the operating system at all. -/
  | zeroInName
  /-- The bytes ended before all that were asked for had been read. -/
  | cutShort
  | broken (reason : String)
  deriving DecidableEq, Repr

def DeviceFailure.message : DeviceFailure → String
  | refused => "refused by the operating system"
  | isFolder => "Is a directory (os error 21)"
  | zeroInName => "file name contained an unexpected NUL byte"
  | cutShort => "failed to fill whole buffer"
  | broken reason => reason

def DeviceFailure.isRefusal : DeviceFailure → Bool
  | refused | isFolder => true
  | zeroInName | cutShort | broken _ => false

inductive StorageError where
  | device (failure : DeviceFailure)
  | readPastEnd (offset length size : Nat)
  /-- Bytes would be missing between the end of the store and those to be written. -/
  | writePastEnd (offset size : Nat)
  | truncateBeyondEnd (wanted size : Nat)
  deriving DecidableEq, Repr

namespace StorageError

def message : StorageError → String
  | device failure => "I/O error: " ++ failure.message
  | readPastEnd offset length size =>
    "read beyond end of storage: offset " ++ Nat.repr offset ++ ", len " ++ Nat.repr length
      ++ ", size " ++ Nat.repr size
  | writePastEnd offset size =>
    "write would leave a gap: offset " ++ Nat.repr offset ++ ", size " ++ Nat.repr size
  | truncateBeyondEnd wanted size =>
    "cannot truncate to " ++ Nat.repr wanted ++ " bytes, storage holds " ++ Nat.repr size

def isRefusal : StorageError → Bool
  | device failure => failure.isRefusal
  | readPastEnd .. | writePastEnd .. | truncateBeyondEnd .. => false

end StorageError

end AppendLog
