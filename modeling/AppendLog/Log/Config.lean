/-! How a log is opened and written. -/

set_option autoImplicit false

namespace AppendLog

structure Config where
  createIfMissing : Bool
  errorIfExists : Bool
  /-- Every write is made durable before it returns; otherwise it is only handed on. -/
  syncOnWrite : Bool
  createParentFolders : Bool
  /-- The log is never created or changed, and refuses writes. -/
  readOnly : Bool
  deriving DecidableEq, Repr

def Config.standard : Config := ⟨true, false, true, false, false⟩

end AppendLog
