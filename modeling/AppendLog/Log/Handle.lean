import AppendLog.Log.Config
import AppendLog.Log.Ledger
import AppendLog.Storage.Folder
import AppendLog.Text.Quoted

/-! Logs: opening, writing, reading and closing.

A log is an append-only list of records on a medium. An open log has its bookkeeping
in memory; a closed one has given it up. Operations return with the log as they leave
it, also when they fail.
-/

set_option autoImplicit false

namespace AppendLog

structure Log where
  path : Option String
  config : Config
  /-- Nothing once the log has been closed. -/
  ledger : Option Ledger
  device : Device

abbrev LogOp (α : Type) := EStateM LogError Log α

structure Stats where
  header : Header
  footerSize : Nat
  fileSize : Nat
  /-- The bytes stored behind the footer. -/
  orphanedBytes : Nat
  deriving DecidableEq, Repr

namespace Log

variable {α : Type}

/-! Opening -/

/-- Opens the log on a medium. An empty medium becomes a new log. -/
def openLedger (config : Config) : Action Ledger := do
  let size ← Step.readSize.run Device.size
  if size = 0 then
    if config.readOnly then throw (.invalidFormat .noHeader)
    Ledger.create
  else Ledger.load

def openOn (path : Option String) (config : Config) (device : Device) :
    Except LogError Log × Device :=
  match openLedger config device with
  | .ok ledger after => (.ok ⟨path, config, some ledger, after⟩, after)
  | .error error after => (.error error, after)

def openFile (path : String) (config : Config) : FolderAccess OpenFile :=
  if config.readOnly then Folder.openReadOnly path
  else if config.createParentFolders then Folder.openCreatingFolders path
  else Folder.openOrCreate path

/-- Opens the log in a file. The folder afterwards has what was stored in it, also if
the log could not be opened. -/
def openIn (folder : Folder) (path : String) (config : Config) : Except LogError Log × Folder :=
  let found := folder.hasPath path
  if !found && (config.readOnly || !config.createIfMissing) then (.error (.notFound path), folder)
  else if found && config.errorIfExists then (.error (.alreadyExists path), folder)
  else
    match openFile path config folder with
    | .error error folder => (.error (.io .openFile error), folder)
    | .ok file folder =>
      let (result, device) := openOn (some path) config (.sound (.file file))
      (result, folder.write path device.medium.content)

/-! Operations -/

def opened : LogOp Ledger := do
  match (← get).ledger with
  | some ledger => return ledger
  | none => throw .closed

def act (action : Action α) : LogOp α := fun log =>
  match action log.device with
  | .ok value device => .ok value { log with device }
  | .error error device => .error error { log with device }

/-- Appends a record and gives its index. The payload is refused before the storage is
touched; once the record is committed, a failure to make it durable does not undo it. -/
def write (now : Int) (info : Meta) (payload : Encoding) : LogOp Nat := do
  if (← get).config.readOnly then throw .readOnly
  let data ← match payload.toBytes with
    | .ok data => pure data
    | .error error => throw (.codec error)
  let ledger ← opened
  let after ← act (ledger.commit (info.stamp now).bytes data)
  modify fun log => { log with ledger := some after }
  if (← get).config.syncOnWrite then act (Step.sync.run Device.sync)
  else act (Step.flush.run Device.flush)
  return ledger.header.totalRecords

def readRaw (index : Nat) : LogOp Record := do act ((← opened).readRaw index)

def read (decoder : Decoding α) (index : Nat) : LogOp (Meta × α) := do
  let record ← readRaw index
  match Decoding.fromBytes decoder record.data with
  | .ok value => return (record.info, value)
  | .error error => throw (.recordRead index (.codec error))

def readMany (decoder : Decoding α) : (count : Nat) → (index : Nat) → LogOp (List (Meta × α))
  | 0, _ => return []
  | count + 1, index => do
    let first ← read decoder index
    return first :: (← readMany decoder count (index + 1))

def readAll (decoder : Decoding α) : LogOp (List (Meta × α)) := do
  readMany decoder (← opened).header.totalRecords 0

def header : LogOp Header := return (← opened).header

def footer : LogOp Footer := return (← opened).footer

def length : LogOp Nat := return (← opened).header.totalRecords

def isEmpty : LogOp Bool := return (← length) == 0

def stats : LogOp Stats := do
  let ledger ← opened
  let size ← act (Step.readSize.run Device.size)
  return ⟨ledger.header, ledger.footer.encodedLength, size, size - ledger.stop⟩

def sync : LogOp Unit := do
  let _ ← opened
  if !(← get).config.readOnly then act (Step.sync.run Device.sync)

/-- Gives up the bookkeeping after a last sync, also if that fails. Closing again does nothing. -/
def close : LogOp Unit := do
  let log ← get
  if log.ledger.isSome then
    set { log with ledger := none }
    if !log.config.readOnly then act (Step.sync.run Device.sync)

def isClosed (log : Log) : Bool := log.ledger.isNone

def describeHeader (header : Header) : String :=
  "Header \x7b version: " ++ Nat.repr header.version.toNat ++ ", total_records: "
    ++ Nat.repr header.totalRecords ++ ", footer_offset: " ++ Nat.repr header.footerOffset
    ++ " \x7d"

def describeOption : Option String → String
  | some text => "Some(" ++ text ++ ")"
  | none => "None"

def describe (log : Log) : String :=
  "ApoLog \x7b path: " ++ describeOption (log.path.map Text.quoted) ++ ", header: "
    ++ describeOption (log.ledger.map fun ledger => describeHeader ledger.header) ++ ", .. \x7d"

end Log

end AppendLog
