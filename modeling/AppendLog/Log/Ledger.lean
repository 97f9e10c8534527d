import AppendLog.Log.Footer
import AppendLog.Storage.Device

/-! The bookkeeping of an open log: its header and footer, and the storage accesses
by which they are created, loaded and advanced.

A record is written over the footer, a longer footer behind it, and the header last.
If a step fails, the old footer and header are put back and the log is cut to its old
end; the bookkeeping advances only when every step has succeeded.
-/

set_option autoImplicit false

namespace AppendLog

abbrev Action (α : Type) := EStateM LogError Device α

/-- Access as a step of an operation, which its failure names. -/
def Step.run {α : Type} (step : Step) (access : Access α) : Action α :=
  EStateM.adaptExcept (LogError.io step) access

structure Ledger where
  header : Header
  footer : Footer
  deriving DecidableEq, Repr

namespace Ledger

def fresh : Ledger := ⟨.fresh, .empty⟩

def stop (ledger : Ledger) : Nat := ledger.header.footerOffset + ledger.footer.encodedLength

def ofDecoded {α : Type} : Except CodecError α → Action α
  | .ok value => return value
  | .error error => throw (.codec error)

def ofValidated : Except LogError Unit → Action Unit
  | .ok _ => return
  | .error error => throw error

def create : Action Ledger := do
  Step.writeHeader.run (Device.writeAt 0 fresh.header.bytes)
  Step.writeFooter.run (Device.writeAt fresh.header.footerOffset fresh.footer.bytes)
  Step.sync.run Device.sync
  return fresh

def loadHeader : Action Header := do
  let header ← ofDecoded (Header.fromBytes (← Step.readHeader.run (Device.readAt 0 Header.width)))
  ofValidated header.validate
  return header

/-- Reads the footer of a header: its number of entries first, and those only if the number is
the header's. -/
def loadFooter (header : Header) : Action Footer := do
  let countBytes ← Step.readFooter.run (Device.readAt header.footerOffset Footer.countWidth)
  let count ← ofDecoded (Decoding.fromBytes Decoding.word countBytes)
  ofValidated (Footer.validateCount count header)
  let entries ← Step.readFooter.run
    (Device.readAt (header.footerOffset + Footer.countWidth) (count * Footer.entryWidth))
  let footer ← ofDecoded (Footer.fromBytes (countBytes ++ entries))
  ofValidated (footer.validate header)
  return footer

def load : Action Ledger := do
  let header ← loadHeader
  let footer ← loadFooter header
  let _ ← Step.readSize.run Device.size
  return ⟨header, footer⟩

def trim (stop : Nat) : Action Unit := do
  if stop < (← Step.readSize.run Device.size) then
    Step.trimTail.run (Device.truncate stop)

def next (ledger : Ledger) (payload : Nat) : Ledger :=
  { header := { ledger.header with
      totalRecords := ledger.header.totalRecords + 1
      footerOffset := ledger.header.footerOffset + Meta.width + payload }
    footer := ledger.footer.push ledger.header.footerOffset }

def writeRecord (ledger : Ledger) (info data : Bytes) : Action Unit := do
  let after := ledger.next data.length
  Step.writeMeta.run (Device.writeAt ledger.header.footerOffset info)
  Step.writeData.run (Device.writeAt (ledger.header.footerOffset + Meta.width) data)
  Step.writeFooter.run (Device.writeAt after.header.footerOffset after.footer.bytes)
  trim after.stop
  Step.writeHeader.run (Device.writeAt 0 after.header.bytes)

def putBack (ledger : Ledger) : Action Unit := do
  Step.writeFooter.run (Device.writeAt ledger.header.footerOffset ledger.footer.bytes)
  Step.writeHeader.run (Device.writeAt 0 ledger.header.bytes)

def restore (ledger : Ledger) : Action Unit := do
  ledger.putBack
  trim ledger.stop

/-- Restores as far as the device lets it; a failure to restore is not reported. -/
def rollBack (ledger : Ledger) (device : Device) : Device :=
  match ledger.restore device with
  | .ok _ after | .error _ after => after

/-- Adds a record, or leaves the log as it was. -/
def commit (ledger : Ledger) (info data : Bytes) : Action Ledger := fun device =>
  match ledger.writeRecord info data device with
  | .ok _ after => .ok (ledger.next data.length) after
  | .error error after => .error error (ledger.rollBack after)

def loadRecord (index offset boundary : Nat) : Action Record :=
  if boundary < offset then throw (.invalidFormat (.recordReversed offset boundary))
  else do
    let bytes ← Step.readRecord.run (Device.readAt offset (boundary - offset))
    match Meta.decode (Cursor.ofBytes bytes) with
    | .ok info cursor => return ⟨index, offset, info, cursor.rest⟩
    | .error error _ => throw (.codec error)

/-- Where the record after the one of that index starts, or the footer. -/
def boundary (ledger : Ledger) (index : Nat) : Nat :=
  (ledger.footer.get? (index + 1)).getD ledger.header.footerOffset

def readRaw (ledger : Ledger) (index : Nat) : Action Record :=
  match ledger.footer.get? index with
  | none => throw (.recordOutOfRange index ledger.header.totalRecords)
  | some offset =>
    EStateM.adaptExcept (LogError.recordRead index)
      (loadRecord index offset (ledger.boundary index))

end Ledger

end AppendLog
