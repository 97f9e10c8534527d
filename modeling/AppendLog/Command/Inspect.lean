import AppendLog.Json
import AppendLog.Log.Handle

/-! Inspecting a log: its header, its footer and its sizes. -/

set_option autoImplicit false

namespace AppendLog.Command

structure Inspection where
  path : String
  stats : Stats
  /-- Where the records start, if that was asked for. -/
  offsets : Option (List Nat)
  deriving DecidableEq, Repr

def Inspection.recordBytes (inspection : Inspection) : Nat :=
  inspection.stats.header.footerOffset - Header.width

def inspect (showOffsets : Bool) : LogOp Inspection := do
  let stats ← Log.stats
  let offsets ← if showOffsets then pure (some (← Log.footer).offsets) else pure none
  return ⟨(← get).path.getD "<memory>", stats, offsets⟩

def line (text : String) : String := text ++ "\n"

def padRight (width : Nat) (text : String) : String := text ++ "".pushn ' ' (width - text.length)

def padLeft (width : Nat) (text : String) : String := "".pushn ' ' (width - text.length) ++ text

namespace Inspection

def toJson (inspection : Inspection) : Json :=
  let stats := inspection.stats
  .object <|
    [("path", .string inspection.path),
      ("version", .ofNat stats.header.version.toNat),
      ("total_records", .ofNat stats.header.totalRecords),
      ("footer_offset", .ofNat stats.header.footerOffset),
      ("footer_size", .ofNat stats.footerSize),
      ("file_size", .ofNat stats.fileSize),
      ("orphaned_bytes", .ofNat stats.orphanedBytes),
      ("record_bytes", .ofNat inspection.recordBytes)]
    ++ (match inspection.offsets with
      | some offsets => [("offsets", .array (offsets.map .ofNat))]
      | none => [])

def offsetLines (offsets : List Nat) : String :=
  line "" ++ line "Offsets:" ++ String.join (offsets.zipIdx.map fun (offset, index) =>
    line ("  [" ++ padLeft 6 (Nat.repr index) ++ "] " ++ Nat.repr offset))

def toText (inspection : Inspection) : String :=
  let stats := inspection.stats
  line ("apo log: " ++ inspection.path)
    ++ line "================"
    ++ line ("Version:        " ++ Nat.repr stats.header.version.toNat)
    ++ line ("Records:        " ++ Nat.repr stats.header.totalRecords)
    ++ line ("Record bytes:   " ++ Nat.repr inspection.recordBytes)
    ++ line ("Footer offset:  " ++ Nat.repr stats.header.footerOffset)
    ++ line ("Footer size:    " ++ Nat.repr stats.footerSize)
    ++ line ("File size:      " ++ Nat.repr stats.fileSize)
    ++ (if 0 < stats.orphanedBytes then
        line ("Orphaned bytes: " ++ Nat.repr stats.orphanedBytes ++ " (trimmed on next write)")
      else "")
    ++ (match inspection.offsets with
      | some offsets => offsetLines offsets
      | none => "")

end Inspection

end AppendLog.Command
