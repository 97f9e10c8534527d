import AppendLog.Command.Inspect
import AppendLog.Log.Walk
import AppendLog.Value.Wire

/-! Verifying a log: reading every record up to the first one that cannot be read or,
with a shape, does not hold exactly one value of it. -/

set_option autoImplicit false

namespace AppendLog.Command

def payloadValue (shape : Shape) (record : Record) : Except CodecError Value :=
  Decoding.fromBytes shape.decode record.data

inductive Complaint where
  | unopened (error : LogError)
  | unreadable (index : Nat) (error : LogError)
  | misshapen (index : Nat) (error : CodecError)
  deriving DecidableEq, Repr

namespace Complaint

def index? : Complaint → Option Nat
  | unopened _ => none
  | unreadable index _ => some index
  | misshapen index _ => some index

def message : Complaint → String
  | unopened error => "Failed to open log: " ++ error.message
  | unreadable _ error => error.message
  | misshapen index error =>
    "Record " ++ Nat.repr index ++ " does not match shape: " ++ error.message

end Complaint

structure Verdict where
  total : Nat
  /-- The records before the first that failed. -/
  valid : Nat
  complaint : Option Complaint
  deriving DecidableEq, Repr

/-- What is wrong with a reading. One that has failed is known by its place in the walk, and a
record by the index that it has been given with. -/
def complaint? (shape : Option Shape) : Reading × Nat → Option Complaint
  | (.error error, place) => some (.unreadable place error)
  | (.ok record, _) =>
    match shape.map (payloadValue · record) with
    | some (.error error) => some (.misshapen record.index error)
    | _ => none

def judge (shape : Option Shape) (total : Nat) : (valid : Nat) → List (Reading × Nat) → Verdict
  | valid, [] => ⟨total, valid, none⟩
  | valid, placed :: rest =>
    match complaint? shape placed with
    | some complaint => ⟨total, valid, some complaint⟩
    | none => judge shape total (valid + 1) rest

def verify (shape : Option Shape) : LogOp (Verdict × Nat) := do
  let total ← Log.length
  let stats ← Log.stats
  let walk ← Log.walk 0
  let (readings, after) := walk.readings none (← get)
  set after
  return (judge shape total 0 readings.zipIdx, stats.orphanedBytes)

namespace Verdict

def passed (verdict : Verdict) : Bool := verdict.complaint.isNone

def unopened (error : LogError) : Verdict := ⟨0, 0, some (.unopened error)⟩

def toText (verdict : Verdict) : String :=
  line ("  Records: " ++ Nat.repr verdict.total)
    ++ line ("  Valid:   " ++ Nat.repr verdict.valid)
    ++ (match verdict.complaint with
      | none => ""
      | some complaint =>
        (match complaint.index? with
          | some index => line ("  First failure at record " ++ Nat.repr index)
          | none => "")
        ++ line ("  Error: " ++ complaint.message))
    ++ line ""
    ++ line (if verdict.passed then "✓ Log verification passed" else "✗ Log verification failed")

end Verdict

end AppendLog.Command
