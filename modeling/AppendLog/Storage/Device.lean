import AppendLog.Storage.Medium

/-! A medium that may fail.

A fault plan decides for every call, given the calls before it, whether it fails. A call
that is torn has done its work in part when it fails: a write has put the first of its
bytes on the medium, and a cut has been made and not become durable. A file does not come
to know of it: the size that it goes by is the one from before. Every other failing call
changes nothing. The plan that never fails gives the medium itself.
-/

set_option autoImplicit false

namespace AppendLog

/-- A call as far as a plan can tell calls apart. -/
inductive Call where
  | read
  | write (length : Nat)
  | truncate
  | size
  | sync
  | flush
  deriving DecidableEq, Repr

inductive Fault where
  | fail (reason : String)
  /-- A write stops after its first `kept` bytes, and a cut after all of it. -/
  | torn (kept : Nat) (reason : String)
  deriving DecidableEq, Repr

def Fault.reason : Fault → String
  | fail reason => reason
  | torn _ reason => reason

/-- From the earlier calls, latest first, and the present one to its fault. -/
abbrev FaultPlan := List Call → Call → Option Fault

def FaultPlan.never : FaultPlan := fun _ _ => none

structure Device where
  medium : Medium
  plan : FaultPlan
  /-- The calls since the plan was made, latest first. -/
  calls : List Call

abbrev Access (α : Type) := EStateM StorageError Device α

namespace Device

def sound (medium : Medium) : Device := ⟨medium, .never, []⟩

def underPlan (device : Device) (plan : FaultPlan) : Device := ⟨device.medium, plan, []⟩

def noting (device : Device) (call : Call) : Device :=
  { device with calls := call :: device.calls }

def fault? (device : Device) (call : Call) : Option Fault := device.plan device.calls call

/-- A call that changes nothing when it fails. -/
def calling {α : Type} (call : Call) (run : Medium → Except StorageError (α × Medium)) :
    Access α := fun device =>
  let after := device.noting call
  match device.fault? call with
  | some fault => .error (.device (.broken fault.reason)) after
  | none =>
    match run device.medium with
    | .ok (value, medium) => .ok value { after with medium := medium }
    | .error error => .error error after

def readAt (offset length : Nat) : Access Bytes :=
  calling .read fun medium => return (← medium.readAt offset length, medium)

def size : Access Nat := calling .size fun medium => return (medium.size, medium)

/-- A call that changes the bytes. When it is torn, a part of the change is there, and is known
to a medium that keeps no size of its own. -/
def changing (call : Call) (part : Nat → Medium → Except StorageError Medium)
    (whole : Medium → Except StorageError Medium) : Access Unit := fun device =>
  match device.fault? call with
  | some (.torn kept reason) =>
    let after := device.noting call
    match part kept device.medium with
    | .ok left =>
      .error (.device (.broken reason)) { after with medium := device.medium.withContent left.content }
    | .error error => .error error after
  | _ => calling call (fun medium => return ((), ← whole medium)) device

def truncate (wanted : Nat) : Access Unit :=
  changing .truncate (fun _ medium => medium.truncate wanted) (·.truncate wanted)

def writeAt (offset : Nat) (data : Bytes) : Access Unit :=
  changing (.write data.length) (fun kept medium => medium.writeAt offset (data.take kept))
    (·.writeAt offset data)

def sync : Access Unit := calling .sync fun medium => return ((), medium)

def flush : Access Unit := calling .flush fun medium => return ((), medium)

end Device

/-- Standing faults: a run of failing writes, and calls of one kind that all fail. -/
structure FaultSettings where
  /-- The number of writes that succeed before the failing ones. -/
  writesAfter : Option Nat
  /-- The number of failing writes, which is at least one. -/
  times : Nat
  /-- Failing writes still store the first half of their bytes. -/
  torn : Bool
  truncate : Bool
  sync : Bool
  flush : Bool
  size : Bool
  read : Bool

namespace FaultSettings

def isWrite : Call → Bool
  | .write _ => true
  | _ => false

def writeFault (settings : FaultSettings) (earlier : Nat) (length : Nat) : Option Fault :=
  match settings.writesAfter with
  | none => none
  | some first =>
    if first ≤ earlier ∧ earlier < first + max settings.times 1 then
      some (if settings.torn then .torn (length / 2) "disk full" else .fail "disk full")
    else none

def standing (set : Bool) (reason : String) : Option Fault :=
  if set then some (.fail reason) else none

def plan (settings : FaultSettings) : FaultPlan := fun earlier call =>
  match call with
  | .write length => settings.writeFault (earlier.countP isWrite) length
  | .truncate => standing settings.truncate "truncate fault"
  | .sync => standing settings.sync "sync fault"
  | .flush => standing settings.flush "flush fault"
  | .size => standing settings.size "size fault"
  | .read => standing settings.read "read fault"

end FaultSettings

end AppendLog
