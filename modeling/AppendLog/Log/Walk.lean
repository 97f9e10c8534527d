import AppendLog.Log.Handle

/-! Walking over the records of a log, one read a step.

A walk ends behind the last record, or behind the first one that cannot be read,
whose error it gives once.
-/

set_option autoImplicit false

namespace AppendLog

structure Walk where
  next : Nat
  failed : Bool
  deriving DecidableEq, Repr

abbrev Reading := Except LogError Record

namespace Walk

def start (index : Nat) : Walk := ⟨index, false⟩

/-- The records that are left to a walk, if all of them can be read. -/
def bound (walk : Walk) (log : Log) : Nat :=
  match log.ledger with
  | some ledger => ledger.header.totalRecords - walk.next
  | none => 0

def step (walk : Walk) (log : Log) : Option (Reading × Walk) × Log :=
  if walk.failed || walk.bound log == 0 then (none, log)
  else
    match Log.readRaw walk.next log with
    | .ok record after => (some (.ok record, ⟨walk.next + 1, false⟩), after)
    | .error error after => (some (.error error, ⟨walk.next + 1, true⟩), after)

def take : (limit : Nat) → Walk → Log → List Reading × Log
  | 0, _, log => ([], log)
  | limit + 1, walk, log =>
    match walk.step log with
    | (none, after) => ([], after)
    | (some (reading, walk), after) =>
      let (more, after) := take limit walk after
      (reading :: more, after)

def readings (limit : Option Nat) (walk : Walk) (log : Log) : List Reading × Log :=
  walk.take (match limit with
    | some limit => min limit (walk.bound log)
    | none => walk.bound log) log

end Walk

def Log.walk (index : Nat) : LogOp Walk := do
  let _ ← opened
  return .start index

end AppendLog
