import AppendLog.Proofs.Mirrors
import AppendLog.Proofs.Session

/-! Walks over a log whose storage does not fail, or fails steadily.

Reading a record changes nothing that another reading depends on, so a walk gives what each record
is read as by itself, in order, up to the first error.
-/

set_option autoImplicit false

namespace AppendLog

namespace Ledger

theorem index_of_readRaw {ledger : Ledger} {index : Nat} {device after : Device} {record : Record}
    (read : ledger.readRaw index device = .ok record after) : record.index = index := by
  unfold readRaw at read
  cases found : ledger.footer.get? index with
  | none =>
    rw [found] at read
    cases read
  | some offset =>
    rw [found] at read
    have loaded := adaptExcept_eq_ok.mp read
    unfold loadRecord at loaded
    split at loaded
    · cases loaded
    · obtain ⟨bytes, middle, -, decoded⟩ := bind_eq_ok.mp loaded
      cases result : Meta.decode (Cursor.ofBytes bytes) with
      | ok info cursor =>
        rw [result] at decoded
        cases decoded
        rfl
      | error error stop =>
        rw [result] at decoded
        cases decoded

end Ledger

namespace Log

def reading (log : Log) (index : Nat) : Reading := outcome (readRaw index log)

theorem index_of_reading {log : Log} {index : Nat} {record : Record}
    (read : log.reading index = .ok record) : record.index = index := by
  unfold reading at read
  cases held : log.ledger with
  | none =>
    rw [readRaw_of_closed held] at read
    cases read
  | some ledger =>
    rw [outcome_readRaw held] at read
    cases ran : ledger.readRaw index log.device with
    | ok found after =>
      rw [ran] at read
      cases read
      exact ledger.index_of_readRaw ran
    | error error after =>
      rw [ran] at read
      cases read

theorem Mirrors.reading {first second : Log} (mirrors : first.Mirrors second) :
    first.reading = second.reading := by
  funext index
  exact (readRaw_respects_mirrors index mirrors).1

theorem mirrors_of_steady {log : Log} (steady : log.device.plan.Steady) (calls : List Call) :
    Mirrors { log with device := ⟨log.device.medium, log.device.plan, calls⟩ } log :=
  ⟨rfl, Device.mirrors_of_steady steady calls⟩

end Log

namespace Walk

def upToError : List Reading → List Reading
  | [] => []
  | .error error :: _ => [.error error]
  | .ok record :: rest => .ok record :: upToError rest

variable {log : Log}

theorem take_of_failed (limit next : Nat) (log : Log) : take limit ⟨next, true⟩ log = ([], log) := by
  cases limit <;> rfl

theorem bound_succ (next : Nat) (log : Log) : (start (next + 1)).bound log = (start next).bound log - 1 := by
  unfold bound
  cases log.ledger with
  | none => rfl
  | some ledger => exact Nat.sub_add_eq _ _ _

theorem step_start (next : Nat) (log : Log) : (start next).step log =
    if (start next).bound log = 0 then (none, log)
    else (some (log.reading next, ⟨next + 1, !(log.reading next).toBool⟩),
      afterwards (Log.readRaw next log)) := by
  simp only [step, start, Bool.false_or, beq_iff_eq]
  congr 1
  unfold Log.reading
  cases Log.readRaw next log <;> rfl

theorem take_of_steady (steady : log.device.plan.Steady) (limit next : Nat) :
    ((start next).take limit log).1 =
      upToError ((List.range' next (min limit ((start next).bound log))).map log.reading) := by
  -- Along the limit; after a step the log still reads as before.
  induction limit generalizing next log with
  | zero => rw [Nat.zero_min]; rfl
  | succ limit ih =>
    cases count : (start next).bound log with
    | zero =>
      simp only [take, step_start, count, if_true]
      rfl
    | succ more =>
      have going : more + 1 ≠ 0 := Nat.succ_ne_zero more
      rw [Nat.add_min_add_right, List.range'_succ, List.map_cons]
      simp only [take, step_start, count, going, if_false]
      cases first : log.reading next with
      | error error =>
        rw [show (!(Except.error error : Reading).toBool) = true from rfl, take_of_failed]
        rfl
      | ok record =>
        obtain ⟨calls, left⟩ := log.afterwards_readRaw next
        have same : (afterwards (Log.readRaw next log)).reading = log.reading :=
          left ▸ (Log.mirrors_of_steady steady calls).reading
        have remaining : (start (next + 1)).bound (afterwards (Log.readRaw next log)) = more := by
          rw [bound_succ, show (start next).bound (afterwards (Log.readRaw next log)) =
            (start next).bound log from left ▸ rfl, count]
          rfl
        have stillSteady : (afterwards (Log.readRaw next log)).device.plan.Steady := left ▸ steady
        have rest := ih stillSteady (next + 1)
        rw [same, remaining] at rest
        exact congrArg (.ok record :: ·) rest

def window (log : Log) (next : Nat) : Option Nat → Nat
  | some limit => min limit ((start next).bound log)
  | none => (start next).bound log

theorem readings_of_steady (steady : log.device.plan.Steady) (next : Nat) (limit : Option Nat) :
    ((start next).readings limit log).1 =
      upToError ((List.range' next (window log next limit)).map log.reading) := by
  cases limit with
  | none => rw [readings, take_of_steady steady, Nat.min_self, window]
  | some limit => rw [readings, take_of_steady steady, Nat.min_assoc, Nat.min_self, window]

end Walk

end AppendLog
