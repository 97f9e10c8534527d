import AppendLog.Proofs.Handles
import AppendLog.Proofs.Records

/-! A store over time, and the handles that are held on it.

At most one handle is held at a time, and it is dropped before the next one is opened.
A dropped handle leaves its medium as it is, closed before or not. Every request is
served under a fault plan of its own.
-/

set_option autoImplicit false

namespace AppendLog

def Log.underPlan (log : Log) (plan : FaultPlan) : Log :=
  { log with device := log.device.underPlan plan }

inductive Request where
  | open (path : Option String) (config : Config)
  | write (now : Int) (info : Meta) (payload : Encoding)
  | readRaw (index : Nat)
  | close
  | drop

inductive Reply where
  | done
  | index (index : Nat)
  | record (record : Record)
  | refused (error : LogError)
  | noHandle
  deriving DecidableEq, Repr

inductive Session where
  | stored (medium : Medium)
  | held (log : Log)

namespace Session

def medium : Session → Medium
  | stored medium => medium
  | held log => log.device.medium

def operate {α : Type} (plan : FaultPlan) (reply : α → Reply) (operation : LogOp α) :
    Session → Reply × Session
  | stored medium => (.noHandle, stored medium)
  | held log =>
    match operation (log.underPlan plan) with
    | .ok value after => (reply value, held after)
    | .error error after => (.refused error, held after)

def step (plan : FaultPlan) : Request → Session → Reply × Session
  | .open path config, session =>
    match Log.openOn path config ⟨session.medium.reopened config.readOnly, plan, []⟩ with
    | (.ok log, _) => (.done, held log)
    | (.error error, device) => (.refused error, stored device.medium)
  | .write now info payload, session =>
    session.operate plan .index (Log.write now info payload)
  | .readRaw index, session => session.operate plan .record (Log.readRaw index)
  | .close, session => session.operate plan (fun _ => .done) Log.close
  | .drop, session => (.done, stored session.medium)

def run : List Request → Session → List Reply × Session
  | [], session => ([], session)
  | request :: rest, session =>
    let (reply, middle) := session.step .never request
    let (replies, after) := run rest middle
    (reply :: replies, after)

end Session

namespace Ledger

theorem afterwards_readRaw (ledger : Ledger) (index : Nat) (device : Device) :
    ∃ calls, afterwards (ledger.readRaw index device) = ⟨device.medium, device.plan, calls⟩ := by
  suffices inspects : Inspects (ledger.readRaw index) from inspects device
  unfold readRaw
  split
  · exact inspects_throw _
  · apply Inspects.adaptExcept
    unfold loadRecord
    split
    · exact inspects_throw _
    · refine ((Device.inspects_readAt _ _).adaptExcept _).bind fun bytes => ?_
      -- Whether the bytes can be decoded is a matter of the bytes alone.
      split
      · exact inspects_pure _
      · exact inspects_throw _

end Ledger

namespace Log

variable {log : Log} {ledger : Ledger}

theorem readRaw_eq (opened : log.ledger = some ledger) (index : Nat) : readRaw index log =
    match ledger.readRaw index log.device with
    | .ok record device => .ok record { log with device }
    | .error error device => .error error { log with device } := by
  simp only [readRaw, Log.opened, bind, EStateM.bind, run_get, opened, run_pure, act]
  cases ledger.readRaw index log.device <;> rfl

theorem readRaw_of_closed (closed : log.ledger = none) (index : Nat) :
    readRaw index log = .error .closed log := by
  simp only [readRaw, Log.opened, bind, EStateM.bind, run_get, closed, run_throw]

theorem outcome_readRaw (opened : log.ledger = some ledger) (index : Nat) :
    outcome (readRaw index log) = outcome (ledger.readRaw index log.device) := by
  rw [readRaw_eq opened]
  cases ledger.readRaw index log.device <;> rfl

theorem outcome_readRaw_of_fits (opened : log.ledger = some ledger) (fits : ledger.Fits)
    (plain : log.device.medium.Plain) (sound : log.device.fault? .read = none)
    (reaches : log.device.medium.Reaches ledger.header.footerOffset) (index : Nat) :
    outcome (readRaw index log) = ledger.recordIn log.device.bytes index := by
  rw [outcome_readRaw opened, Ledger.outcome_readRaw fits plain sound reaches]

theorem openOn_reads (path : Option String) (config : Config) (medium : Medium)
    (formed : ledger.WellFormed) (lies : ledger.LiesIn medium.content) :
    ∃ reopened device,
      openOn path config (.sound (medium.reopened config.readOnly)) = (.ok reopened, device) ∧
      reopened.ledger = some ledger ∧
      ∀ index, outcome (readRaw index reopened) = ledger.recordIn medium.content index := by
  obtain ⟨calls, opened⟩ := openOn_of_liesIn path config medium formed lies
  refine ⟨_, _, opened, rfl, fun index => ?_⟩
  have readable := medium.readable_reopened config.readOnly
  have reaches : ledger.header.footerOffset ≤ (medium.reopened config.readOnly).content.length := by
    rw [Medium.content_reopened]
    exact Nat.le_trans (Nat.le_add_right _ _) lies.stop_le
  rw [outcome_readRaw_of_fits rfl formed.toFits readable.2 rfl (readable.reaches reaches), Device.bytes,
    Medium.content_reopened]

theorem outcome_read {α : Type} (decoder : Decoding α) (index : Nat) (log : Log) :
    outcome (read decoder index log) =
      match outcome (readRaw index log) with
      | .error error => .error error
      | .ok record =>
        match Decoding.fromBytes decoder record.data with
        | .ok value => .ok (record.info, value)
        | .error error => .error (.recordRead index (.codec error)) := by
  simp only [read, bind, EStateM.bind]
  cases readRaw index log with
  | error error after => rfl
  | ok record after =>
    simp only [outcome]
    cases Decoding.fromBytes decoder record.data <;> rfl

theorem close_eq_of_closed (closed : log.ledger = none) : close log = .ok () log := by
  simp [close, bind, EStateM.bind, closed]

theorem close_of_sound (opened : log.ledger = some ledger) (sound : log.device.plan = .never) :
    ∃ calls, close log = .ok ()
      { log with ledger := none, device := ⟨log.device.medium, log.device.plan, calls⟩ } := by
  have synced : Step.sync.run Device.sync log.device = .ok () (log.device.noting .sync) := by
    apply adaptExcept_of_ok
    rw [Device.sync, Device.calling_eq rfl, Device.fault?, sound]
    rfl
  cases readOnly : log.config.readOnly with
  | true =>
    exact ⟨log.device.calls, by
      simp [close, bind, EStateM.bind, opened, readOnly]⟩
  | false =>
    exact ⟨_, by
      simp [close, bind, EStateM.bind, opened, readOnly, act, synced, Device.noting]; rfl⟩

theorem afterwards_readRaw (log : Log) (index : Nat) : ∃ calls, afterwards (readRaw index log) =
    { log with device := ⟨log.device.medium, log.device.plan, calls⟩ } := by
  cases opened : log.ledger with
  | none => exact ⟨log.device.calls, by rw [readRaw_of_closed opened, afterwards, ← opened]⟩
  | some ledger =>
    obtain ⟨calls, left⟩ := ledger.afterwards_readRaw index log.device
    refine ⟨calls, ?_⟩
    rw [readRaw_eq opened, ← left, ← opened]
    cases ledger.readRaw index log.device <;> rfl

theorem afterwards_close (log : Log) : ∃ calls, afterwards (close log) =
    { log with ledger := none, device := ⟨log.device.medium, log.device.plan, calls⟩ } := by
  cases opened : log.ledger with
  | none =>
    refine ⟨log.device.calls, ?_⟩
    rw [close_eq_of_closed opened, afterwards, ← opened]
  | some ledger =>
    obtain ⟨calls, left⟩ := Device.inspects_sync.adaptExcept (LogError.io .sync) log.device
    have synced : afterwards (act (Step.sync.run Device.sync) { log with ledger := none }) =
        { log with ledger := none, device := ⟨log.device.medium, log.device.plan, calls⟩ } := by
      rw [← left]
      simp only [act, Step.run]
      cases EStateM.adaptExcept (LogError.io .sync) Device.sync log.device <;> rfl
    cases readOnly : log.config.readOnly with
    | true => exact ⟨log.device.calls, by simp [close, bind, EStateM.bind, opened, readOnly, afterwards]⟩
    | false =>
      refine ⟨calls, ?_⟩
      rw [← synced]
      simp [close, bind, EStateM.bind, opened, readOnly]

end Log

end AppendLog
