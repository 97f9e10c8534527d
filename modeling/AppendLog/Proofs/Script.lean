import AppendLog.Log.Ledger
import AppendLog.Proofs.Media
import AppendLog.Proofs.Running

/-! Storage calls in a row, and what faults make of them.

A stroke is one call that may change the bytes of a medium, and a script is a list of
strokes, each of them a step of an operation. Under a fault plan a script either comes
to its end or stops at the first stroke that the plan fails, of which a torn one has
left a part behind that a file does not know of: `perform_of_sound` and `perform_of_halt`.
-/

set_option autoImplicit false

namespace AppendLog

/-- The part of the bytes that a failing write still stores. -/
def Fault.landed (fault : Fault) (data : Bytes) : Bytes :=
  match fault with
  | fail _ => []
  | torn kept _ => data.take kept

theorem Fault.length_landed_le (fault : Fault) (data : Bytes) :
    (fault.landed data).length ≤ data.length := by
  cases fault with
  | fail _ => exact Nat.zero_le _
  | torn kept _ => exact List.length_take_le' kept data

namespace Device

def bytes (device : Device) : Bytes := device.medium.content

@[simp] theorem medium_noting (device : Device) (call : Call) :
    (device.noting call).medium = device.medium := rfl

@[simp] theorem bytes_noting (device : Device) (call : Call) :
    (device.noting call).bytes = device.bytes := rfl

@[simp] theorem plan_noting (device : Device) (call : Call) :
    (device.noting call).plan = device.plan := rfl

theorem calling_eq {α : Type} {device : Device} {call : Call}
    {run : Medium → Except StorageError (α × Medium)} {value : α} {medium : Medium}
    (succeeds : run device.medium = .ok (value, medium)) :
    calling call run device =
      match device.fault? call with
      | none => .ok value { device.noting call with medium := medium }
      | some fault => .error (.device (.broken fault.reason)) (device.noting call) := by
  simp only [calling, succeeds]
  cases device.fault? call <;> rfl

theorem size_eq (device : Device) :
    size device =
      match device.fault? .size with
      | none => .ok device.medium.size (device.noting .size)
      | some fault => .error (.device (.broken fault.reason)) (device.noting .size) :=
  calling_eq rfl

theorem readAt_eq {device : Device} (plain : device.medium.Plain) {offset length : Nat}
    (reaches : device.medium.Reaches (offset + length)) :
    readAt offset length device =
      match device.fault? .read with
      | none => .ok (device.bytes.span offset (offset + length)) (device.noting .read)
      | some fault => .error (.device (.broken fault.reason)) (device.noting .read) := by
  have succeeds : (do return (← device.medium.readAt offset length, device.medium)) =
      (.ok (device.bytes.span offset (offset + length), device.medium) :
        Except StorageError (Bytes × Medium)) := by
    rw [Medium.readAt_of_reaches plain reaches]
    rfl
  rw [readAt, calling_eq succeeds]
  rfl

end Device

theorem Device.changing_of_sound {device : Device} (sound : device.plan = .never) (call : Call)
    (part : Nat → Medium → Except StorageError Medium) (whole : Medium → Except StorageError Medium) :
    changing call part whole device = calling call (fun medium => return ((), ← whole medium)) device := by
  rw [changing, fault?, sound]
  rfl

/-- But for the calls, the device is left as it was. -/
def Device.Inspected (device after : Device) : Prop := ∃ calls, after = ⟨device.medium, device.plan, calls⟩

theorem Device.inspected_refl (device : Device) : device.Inspected device := ⟨device.calls, rfl⟩

theorem Device.Inspected.trans {device middle after : Device} (first : device.Inspected middle)
    (second : middle.Inspected after) : device.Inspected after := by
  obtain ⟨_, rfl⟩ := first
  obtain ⟨calls, rfl⟩ := second
  exact ⟨calls, rfl⟩

/-- Whatever it comes to, the operation leaves the medium as it is, and the plan. -/
def Inspects {ε α : Type} (operation : EStateM ε Device α) : Prop :=
  ∀ device, ∃ calls, afterwards (operation device) = ⟨device.medium, device.plan, calls⟩

theorem Medium.eq_of_reading {medium after : Medium} {offset length : Nat} {bytes : Bytes}
    (ran : (do return (← medium.readAt offset length, medium)) = Except.ok (bytes, after)) :
    after = medium := by
  cases found : medium.readAt offset length with
  | error error => rw [found] at ran; cases ran
  | ok bytes => rw [found] at ran; cases ran; rfl

section Inspects

variable {ε ε' α β : Type} {operation : EStateM ε Device α} {next : α → EStateM ε Device β}

theorem inspects_iff : Inspects operation ↔ Leaves Device.Inspected operation := Iff.rfl

theorem inspects_pure (value : α) : Inspects (pure value : EStateM ε Device α) :=
  inspects_iff.mpr (leaves_pure Device.inspected_refl value)

theorem inspects_throw (error : ε) : Inspects (throw error : EStateM ε Device α) :=
  inspects_iff.mpr (leaves_throw Device.inspected_refl error)

theorem Inspects.bind (first : Inspects operation) (second : ∀ value, Inspects (next value)) :
    Inspects (operation >>= next) :=
  inspects_iff.mpr ((inspects_iff.mp first).bind Device.Inspected.trans fun value =>
    inspects_iff.mp (second value))

theorem Inspects.adaptExcept (inspects : Inspects operation) (rename : ε → ε') :
    Inspects (EStateM.adaptExcept rename operation) :=
  inspects_iff.mpr ((inspects_iff.mp inspects).adaptExcept rename)

theorem Device.inspects_calling (call : Call) {run : Medium → Except StorageError (α × Medium)}
    (same : ∀ medium value after, run medium = .ok (value, after) → after = medium) :
    Inspects (calling call run) := by
  intro device
  refine ⟨call :: device.calls, ?_⟩
  simp only [calling]
  cases device.fault? call with
  | some fault => rfl
  | none =>
    cases ran : run device.medium with
    | error error => rfl
    | ok result =>
      obtain ⟨value, after⟩ := result
      rw [same _ _ _ ran]
      rfl

theorem Device.inspects_size : Inspects Device.size :=
  inspects_calling .size fun _ _ _ ran => by cases ran; rfl

theorem Device.inspects_sync : Inspects Device.sync :=
  inspects_calling .sync fun _ _ _ ran => by cases ran; rfl

theorem Device.inspects_readAt (offset length : Nat) : Inspects (Device.readAt offset length) :=
  inspects_calling .read fun _ _ _ => Medium.eq_of_reading

end Inspects

/-- A storage call that may change what is on the medium. -/
inductive Stroke where
  | write (offset : Nat) (data : Bytes)
  | cut (stop : Nat)
  | measure
  | sync
  deriving DecidableEq, Repr

namespace Stroke

def call : Stroke → Call
  | write _ data => .write data.length
  | cut _ => .truncate
  | measure => .size
  | sync => .sync

def access : Stroke → Access Unit
  | write offset data => Device.writeAt offset data
  | cut stop => Device.truncate stop
  | measure => do let _ ← Device.size
  | sync => Device.sync

def apply (stroke : Stroke) (bytes : Bytes) : Bytes :=
  match stroke with
  | write offset data => bytes.overlay offset data
  | cut stop => bytes.take stop
  | measure | sync => bytes

def applyTorn (stroke : Stroke) (fault : Fault) (bytes : Bytes) : Bytes :=
  match stroke, fault with
  | write offset data, fault => bytes.overlay offset (fault.landed data)
  | cut stop, .torn _ _ => bytes.take stop
  | cut _, .fail _ | measure, _ | sync, _ => bytes

/-- What has been reached, by the bytes or by what is known of them, after the stroke. -/
def extend (stroke : Stroke) (reach : Nat) : Nat :=
  match stroke with
  | write offset data => max reach (offset + data.length)
  | cut stop => stop
  | measure | sync => reach

/-- The stroke leaves no gap behind what has been reached. -/
def Inside (stroke : Stroke) (reach : Nat) : Prop :=
  match stroke with
  | write offset _ => offset ≤ reach
  | cut stop => stop ≤ reach
  | measure | sync => True

def effect (stroke : Stroke) (medium : Medium) : Medium :=
  medium.knowing (stroke.extend medium.size) (stroke.apply medium.content)

/-- The medium after the stroke has failed. It goes on with the size from before. -/
def wreck (stroke : Stroke) (fault : Fault) (medium : Medium) : Medium :=
  medium.knowing medium.size (stroke.applyTorn fault medium.content)

def Keeps (stroke : Stroke) (kept : Medium → Prop) : Prop :=
  ∀ medium reach, medium.Reaches reach → stroke.Inside reach → kept medium →
    kept (stroke.effect medium) ∧ ∀ fault, kept (stroke.wreck fault medium)

variable {device : Device} {medium : Medium} {reach : Nat}

theorem extend_mono (stroke : Stroke) {size : Nat} (le : reach ≤ size) :
    stroke.extend reach ≤ stroke.extend size := by
  cases stroke with
  | write offset data =>
    simp only [extend]
    omega
  | cut stop => exact Nat.le_refl _
  | measure | sync => exact le

theorem Inside.mono {stroke : Stroke} {size : Nat} (inside : stroke.Inside reach) (le : reach ≤ size) :
    stroke.Inside size := by
  cases stroke with
  | write offset data => exact Nat.le_trans inside le
  | cut stop => exact Nat.le_trans inside le
  | measure | sync => trivial

theorem length_apply {stroke : Stroke} {bytes : Bytes} (inside : stroke.Inside reach)
    (reaches : reach ≤ bytes.length) : (stroke.apply bytes).length = stroke.extend bytes.length := by
  cases stroke with
  | write offset data => exact Bytes.length_overlay (Nat.le_trans inside reaches) data
  | cut stop => exact List.length_take_of_le (Nat.le_trans inside reaches)
  | measure | sync => rfl

theorem size_effect {stroke : Stroke} (inside : stroke.Inside reach) (reaches : medium.Reaches reach) :
    (stroke.effect medium).size = stroke.extend medium.size := by
  refine medium.size_knowing fun m memory => ?_
  rw [length_apply inside reaches.2, memory]
  rfl

theorem reaches_effect {stroke : Stroke} (inside : stroke.Inside reach) (reaches : medium.Reaches reach) :
    (stroke.effect medium).Reaches (stroke.extend reach) := by
  constructor
  · rw [size_effect inside reaches]
    exact stroke.extend_mono reaches.1
  · rw [effect, Medium.content_knowing, length_apply inside reaches.2]
    exact stroke.extend_mono reaches.2

theorem access_eq (changeable : device.medium.Changeable) {stroke : Stroke} (inside : stroke.Inside reach)
    (reaches : device.medium.Reaches reach) :
    stroke.access device =
      match device.fault? stroke.call with
      | none => .ok () { device.noting stroke.call with medium := stroke.effect device.medium }
      | some fault =>
        .error (.device (.broken fault.reason))
          { device.noting stroke.call with medium := stroke.wreck fault device.medium } := by
  have unchanged := device.medium.knowing_self
  cases stroke with
  | write offset data =>
    have room := reaches.of_le inside
    have whole := Medium.writeAt_of_reaches changeable room data
    simp only [access, Device.writeAt, Device.changing, call, Device.calling]
    cases faulty : device.fault? (.write data.length) with
    | none => simp only [whole]; rfl
    | some fault =>
      cases fault with
      | fail reason =>
        simp only [wreck, applyTorn, Fault.landed, Bytes.overlay_nil, unchanged]
        rfl
      -- What has landed of the data is a write of its own.
      | torn kept reason =>
        have part := Medium.writeAt_of_reaches changeable room (data.take kept)
        simp only [part, Medium.content_knowing, Medium.withContent_eq]
        rfl
  | cut stop =>
    have whole := Medium.truncate_of_reaches changeable (reaches.of_le inside)
    simp only [access, Device.truncate, Device.changing, call, Device.calling]
    cases faulty : device.fault? .truncate with
    | none => simp only [whole]; rfl
    | some fault =>
      cases fault with
      | fail reason =>
        simp only [wreck, applyTorn, unchanged]
        rfl
      | torn kept reason =>
        simp only [whole, Medium.content_knowing, Medium.withContent_eq]
        rfl
  | measure =>
    simp only [access, call, effect, wreck, apply, applyTorn, extend, unchanged, bind, EStateM.bind,
      Device.size_eq]
    cases device.fault? .size <;> rfl
  | sync =>
    rw [access, Device.sync, Device.calling_eq rfl]
    simp only [call, effect, wreck, apply, applyTorn, extend, unchanged]
    rfl

theorem run_of_sound (changeable : device.medium.Changeable) {stroke : Stroke} (step : Step)
    (inside : stroke.Inside reach) (reaches : device.medium.Reaches reach)
    (sound : device.fault? stroke.call = none) :
    step.run stroke.access device =
      .ok () { device.noting stroke.call with medium := stroke.effect device.medium } := by
  apply adaptExcept_of_ok
  rw [access_eq changeable inside reaches, sound]

theorem run_of_fault (changeable : device.medium.Changeable) {stroke : Stroke} (step : Step)
    (inside : stroke.Inside reach) (reaches : device.medium.Reaches reach) {fault : Fault}
    (faulty : device.fault? stroke.call = some fault) :
    step.run stroke.access device =
      .error (.io step (.device (.broken fault.reason)))
        { device.noting stroke.call with medium := stroke.wreck fault device.medium } := by
  apply adaptExcept_of_error
  rw [access_eq changeable inside reaches, faulty]

end Stroke

abbrev Script := List (Step × Stroke)

namespace Script

def perform : Script → Action Unit
  | [] => return
  | (step, stroke) :: rest => do
    step.run stroke.access
    perform rest

def apply : Script → Bytes → Bytes
  | [], bytes => bytes
  | (_, stroke) :: rest, bytes => apply rest (stroke.apply bytes)

def extend : Script → Nat → Nat
  | [], reach => reach
  | (_, stroke) :: rest, reach => extend rest (stroke.extend reach)

def effect : Script → Medium → Medium
  | [], medium => medium
  | (_, stroke) :: rest, medium => effect rest (stroke.effect medium)

def Inside : Script → Nat → Prop
  | [], _ => True
  | (_, stroke) :: rest, reach => stroke.Inside reach ∧ Inside rest (stroke.extend reach)

/-- The first step that the plan fails, and how. -/
def halt? (plan : FaultPlan) : Script → List Call → Option (Step × Fault)
  | [], _ => none
  | (step, stroke) :: rest, earlier =>
    match plan earlier stroke.call with
    | some fault => some (step, fault)
    | none => halt? plan rest (stroke.call :: earlier)

/-- The script can be stopped at that step by that fault, and then leaves that medium. -/
inductive Stops : Script → Medium → Step → Fault → Medium → Prop where
  | here (step : Step) (stroke : Stroke) (rest : Script) (medium : Medium) (fault : Fault) :
      Stops ((step, stroke) :: rest) medium step fault (stroke.wreck fault medium)
  | later {earlier step : Step} {stroke : Stroke} {rest : Script} {medium left : Medium}
      {fault : Fault} : Stops rest (stroke.effect medium) step fault left →
      Stops ((earlier, stroke) :: rest) medium step fault left

def leaves (plan : FaultPlan) : Script → List Call → Bytes → Bytes
  | [], _, bytes => bytes
  | (_, stroke) :: rest, earlier, bytes =>
    match plan earlier stroke.call with
    | some fault => stroke.applyTorn fault bytes
    | none => leaves plan rest (stroke.call :: earlier) (stroke.apply bytes)

variable {device : Device} {script : Script} {medium left : Medium} {reach : Nat} {step : Step}
  {fault : Fault}

theorem perform_append (first second : Script) (device : Device) :
    perform (first ++ second) device = (perform first >>= fun _ => perform second) device := by
  induction first generalizing device with
  | nil => rfl
  | cons head rest ih =>
    obtain ⟨step, stroke⟩ := head
    simp only [List.cons_append, perform, bind_assoc]
    cases ran : step.run stroke.access device with
    | ok _ after => rw [bind_of_ok ran, bind_of_ok ran, ih]
    | error error after => rw [bind_of_error ran, bind_of_error ran]

theorem apply_append (first second : Script) (bytes : Bytes) :
    apply (first ++ second) bytes = apply second (apply first bytes) := by
  induction first generalizing bytes with
  | nil => rfl
  | cons head rest ih => exact ih _

theorem extend_append (first second : Script) (reach : Nat) :
    extend (first ++ second) reach = extend second (extend first reach) := by
  induction first generalizing reach with
  | nil => rfl
  | cons head rest ih => exact ih _

theorem inside_append {first second : Script} :
    (first ++ second).Inside reach ↔ first.Inside reach ∧ second.Inside (first.extend reach) := by
  induction first generalizing reach with
  | nil => simp [Inside, extend]
  | cons head rest ih => simp only [List.cons_append, Inside, extend, ih, and_assoc]

theorem Inside.mono {size : Nat} (inside : script.Inside reach) (le : reach ≤ size) :
    script.Inside size := by
  induction script generalizing reach size with
  | nil => trivial
  | cons head rest ih => exact ⟨inside.1.mono le, ih inside.2 (head.2.extend_mono le)⟩

theorem halt?_never (script : Script) (calls : List Call) : script.halt? .never calls = none := by
  induction script generalizing calls with
  | nil => rfl
  | cons head rest ih => exact ih _

/-! The medium after a script -/

theorem effect_eq (script : Script) (medium : Medium) :
    script.effect medium = medium.knowing (script.extend medium.size) (script.apply medium.content) := by
  induction script generalizing medium with
  | nil => exact medium.knowing_self.symm
  | cons head rest ih =>
    rw [effect, ih]
    cases medium <;> rfl

theorem size_effect (inside : script.Inside reach) (reaches : medium.Reaches reach) :
    (script.effect medium).size = script.extend medium.size := by
  induction script generalizing medium reach with
  | nil => rfl
  | cons head rest ih =>
    rw [effect, ih inside.2 (Stroke.reaches_effect inside.1 reaches), Stroke.size_effect inside.1 reaches,
      extend]

theorem reaches_effect (inside : script.Inside reach) (reaches : medium.Reaches reach) :
    (script.effect medium).Reaches (script.extend reach) := by
  induction script generalizing medium reach with
  | nil => exact reaches
  | cons head rest ih => exact ih inside.2 (Stroke.reaches_effect inside.1 reaches)

theorem length_apply {bytes : Bytes} (inside : script.Inside reach) (reaches : reach ≤ bytes.length) :
    (script.apply bytes).length = script.extend bytes.length := by
  have reached : (Medium.memory ⟨bytes⟩).Reaches reach := ⟨reaches, reaches⟩
  have same := size_effect inside reached
  rw [effect_eq] at same
  exact same

theorem effect_eq_holding (inside : script.Inside reach) (reaches : medium.Reaches reach)
    (known : medium.size = medium.content.length) :
    script.effect medium = medium.holding (script.apply medium.content) := by
  rw [effect_eq, Medium.holding, known, length_apply inside reaches.2]

theorem akin_effect (script : Script) (medium : Medium) : medium.Akin (script.effect medium) :=
  ⟨_, _, script.effect_eq medium⟩

theorem Stops.akin (stops : script.Stops medium step fault left) : medium.Akin left := by
  induction stops with
  | here step stroke rest medium fault => exact medium.akin_knowing _ _
  | later _ ih => exact (Medium.akin_knowing _ _ _).trans ih

theorem Stops.exists_split (stops : script.Stops medium step fault left) :
    ∃ front stroke rest, script = front ++ (step, stroke) :: rest ∧
      left = stroke.wreck fault (Script.effect front medium) := by
  induction stops with
  | here step stroke rest medium fault => exact ⟨[], stroke, rest, rfl, rfl⟩
  | @later earlier step done rest medium left fault _ ih =>
    obtain ⟨front, stroke, rest, rfl, left⟩ := ih
    exact ⟨(earlier, done) :: front, stroke, rest, rfl, left⟩

/-! Performing -/

/-- A plan that fails none of its steps lets a script come to its end. -/
theorem perform_of_sound (device : Device) (changeable : device.medium.Changeable)
    (inside : script.Inside reach) (reaches : device.medium.Reaches reach)
    (sound : script.halt? device.plan device.calls = none) :
    ∃ calls, script.perform device = .ok () ⟨script.effect device.medium, device.plan, calls⟩ := by
  -- Each stroke hands on a medium that can still be changed and reaches as far as it has to.
  induction script generalizing device reach with
  | nil => exact ⟨device.calls, rfl⟩
  | cons head rest ih =>
    obtain ⟨step, stroke⟩ := head
    cases faulty : device.plan device.calls stroke.call with
    | some fault => simp [halt?, faulty] at sound
    | none =>
      have ran := Stroke.run_of_sound changeable step inside.1 reaches faulty
      simp only [halt?, faulty] at sound
      obtain ⟨calls, rest⟩ := ih { device.noting stroke.call with medium := stroke.effect device.medium }
        ((Medium.akin_knowing _ _ _).changeable changeable) inside.2 (Stroke.reaches_effect inside.1 reaches)
        sound
      exact ⟨calls, by rw [perform, bind_of_ok ran, rest]; rfl⟩

/-- Otherwise the script stops at the first step that the plan fails, and names it. -/
theorem perform_of_halt (device : Device) (changeable : device.medium.Changeable)
    (inside : script.Inside reach) (reaches : device.medium.Reaches reach)
    (halts : script.halt? device.plan device.calls = some (step, fault)) :
    ∃ left calls, script.Stops device.medium step fault left ∧
      script.perform device = .error (.io step (.device (.broken fault.reason)))
        ⟨left, device.plan, calls⟩ := by
  induction script generalizing device reach with
  | nil => simp [halt?] at halts
  | cons head rest ih =>
    obtain ⟨first, stroke⟩ := head
    cases faulty : device.plan device.calls stroke.call with
    | some found =>
      simp only [halt?, faulty, Option.some.injEq, Prod.mk.injEq] at halts
      -- The plan is asked about each stroke in turn, so the first fault is this one.
      obtain ⟨rfl, rfl⟩ := halts
      have stopped := Stroke.run_of_fault changeable first inside.1 reaches faulty
      exact ⟨_, stroke.call :: device.calls, .here first stroke rest device.medium found,
        bind_of_error stopped⟩
    | none =>
      have ran := Stroke.run_of_sound changeable first inside.1 reaches faulty
      simp only [halt?, faulty] at halts
      obtain ⟨left, calls, stops, rest⟩ := ih
        { device.noting stroke.call with medium := stroke.effect device.medium }
        ((Medium.akin_knowing _ _ _).changeable changeable) inside.2 (Stroke.reaches_effect inside.1 reaches)
        halts
      exact ⟨left, calls, .later stops, by rw [perform, bind_of_ok ran, rest]; rfl⟩

theorem perform_eq_ok (device : Device) {after : Device} (changeable : device.medium.Changeable)
    (inside : script.Inside reach) (reaches : device.medium.Reaches reach)
    (performed : script.perform device = .ok () after) :
    ∃ calls, after = ⟨script.effect device.medium, device.plan, calls⟩ := by
  cases halts : script.halt? device.plan device.calls with
  | none =>
    obtain ⟨calls, same⟩ := perform_of_sound device changeable inside reaches halts
    rw [performed] at same
    cases same
    exact ⟨calls, rfl⟩
  | some halt =>
    obtain ⟨left, calls, -, failed⟩ := perform_of_halt device changeable inside reaches halts
    rw [performed] at failed
    cases failed

theorem afterwards_perform (device : Device) (changeable : device.medium.Changeable)
    (inside : script.Inside reach) (reaches : device.medium.Reaches reach) :
    ∃ left calls, left.content = script.leaves device.plan device.calls device.bytes ∧
      afterwards (script.perform device) = ⟨left, device.plan, calls⟩ := by
  induction script generalizing device reach with
  | nil => exact ⟨device.medium, device.calls, rfl, rfl⟩
  | cons head rest ih =>
    obtain ⟨step, stroke⟩ := head
    cases faulty : device.plan device.calls stroke.call with
    | some fault =>
      refine ⟨stroke.wreck fault device.medium, stroke.call :: device.calls, ?_, ?_⟩
      · rw [leaves, faulty]
        exact Medium.content_knowing _ _ _
      · rw [perform, bind_of_error (Stroke.run_of_fault changeable step inside.1 reaches faulty)]
        rfl
    | none =>
      obtain ⟨left, calls, content, rest⟩ := ih
        { device.noting stroke.call with medium := stroke.effect device.medium }
        ((Medium.akin_knowing _ _ _).changeable changeable) inside.2 (Stroke.reaches_effect inside.1 reaches)
      refine ⟨left, calls, ?_, ?_⟩
      · rw [leaves, faulty, content]
        simp only [Device.bytes, Stroke.effect, Medium.content_knowing]
        rfl
      · rw [perform, bind_of_ok (Stroke.run_of_sound changeable step inside.1 reaches faulty), rest]
        rfl

section Kept

variable {kept : Medium → Prop}

theorem effect_keeps (inside : script.Inside reach) (reaches : medium.Reaches reach)
    (keeps : ∀ entry ∈ script, entry.2.Keeps kept) (start : kept medium) : kept (script.effect medium) := by
  induction script generalizing medium reach with
  | nil => exact start
  | cons head rest ih =>
    obtain ⟨first, others⟩ := List.forall_mem_cons.mp keeps
    exact ih inside.2 (Stroke.reaches_effect inside.1 reaches) others
      (first medium reach reaches inside.1 start).1

theorem Stops.keeps (stops : script.Stops medium step fault left) (inside : script.Inside reach)
    (reaches : medium.Reaches reach) (keeps : ∀ entry ∈ script, entry.2.Keeps kept)
    (start : kept medium) : kept left := by
  induction stops generalizing reach with
  | here step stroke rest medium fault =>
    exact (keeps _ List.mem_cons_self medium reach reaches inside.1 start).2 fault
  | later _ ih =>
    obtain ⟨first, others⟩ := List.forall_mem_cons.mp keeps
    exact ih inside.2 (Stroke.reaches_effect inside.1 reaches) others
      (first _ reach reaches inside.1 start).1

/-- What every stroke keeps, a script keeps, and it changes nothing but the medium. -/
theorem perform_keeps (device : Device) (changeable : device.medium.Changeable)
    (inside : script.Inside reach) (reaches : device.medium.Reaches reach)
    (keeps : ∀ entry ∈ script, entry.2.Keeps kept) (start : kept device.medium) :
    ∃ left calls, kept left ∧ device.medium.Akin left ∧
      afterwards (script.perform device) = ⟨left, device.plan, calls⟩ := by
  cases halts : script.halt? device.plan device.calls with
  | none =>
    obtain ⟨calls, performed⟩ := perform_of_sound device changeable inside reaches halts
    exact ⟨_, calls, effect_keeps inside reaches keeps start, script.akin_effect _,
      by rw [performed, afterwards]⟩
  | some halt =>
    obtain ⟨left, calls, stops, failed⟩ := perform_of_halt device changeable inside reaches halts
    exact ⟨left, calls, stops.keeps inside reaches keeps start, stops.akin, by rw [failed, afterwards]⟩

end Kept

end Script

end AppendLog
