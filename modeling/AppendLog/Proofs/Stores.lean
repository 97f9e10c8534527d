import AppendLog.Proofs.Script

/-! Both kinds of media as one byte store.

A byte string says what a store answers to a call, and what the call makes of it. A medium in
memory and one in a file that is open for writing both do what their bytes say, so that no row of
calls tells them apart: `media_agree`.
-/

set_option autoImplicit false

namespace AppendLog

inductive StoreCall where
  | readAt (offset length : Nat)
  | writeAt (offset : Nat) (data : Bytes)
  | append (data : Bytes)
  | truncate (wanted : Nat)
  | size
  | flush
  | sync
  deriving DecidableEq, Repr

inductive StoreAnswer where
  | bytes (bytes : Bytes)
  /-- A size, or the place where something has been appended. -/
  | number (number : Nat)
  | done
  deriving DecidableEq, Repr

namespace StoreCall

def access : StoreCall → Access StoreAnswer
  | readAt offset length => .bytes <$> Device.readAt offset length
  | writeAt offset data => (fun _ => .done) <$> Device.writeAt offset data
  | append data => .number <$> Device.calling (.write data.length) (·.append data)
  | truncate wanted => (fun _ => .done) <$> Device.truncate wanted
  | size => .number <$> Device.size
  | flush => (fun _ => .done) <$> Device.flush
  | sync => (fun _ => .done) <$> Device.sync

def run : List StoreCall → Device → List (Except StorageError StoreAnswer) × Device
  | [], device => ([], device)
  | call :: rest, device =>
    let (answers, after) := run rest (afterwards (call.access device))
    (outcome (call.access device) :: answers, after)

def serve (call : StoreCall) (bytes : Bytes) : Except StorageError (StoreAnswer × Bytes) :=
  match call with
  | readAt offset length =>
    if offset + length ≤ bytes.length then .ok (.bytes (bytes.span offset (offset + length)), bytes)
    else .error (.readPastEnd offset length bytes.length)
  | writeAt offset data =>
    if offset ≤ bytes.length then .ok (.done, bytes.overlay offset data)
    else .error (.writePastEnd offset bytes.length)
  | append data => .ok (.number bytes.length, bytes ++ data)
  | truncate wanted =>
    if wanted ≤ bytes.length then .ok (.done, bytes.take wanted)
    else .error (.truncateBeyondEnd wanted bytes.length)
  | size => .ok (.number bytes.length, bytes)
  | flush | sync => .ok (.done, bytes)

def replay : List StoreCall → Bytes → List (Except StorageError StoreAnswer) × Bytes
  | [], bytes => ([], bytes)
  | call :: rest, bytes =>
    match call.serve bytes with
    | .ok (answer, after) =>
      let (answers, last) := replay rest after
      (.ok answer :: answers, last)
    | .error error =>
      let (answers, last) := replay rest bytes
      (.error error :: answers, last)

/-- The call has come to what bytes answer, and has changed nothing else than them. -/
def Served (device : Device) (served : Except StorageError (StoreAnswer × Bytes))
    (result : EStateM.Result StorageError Device StoreAnswer) : Prop :=
  ∃ calls, result =
    match served with
    | .ok (answer, bytes) => .ok answer ⟨device.medium.holding bytes, device.plan, calls⟩
    | .error error => .error error ⟨device.medium, device.plan, calls⟩

variable {device : Device}

theorem calling_serves {α : Type} (sound : device.plan = .never) {call : Call}
    {run : Medium → Except StorageError (α × Medium)} {convert : α → StoreAnswer}
    {served : Except StorageError (StoreAnswer × Bytes)}
    (same : (run device.medium).map (fun (value, medium) => (convert value, medium)) =
      served.map (fun (answer, bytes) => (answer, device.medium.holding bytes))) :
    Served device served ((convert <$> Device.calling call run) device) := by
  have unfailed : device.fault? call = none := by
    rw [Device.fault?, sound]
    rfl
  refine ⟨call :: device.calls, ?_⟩
  simp only [Functor.map, EStateM.map, Device.calling, unfailed]
  cases served with
  | error error =>
    cases ran : run device.medium with
    | error other =>
      rw [ran] at same
      cases same
      rfl
    | ok result =>
      rw [ran] at same
      cases same
  | ok result =>
    cases ran : run device.medium with
    | error error =>
      rw [ran] at same
      cases same
    | ok other =>
      rw [ran] at same
      simp only [Except.map, Except.ok.injEq, Prod.mk.injEq] at same
      simp only [same]
      rfl

theorem access_serves (writable : device.medium.Writable) (sound : device.plan = .never)
    (call : StoreCall) : Served device (call.serve device.bytes) (call.access device) := by
  have unchanged : device.medium.holding device.medium.content = device.medium :=
    Medium.holding_content writable.readable
  cases call with
  | readAt offset length =>
    apply calling_serves sound
    rw [Medium.readAt_eq writable.readable, serve, Device.bytes]
    split
    · simp only [Except.map, unchanged]
      rfl
    · rfl
  | writeAt offset data =>
    simp only [access, Functor.map, EStateM.map, Device.writeAt, Device.changing_of_sound sound]
    apply calling_serves sound
    rw [serve, Device.bytes]
    by_cases inside : offset ≤ device.medium.content.length
    · rw [if_pos inside, Medium.writeAt_eq writable inside]
      rfl
    · rw [if_neg inside, Medium.writeAt_of_outside writable.readable (Nat.not_le.mp inside)]
      rfl
  | append data =>
    apply calling_serves sound
    have filled := Medium.writeAt_eq writable (Nat.le_refl _) data
    rw [Bytes.overlay_length] at filled
    rw [serve, Device.bytes, Medium.append, writable.1, filled]
    rfl
  | truncate wanted =>
    simp only [access, Functor.map, EStateM.map, Device.truncate, Device.changing_of_sound sound]
    apply calling_serves sound
    rw [serve, Device.bytes]
    by_cases inside : wanted ≤ device.medium.content.length
    · rw [if_pos inside, Medium.truncate_eq writable inside]
      rfl
    · rw [if_neg inside, Medium.truncate_of_outside writable.readable (Nat.not_le.mp inside)]
      rfl
  | size =>
    apply calling_serves sound
    rw [serve, Device.bytes, writable.1]
    simp only [Except.map, unchanged]
    rfl
  | flush =>
    apply calling_serves sound
    simp only [serve, Device.bytes, Except.map, unchanged]
    rfl
  | sync =>
    apply calling_serves sound
    simp only [serve, Device.bytes, Except.map, unchanged]
    rfl

theorem run_serves (calls : List StoreCall) (device : Device) (writable : device.medium.Writable)
    (sound : device.plan = .never) :
    ∃ noted, run calls device =
      ((replay calls device.bytes).1,
        ⟨device.medium.holding (replay calls device.bytes).2, device.plan, noted⟩) := by
  -- A store that serves a call is writable afterwards, and its plan is the one that never fails.
  induction calls generalizing device with
  | nil =>
    refine ⟨device.calls, ?_⟩
    rw [replay, Device.bytes, Medium.holding_content writable.readable]
    rfl
  | cons call rest ih =>
    obtain ⟨calls, ran⟩ := access_serves writable sound call
    rw [run, ran, replay]
    cases served : call.serve device.bytes with
    | ok result =>
      obtain ⟨answer, bytes⟩ := result
      obtain ⟨noted, others⟩ :=
        ih ⟨device.medium.holding bytes, device.plan, calls⟩ (writable.holding bytes) sound
      refine ⟨noted, ?_⟩
      simp only [afterwards, outcome, others, Device.bytes, Medium.content_holding,
        Medium.holding_holding]
    | error error =>
      obtain ⟨noted, others⟩ := ih ⟨device.medium, device.plan, calls⟩ writable sound
      refine ⟨noted, ?_⟩
      simp only [afterwards, outcome, others]
      rfl

/-- What holds of every store, whatever it is made of. -/
structure Lawful (device : Device) (call : StoreCall) : Prop where
  /-- The size that the medium goes by is the number of its bytes. -/
  size_eq : device.medium.size = device.bytes.length
  /-- A call that fails changes nothing. -/
  unchanged : ∀ error, outcome (call.access device) = .error error →
    (afterwards (call.access device)).medium = device.medium
  /-- A write changes its own span and no others, and leaves no gap in front of it. -/
  written : ∀ offset data answer, call = .writeAt offset data →
    outcome (call.access device) = .ok answer →
      offset ≤ device.bytes.length ∧
      (afterwards (call.access device)).bytes.length =
        max device.bytes.length (offset + data.length) ∧
      ∀ index, (afterwards (call.access device)).bytes[index]? =
        if offset ≤ index ∧ index < offset + data.length then data[index - offset]?
        else device.bytes[index]?

theorem lawful (writable : device.medium.Writable) (sound : device.plan = .never)
    (call : StoreCall) : Lawful device call := by
  obtain ⟨calls, ran⟩ := access_serves writable sound call
  refine ⟨writable.1, ?_, ?_⟩
  · intro error failed
    cases served : call.serve device.bytes with
    | error other => rw [ran, served, afterwards]
    | ok result =>
      rw [ran, served] at failed
      cases failed
  · rintro offset data answer rfl succeeded
    by_cases inside : offset ≤ device.bytes.length
    · have served : (writeAt offset data).serve device.bytes =
          .ok (.done, device.bytes.overlay offset data) := if_pos inside
      rw [ran, served]
      simp only [afterwards, Device.bytes, Medium.content_holding]
      exact ⟨inside, Bytes.length_overlay inside data, Bytes.getElem?_overlay inside data⟩
    · have served : (writeAt offset data).serve device.bytes =
          .error (.writePastEnd offset device.bytes.length) := if_neg inside
      rw [ran, served] at succeeded
      cases succeeded

/-- On the same bytes, the same calls get the same answers from a store in memory as from one in a file
and leave the same bytes, and both stores obey the same laws. -/
theorem media_agree (content : Bytes) (calls : List StoreCall) :
    let memory := run calls (.sound (.memory ⟨content⟩))
    let file := run calls (.sound (.file (.ofContent content .readWrite)))
    file.1 = memory.1 ∧
    (∃ bytes, memory.2.medium = .memory ⟨bytes⟩ ∧
      file.2.medium = .file (.ofContent bytes .readWrite)) ∧
    ∀ call, Lawful memory.2 call ∧ Lawful file.2 call := by
  intro memory file
  let inMemory := Device.sound (.memory ⟨content⟩)
  let inFile := Device.sound (.file (.ofContent content .readWrite))
  have memoryWritable : inMemory.medium.Writable := Medium.writable_memory _
  have fileWritable : inFile.medium.Writable := ⟨rfl, rfl⟩
  obtain ⟨noted, served⟩ := run_serves calls inMemory memoryWritable rfl
  obtain ⟨noted', served'⟩ := run_serves calls inFile fileWritable rfl
  have memoryRun : memory = _ := served
  have fileRun : file = _ := served'
  rw [memoryRun, fileRun]
  refine ⟨rfl, ⟨(replay calls content).2, rfl, rfl⟩, fun call => ⟨?_, ?_⟩⟩
  · exact lawful (memoryWritable.holding _) rfl call
  · exact lawful (fileWritable.holding _) rfl call

end StoreCall

end AppendLog
