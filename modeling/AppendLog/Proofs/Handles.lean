import AppendLog.Proofs.Commit

/-! What opening a log and writing to it come to.

An empty medium becomes the image of a log without records, and any other one is opened
if a well-formed ledger lies in it. A write is a commit with the access behind it that
makes the record durable.
-/

set_option autoImplicit false

namespace AppendLog

namespace Config

variable (config : Config)

def securing : Step := if config.syncOnWrite then .sync else .flush

/-- The access behind a commit, that makes the record durable or hands it on. -/
def secure : Action Unit :=
  if config.syncOnWrite then Step.sync.run Device.sync else Step.flush.run Device.flush

theorem secure_cases (device : Device) :
    (∃ calls, config.secure device = .ok () ⟨device.medium, device.plan, calls⟩) ∨
    ∃ source calls, config.secure device =
      .error (.io config.securing source) ⟨device.medium, device.plan, calls⟩ := by
  cases syncs : config.syncOnWrite with
  | false =>
    simp only [secure, securing, syncs, Bool.false_eq_true, if_false]
    cases faulty : device.fault? .flush with
    | none => exact .inl ⟨_, adaptExcept_of_ok (by rw [Device.flush, Device.calling_eq rfl, faulty]; rfl)⟩
    | some fault =>
      exact .inr ⟨_, _, adaptExcept_of_error (by rw [Device.flush, Device.calling_eq rfl, faulty]; rfl)⟩
  | true =>
    simp only [secure, securing, syncs, if_true]
    cases faulty : device.fault? .sync with
    | none => exact .inl ⟨_, adaptExcept_of_ok (by rw [Device.sync, Device.calling_eq rfl, faulty]; rfl)⟩
    | some fault =>
      exact .inr ⟨_, _, adaptExcept_of_error (by rw [Device.sync, Device.calling_eq rfl, faulty]; rfl)⟩

theorem secure_of_sound (device : Device) (sound : device.plan = .never) :
    ∃ calls, config.secure device = .ok () ⟨device.medium, device.plan, calls⟩ := by
  have never (call : Call) : device.fault? call = none := by
    rw [Device.fault?, sound]
    rfl
  unfold secure
  cases config.syncOnWrite with
  | false =>
    exact ⟨_, adaptExcept_of_ok (by rw [Device.flush, Device.calling_eq rfl, never]; rfl)⟩
  | true => exact ⟨_, adaptExcept_of_ok (by rw [Device.sync, Device.calling_eq rfl, never]; rfl)⟩

end Config

namespace Log

variable {config : Config} {after : Device} {ledger : Ledger} (device : Device)

/-! Opening -/

theorem openLedger_of_empty (writable : device.medium.Writable) (empty : device.bytes = [])
    (sound : device.plan = .never) (writes : config.readOnly = false) :
    ∃ calls, openLedger config device =
      .ok Ledger.fresh ⟨device.medium.holding (Ledger.fresh.image []), device.plan, calls⟩ := by
  have measured := (Device.run_size_eq_ok .readSize writable.readable).mpr
    ⟨show device.fault? .size = none by rw [Device.fault?, sound]; rfl, rfl, rfl⟩
  have never : Ledger.createScript.halt? (device.noting .size).plan (device.noting .size).calls = none := by
    rw [Device.plan_noting, sound, Script.halt?_never]
  obtain ⟨calls, created⟩ := Script.perform_of_sound (device.noting .size) writable.2
    Ledger.createScript_inside (Medium.reaches_zero _) never
  rw [Device.medium_noting, Ledger.createScript_effect writable empty] at created
  refine ⟨calls, ?_⟩
  rw [openLedger, bind_of_ok measured, empty, writes]
  simp only [List.length_nil, if_true, Bool.false_eq_true, if_false, Ledger.create_eq]
  exact bind_of_ok created

theorem openLedger_of_empty_readOnly (readable : device.medium.Readable) (empty : device.bytes = [])
    (sound : device.plan = .never) (readOnly : config.readOnly = true) :
    openLedger config device = .error (.invalidFormat .noHeader) (device.noting .size) := by
  have measured := (Device.run_size_eq_ok .readSize readable).mpr
    ⟨show device.fault? .size = none by rw [Device.fault?, sound]; rfl, rfl, rfl⟩
  rw [openLedger, bind_of_ok measured, empty, readOnly]
  rfl

theorem openLedger_of_liesIn (config : Config) (readable : device.medium.Readable)
    (sound : device.plan = .never) (formed : ledger.WellFormed) (lies : ledger.LiesIn device.bytes) :
    ∃ calls, openLedger config device = .ok ledger ⟨device.medium, device.plan, calls⟩ := by
  have measured := (Device.run_size_eq_ok .readSize readable).mpr
    ⟨show device.fault? .size = none by rw [Device.fault?, sound]; rfl, rfl, rfl⟩
  have some : device.bytes.length ≠ 0 := by
    have length := lies.1.length_le
    rw [Header.length_bytes, Header.width] at length
    omega
  obtain ⟨calls, loaded⟩ :=
    Ledger.load_of_liesIn (device.noting .size) readable sound formed lies
  refine ⟨calls, ?_⟩
  rw [openLedger, bind_of_ok measured, if_neg some, loaded]
  rfl

theorem openLedger_cases {device : Device} (opened : openLedger config device = .ok ledger after) :
    device.medium.size = 0 ∧ Ledger.create (device.noting .size) = .ok ledger after ∨
      device.medium.size ≠ 0 ∧ Ledger.load (device.noting .size) = .ok ledger after := by
  obtain ⟨size, middle, measured, opened⟩ := bind_eq_ok.mp opened
  obtain ⟨-, rfl, rfl⟩ := (Device.run_size_eq_ok_iff .readSize).mp measured
  split at opened
  · case isTrue empty =>
    -- Under a read-only configuration nothing is created, and nothing opened.
    cases readOnly : config.readOnly with
    | false => exact .inl ⟨empty, by simpa [readOnly] using opened⟩
    | true => simp [readOnly, bind, EStateM.bind] at opened
  · case isFalse some => exact .inr ⟨some, opened⟩

theorem openLedger_of_nonempty {device : Device} (readable : device.medium.Readable)
    (nonempty : device.bytes ≠ []) (opened : openLedger config device = .ok ledger after) :
    ledger.WellFormed ∧ ledger.LiesIn device.bytes ∧ after.medium = device.medium ∧
      after.plan = device.plan := by
  rcases openLedger_cases opened with ⟨empty, -⟩ | ⟨-, loaded⟩
  · rw [readable.1] at empty
    exact absurd (List.length_eq_zero_iff.mp empty) nonempty
  · exact Ledger.load_eq_ok (device.noting .size) readable loaded

theorem openLedger_eq_ok {device : Device} (writable : device.medium.Writable)
    (opened : openLedger config device = .ok ledger after) :
    after.plan = device.plan ∧
      (device.bytes = [] ∧ ledger = Ledger.fresh ∧
        after.medium = device.medium.holding (Ledger.fresh.image []) ∨
      device.bytes ≠ [] ∧ ledger.WellFormed ∧ ledger.LiesIn device.bytes ∧
        after.medium = device.medium) := by
  rcases openLedger_cases opened with ⟨empty, created⟩ | ⟨some, -⟩
  · rw [writable.1] at empty
    have start : device.bytes = [] := List.length_eq_zero_iff.mp empty
    rw [Ledger.create_eq] at created
    obtain ⟨_, done, performed, returned⟩ := bind_eq_ok.mp created
    cases returned
    obtain ⟨calls, rfl⟩ := Script.perform_eq_ok (device.noting .size) writable.2
      Ledger.createScript_inside (Medium.reaches_zero _) performed
    exact ⟨rfl, .inl ⟨start, rfl, Ledger.createScript_effect writable start⟩⟩
  · rw [writable.1] at some
    have start : device.bytes ≠ [] := mt List.length_eq_zero_iff.mpr some
    obtain ⟨formed, lies, medium, plan⟩ := openLedger_of_nonempty writable.readable start opened
    exact ⟨plan, .inr ⟨start, formed, lies, medium⟩⟩

theorem openOn_eq_ok_iff {path : Option String} {start : Device} {log : Log} :
    openOn path config start = (.ok log, after) ↔
      ∃ ledger, openLedger config start = .ok ledger after ∧ log = ⟨path, config, some ledger, after⟩ := by
  rw [openOn]
  cases openLedger config start with
  | error error left => simp
  | ok ledger left =>
    constructor
    · intro same
      cases same
      exact ⟨ledger, rfl, rfl⟩
    · rintro ⟨_, same, rfl⟩
      cases same
      rfl

theorem openOn_of_liesIn (path : Option String) (config : Config) (medium : Medium)
    (formed : ledger.WellFormed) (lies : ledger.LiesIn medium.content) :
    ∃ calls, openOn path config (.sound (medium.reopened config.readOnly)) =
      (.ok ⟨path, config, some ledger, ⟨medium.reopened config.readOnly, .never, calls⟩⟩,
        ⟨medium.reopened config.readOnly, .never, calls⟩) := by
  obtain ⟨calls, opened⟩ := openLedger_of_liesIn (.sound (medium.reopened config.readOnly)) config
    (Medium.readable_reopened _ _) rfl formed
    (by rwa [Device.bytes, Device.sound, Medium.content_reopened])
  exact ⟨calls, by rw [openOn, opened]; rfl⟩

theorem openOn_eq_ok {medium : Medium} (nonempty : medium.content ≠ []) {path : Option String}
    {config : Config} {opened : Log} {device : Device}
    (opens : openOn path config (.sound (medium.reopened config.readOnly)) = (.ok opened, device)) :
    ∃ ledger, opened.ledger = some ledger ∧ ledger.WellFormed ∧ ledger.LiesIn medium.content ∧
      opened.device.medium = medium.reopened config.readOnly ∧ opened.device.plan = .never := by
  obtain ⟨ledger, loaded, rfl⟩ := openOn_eq_ok_iff.mp opens
  have bytes : (Device.sound (medium.reopened config.readOnly)).bytes = medium.content :=
    Medium.content_reopened _ _
  obtain ⟨formed, lies, same, plan⟩ :=
    openLedger_of_nonempty (Medium.readable_reopened _ _) (bytes ▸ nonempty) loaded
  exact ⟨ledger, rfl, formed, bytes ▸ lies, same, plan⟩

/-! Writing -/

variable {log : Log} {info : Meta} {payload : Encoding} {data : Bytes} {now : Int}

theorem write_of_readOnly (readOnly : log.config.readOnly = true) :
    write now info payload log = .error .readOnly log := by
  simp only [write, bind, EStateM.bind, run_get, readOnly, if_true, run_throw]

theorem write_of_not_encoded {error : CodecError} (writes : log.config.readOnly = false)
    (failed : payload.toBytes = .error error) :
    write now info payload log = .error (.codec error) log := by
  simp only [write, bind, EStateM.bind, run_get, writes, Bool.false_eq_true, if_false, failed,
    run_throw]

theorem write_of_closed (writes : log.config.readOnly = false) (encoded : payload.toBytes = .ok data)
    (closed : log.ledger = none) : write now info payload log = .error .closed log := by
  simp only [write, Log.opened, bind, EStateM.bind, run_get, writes, Bool.false_eq_true, if_false, encoded,
    run_pure, closed, run_throw]

/-- A write is turned down and leaves the log as it was, or it is one that commits, as `write_eq` has it. -/
theorem write_cases (now : Int) (info : Meta) (payload : Encoding) (log : Log) :
    (∃ error, write now info payload log = .error error log) ∨
      ∃ ledger data, log.ledger = some ledger ∧ log.config.readOnly = false ∧ payload.toBytes = .ok data := by
  cases readOnly : log.config.readOnly with
  | true => exact .inl ⟨_, write_of_readOnly readOnly⟩
  | false =>
    cases encoded : payload.toBytes with
    | error error => exact .inl ⟨_, write_of_not_encoded readOnly encoded⟩
    | ok data =>
      cases held : log.ledger with
      | none => exact .inl ⟨_, write_of_closed readOnly encoded held⟩
      | some ledger => exact .inr ⟨ledger, data, rfl, rfl, rfl⟩

theorem write_eq (opened : log.ledger = some ledger) (writes : log.config.readOnly = false)
    (encoded : payload.toBytes = .ok data) : write now info payload log =
      match ledger.commit (info.stamp now).bytes data log.device with
      | .error error device => .error error { log with device }
      | .ok next device =>
        match log.config.secure device with
        | .ok _ device => .ok ledger.header.totalRecords { log with ledger := some next, device }
        | .error error device => .error error { log with ledger := some next, device } := by
  simp only [write, Log.opened, act, encoded, bind, EStateM.bind, run_get, writes, Bool.false_eq_true,
    if_false, opened, run_pure, run_modify]
  cases ledger.commit (info.stamp now).bytes data log.device with
  | error error device => rfl
  | ok next device =>
    simp only [Config.secure]
    cases log.config.syncOnWrite with
    | true =>
      simp only [if_true, EStateM.bind, act]
      cases Step.sync.run Device.sync device <;> rfl
    | false =>
      simp only [Bool.false_eq_true, if_false, EStateM.bind, act]
      cases Step.flush.run Device.flush device <;> rfl

theorem write_of_sound (now : Int) (info : Meta) (opened : log.ledger = some ledger)
    (writes : log.config.readOnly = false) (encoded : payload.toBytes = .ok data)
    (sound : log.device.plan = .never) (changeable : log.device.medium.Changeable)
    (room : Header.width ≤ ledger.header.footerOffset)
    (reaches : log.device.medium.Reaches ledger.header.footerOffset) :
    ∃ calls, write now info payload log = .ok ledger.header.totalRecords { log with
      ledger := some (ledger.next data.length)
      device := ⟨(ledger.next data.length).onto
        (log.device.bytes.span Header.width ledger.header.footerOffset ++ (info.stamp now).bytes ++ data)
        log.device.medium, log.device.plan, calls⟩ } := by
  obtain ⟨earlier, committed⟩ := Ledger.commit_of_sound data changeable room reaches
    (info.stamp now).length_bytes (by rw [sound, Script.halt?_never])
  obtain ⟨calls, secured⟩ := log.config.secure_of_sound
    ⟨(ledger.next data.length).onto
      (log.device.bytes.span Header.width ledger.header.footerOffset ++ (info.stamp now).bytes ++ data)
      log.device.medium, log.device.plan, earlier⟩ sound
  refine ⟨calls, ?_⟩
  rw [write_eq opened writes encoded, committed]
  simp only [secured]

theorem write_of_writable {body : Bytes} (now : Int) (info : Meta) (opened : log.ledger = some ledger)
    (writes : log.config.readOnly = false) (encoded : payload.toBytes = .ok data)
    (sound : log.device.plan = .never) (writable : log.device.medium.Writable)
    (room : Header.width ≤ ledger.header.footerOffset)
    (records : Bytes.Carries body ledger.header.footerOffset log.device.bytes) :
    ∃ calls, write now info payload log = .ok ledger.header.totalRecords { log with
      ledger := some (ledger.next data.length)
      device := ⟨log.device.medium.holding ((ledger.next data.length).image
        (body ++ (info.stamp now).bytes ++ data)), log.device.plan, calls⟩ } := by
  have length := Ledger.width_add_length_next room records (info.stamp now) data
  obtain ⟨calls, written⟩ := write_of_sound now info opened writes encoded sound writable.2 room
    (writable.readable.reaches records.reaches)
  rw [records.same, Ledger.onto_of_readable writable.readable length] at written
  exact ⟨calls, written⟩

end Log

end AppendLog
