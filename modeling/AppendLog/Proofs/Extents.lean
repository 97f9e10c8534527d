import AppendLog.Proofs.Bookkeeping
import AppendLog.Proofs.Words

/-! How far a medium reaches.

Nothing is assumed of the storage here. A part that has been read was there, a part that has been
written is there, and nothing is cut off in front of the end of the committed log, whatever fails. So a
log that has been opened ends on its medium for as long as it is used. With that the arithmetic in words
is that of numbers, on every image and on every handle: `words_suffice`.
-/

set_option autoImplicit false

namespace AppendLog

namespace Medium

variable {medium after : Medium} {offset length : Nat} {bytes data : Bytes}

theorem inside_of_readAt (read : medium.readAt offset length = .ok bytes) :
    offset + length ≤ medium.size := by
  cases medium with
  | memory m =>
    simp only [readAt, Memory.readAt] at read
    split at read
    · assumption
    · cases read
  | file f =>
    simp only [readAt, OpenFile.readAt] at read
    split at read
    · cases read
    · exact Nat.not_lt.mp ‹_›

theorem size_of_writeAt (written : medium.writeAt offset data = .ok after) :
    medium.size ≤ after.size ∧ (data ≠ [] → offset + data.length ≤ after.size) := by
  cases medium with
  | memory m =>
    simp only [writeAt, Memory.writeAt] at written
    split at written
    · case isTrue inside =>
      cases written
      simp only [size, Memory.size, List.length_append, List.length_take, List.length_drop] at inside ⊢
      omega
    · cases written
  | file f =>
    simp only [writeAt, OpenFile.writeAt] at written
    split at written
    · cases written
    · split at written
      · case isTrue empty =>
        cases written
        exact ⟨Nat.le_refl _, fun some => absurd (List.isEmpty_iff.mp empty) some⟩
      · split at written
        · cases written
          exact ⟨Nat.le_max_left _ _, fun _ => Nat.le_max_right _ _⟩
        · cases written

theorem size_of_truncate {wanted : Nat} (cut : medium.truncate wanted = .ok after) : after.size = wanted := by
  cases medium with
  | memory m =>
    simp only [truncate, Memory.truncate] at cut
    split at cut
    · case isTrue inside =>
      cases cut
      exact List.length_take_of_le inside
    · cases cut
  | file f =>
    simp only [truncate, OpenFile.truncate] at cut
    split at cut
    · cases cut
    · split at cut <;> cases cut
      rfl

theorem size_eq_of_writeAt_memory {m : Memory} (written : (memory m).writeAt offset data = .ok after) :
    after.size = after.content.length := by
  cases ran : m.writeAt offset data with
  | error error => simp [writeAt, ran, bind, Except.bind] at written
  | ok left =>
    simp only [writeAt, ran] at written
    cases written
    rfl

theorem size_eq_of_truncate_memory {m : Memory} {wanted : Nat}
    (cut : (memory m).truncate wanted = .ok after) : after.size = after.content.length := by
  cases ran : m.truncate wanted with
  | error error => simp [truncate, ran, bind, Except.bind] at cut
  | ok left =>
    simp only [truncate, ran] at cut
    cases cut
    rfl

end Medium

def Device.Keeps (size : Nat) (device after : Device) : Prop :=
  size ≤ device.medium.size → size ≤ after.medium.size

section Keeps

variable {ε α β : Type} {size : Nat} {operation : EStateM ε Device α} {next : α → EStateM ε Device β}

theorem keeps_bind (first : Leaves (Device.Keeps size) operation)
    (second : ∀ value, Leaves (Device.Keeps size) (next value)) :
    Leaves (Device.Keeps size) (operation >>= next) :=
  first.bind (fun one two => two ∘ one) second

theorem keeps_pure (value : α) : Leaves (Device.Keeps size) (pure value : EStateM ε Device α) :=
  leaves_pure (fun _ => id) value

theorem Inspects.keeps (inspects : Inspects operation) (size : Nat) :
    Leaves (Device.Keeps size) operation := by
  intro device reaches
  obtain ⟨calls, left⟩ := inspects device
  rw [left]
  exact reaches

end Keeps

namespace Device

variable {α : Type} {device after : Device} {offset length size stop : Nat} {bytes data : Bytes}

section calling

variable {call : Call} {run : Medium → Except StorageError (α × Medium)}

theorem calling_eq_ok {value : α} (ran : calling call run device = .ok value after) :
    run device.medium = .ok (value, after.medium) := by
  simp only [calling] at ran
  split at ran
  · cases ran
  · split at ran
    · case h_1 found =>
      cases ran
      exact found
    · cases ran

theorem keeps_calling (keeps : ∀ medium value after, run medium = .ok (value, after) →
    size ≤ medium.size → size ≤ after.size) : Leaves (Keeps size) (calling call run) := by
  intro device reaches
  simp only [calling]
  split
  · exact reaches
  · split
    · case h_1 found => exact keeps _ _ _ found reaches
    · exact reaches

end calling

section changing

variable {call : Call} {part : Nat → Medium → Except StorageError Medium}
  {whole : Medium → Except StorageError Medium}

theorem changing_eq_ok (ran : changing call part whole device = .ok () after) :
    whole device.medium = .ok after.medium := by
  simp only [changing] at ran
  split at ran
  · split at ran <;> cases ran
  · have found := calling_eq_ok ran
    cases done : whole device.medium with
    | ok left =>
      rw [done] at found
      cases found
      rfl
    | error error =>
      rw [done] at found
      cases found

/-- A torn call may make memory smaller, and leaves a file with the size that it has remembered. -/
theorem keeps_changing
    (partly : ∀ kept m left, part kept (.memory m) = .ok left → size ≤ m.size → size ≤ left.content.length)
    (wholly : ∀ medium left, whole medium = .ok left → size ≤ medium.size → size ≤ left.size) :
    Leaves (Keeps size) (changing call part whole) := by
  intro device reaches
  simp only [changing]
  split
  · split
    · case h_1 left torn =>
      cases held : device.medium with
      | memory m =>
        rw [held] at torn reaches
        exact partly _ m left torn reaches
      | file f =>
        rw [held] at reaches
        exact reaches
    · exact reaches
  · refine keeps_calling (fun medium _ after ran reaches => ?_) device reaches
    cases done : whole medium with
    | ok left =>
      rw [done] at ran
      cases ran
      exact wholly _ _ done reaches
    | error error =>
      rw [done] at ran
      cases ran

end changing

theorem inside_of_readAt (read : readAt offset length device = .ok bytes after) :
    offset + length ≤ device.medium.size := by
  have found := calling_eq_ok read
  cases ran : device.medium.readAt offset length with
  | ok bytes => exact Medium.inside_of_readAt ran
  | error error =>
    rw [ran] at found
    cases found

theorem keeps_writeAt (size offset : Nat) (data : Bytes) : Leaves (Keeps size) (writeAt offset data) := by
  refine keeps_changing (fun _ _ _ written reaches => ?_) fun _ _ written reaches =>
    Nat.le_trans reaches (Medium.size_of_writeAt written).1
  rw [← Medium.size_eq_of_writeAt_memory written]
  exact Nat.le_trans reaches (Medium.size_of_writeAt written).1

theorem reaches_of_writeAt (written : writeAt offset data device = .ok () after) (some : data ≠ []) :
    offset + data.length ≤ after.medium.size :=
  (Medium.size_of_writeAt (changing_eq_ok written)).2 some

theorem keeps_truncate (behind : size ≤ stop) : Leaves (Keeps size) (truncate stop) := by
  refine keeps_changing (fun _ _ _ cut _ => ?_) fun _ _ cut _ => ?_
  · rwa [← Medium.size_eq_of_truncate_memory cut, Medium.size_of_truncate cut]
  · rwa [Medium.size_of_truncate cut]

end Device

theorem Inspects.medium_eq {ε α : Type} {operation : EStateM ε Device α} (inspects : Inspects operation)
    {device after : Device} {value : α} (ran : operation device = .ok value after) :
    after.medium = device.medium := by
  obtain ⟨calls, left⟩ := inspects device
  rw [ran] at left
  have same := congrArg Device.medium left
  exact same

theorem Footer.bytes_ne_nil (footer : Footer) : footer.bytes ≠ [] := by
  rw [bytes_eq]
  exact List.cons_ne_nil _ _

namespace Step

variable {step : Step} {device after : Device} {offset length : Nat} {bytes data : Bytes}

theorem inside_of_read (read : step.run (Device.readAt offset length) device = .ok bytes after) :
    offset + length ≤ device.medium.size ∧ after.medium = device.medium :=
  have read := adaptExcept_eq_ok.mp read
  ⟨Device.inside_of_readAt read, (Device.inspects_readAt offset length).medium_eq read⟩

theorem keeps_write (step : Step) (size offset : Nat) (data : Bytes) :
    Leaves (Device.Keeps size) (step.run (Device.writeAt offset data)) :=
  (Device.keeps_writeAt size offset data).adaptExcept _

theorem reaches_of_write (written : step.run (Device.writeAt offset data) device = .ok () after)
    (some : data ≠ []) : offset + data.length ≤ after.medium.size :=
  Device.reaches_of_writeAt (adaptExcept_eq_ok.mp written) some

end Step

namespace Ledger

variable {ledger : Ledger} {device after : Device} {size stop : Nat} {info data : Bytes}

/-! Opening -/

theorem reaches_of_loadFooter {header : Header} {footer : Footer}
    (loaded : loadFooter header device = .ok footer after) :
    header.footerOffset + footer.encodedLength ≤ device.medium.size := by
  have length := (Footer.validate_eq_ok.mp (valid_of_loadFooter loaded)).1
  obtain ⟨_, first, readCount, loaded⟩ := bind_eq_ok.mp loaded
  obtain ⟨count, _, decodes, loaded⟩ := bind_eq_ok.mp loaded
  obtain ⟨_, second, validates, loaded⟩ := bind_eq_ok.mp loaded
  obtain ⟨_, _, readEntries, -⟩ := bind_eq_ok.mp loaded
  obtain ⟨-, rfl⟩ := ofDecoded_eq_ok.mp decodes
  obtain ⟨valid, rfl⟩ := ofValidated_eq_ok.mp validates
  obtain ⟨-, same⟩ := Step.inside_of_read readCount
  have inside := (Step.inside_of_read readEntries).1
  rw [same, (validateCount_eq_ok.mp valid).1, ← length] at inside
  rwa [Footer.encodedLength, Nat.mul_comm, ← Nat.add_assoc]

theorem within_of_loaded {header : Header} {footer : Footer} {middle : Device}
    (headerLoaded : loadHeader device = .ok header middle)
    (footerLoaded : loadFooter header middle = .ok footer after) :
    Ledger.Within ⟨header, footer⟩ device.medium.size where
  count := (Footer.validate_eq_ok.mp (valid_of_loadFooter footerLoaded)).1
  room := (Header.validate_eq_ok.mp (valid_of_loadHeader headerLoaded)).2
  reaches := inspects_loadHeader.medium_eq headerLoaded ▸ reaches_of_loadFooter footerLoaded

theorem within_of_load (loaded : load device = .ok ledger after) : ledger.Within after.medium.size := by
  rw [inspects_load.medium_eq loaded]
  obtain ⟨header, middle, headerLoaded, loaded⟩ := bind_eq_ok.mp loaded
  obtain ⟨footer, _, footerLoaded, loaded⟩ := bind_eq_ok.mp loaded
  obtain ⟨_, _, -, returned⟩ := bind_eq_ok.mp loaded
  cases returned
  exact within_of_loaded headerLoaded footerLoaded

theorem loadFooterInWords_eq (header : Header) (short : device.medium.size < Footer.wordLimit) :
    loadFooterInWords header device = inWords (loadFooter header) device := by
  refine inWords_bind_of rfl fun countBytes middle read => ?_
  -- The count has been read, so the word behind it is not behind the medium.
  have fits : header.footerOffset + Footer.countWidth < Footer.wordLimit :=
    Nat.lt_of_le_of_lt (Step.inside_of_read read).1 short
  simp only [Word.add_eq fits, pure_bind, inWords_bind]
  rfl

theorem loadInWords_eq (short : device.medium.size < Footer.wordLimit) :
    loadInWords device = inWords load device := by
  refine inWords_bind_of rfl fun header middle headerLoaded => ?_
  have same := inspects_loadHeader.medium_eq headerLoaded
  refine inWords_bind_of (loadFooterInWords_eq header (same ▸ short)) fun footer _ footerLoaded => ?_
  have within := within_of_loaded headerLoaded footerLoaded
  refine inWords_bind_of rfl fun size _ _ => ?_
  rw [stopInWords_eq within short, pure_bind]
  by_cases orphans : Ledger.stop ⟨header, footer⟩ < size
  · rw [if_pos orphans, Word.sub_eq (Nat.le_of_lt orphans)]
    rfl
  · rw [if_neg orphans]
    rfl

theorem within_of_create (created : create device = .ok ledger after) :
    ledger.Within after.medium.size := by
  obtain rfl := eq_fresh_of_create created
  obtain ⟨_, _, -, created⟩ := bind_eq_ok.mp created
  obtain ⟨_, middle, wroteFooter, created⟩ := bind_eq_ok.mp created
  obtain ⟨_, _, synced, returned⟩ := bind_eq_ok.mp created
  cases returned
  refine ⟨fits_fresh.count, fits_fresh.room, ?_⟩
  rw [(Device.inspects_sync.adaptExcept _).medium_eq synced]
  exact Step.reaches_of_write wroteFooter fresh.footer.bytes_ne_nil

/-! Writing -/

theorem keeps_trim (behind : size ≤ stop) : Leaves (Device.Keeps size) (trim stop) := by
  refine keeps_bind ((Device.inspects_size.adaptExcept _).keeps size) fun found => ?_
  split
  · exact (Device.keeps_truncate behind).adaptExcept _
  · exact keeps_pure ()

theorem keeps_writeRecord (info : Bytes) (behind : size ≤ (ledger.next data.length).stop) :
    Leaves (Device.Keeps size) (ledger.writeRecord info data) :=
  keeps_bind (Step.keeps_write _ _ _ _) fun _ => keeps_bind (Step.keeps_write _ _ _ _) fun _ =>
    keeps_bind (Step.keeps_write _ _ _ _) fun _ => keeps_bind (keeps_trim behind) fun _ => Step.keeps_write _ _ _ _

theorem keeps_restore (behind : size ≤ ledger.stop) : Leaves (Device.Keeps size) ledger.restore :=
  keeps_bind (keeps_bind (Step.keeps_write _ _ _ _) fun _ => Step.keeps_write _ _ _ _) fun _ => keeps_trim behind

theorem reaches_of_writeRecord (written : ledger.writeRecord info data device = .ok () after) :
    (ledger.next data.length).stop ≤ after.medium.size := by
  obtain ⟨_, _, -, written⟩ := bind_eq_ok.mp written
  obtain ⟨_, _, -, written⟩ := bind_eq_ok.mp written
  obtain ⟨_, whole, wroteFooter, written⟩ := bind_eq_ok.mp written
  obtain ⟨_, cut, trimmed, wroteHeader⟩ := bind_eq_ok.mp written
  have stands := Step.reaches_of_write wroteFooter (Footer.bytes_ne_nil _)
  rw [Footer.length_bytes] at stands
  have kept := keeps_trim (Nat.le_refl (ledger.next data.length).stop) whole stands
  rw [trimmed] at kept
  have keptToo := Step.keeps_write .writeHeader _ 0 (ledger.next data.length).header.bytes cut kept
  rwa [wroteHeader] at keptToo

theorem Within.next {later payload : Nat} (within : ledger.Within size)
    (reaches : (ledger.next payload).stop ≤ later) : (ledger.next payload).Within later :=
  ⟨count_next within.count payload, Nat.le_add_right_of_le (Nat.le_add_right_of_le within.room), reaches⟩

theorem within_of_commit (within : ledger.Within device.medium.size) :
    (∀ next after, ledger.commit info data device = .ok next after → next.Within after.medium.size) ∧
    ∀ error after, ledger.commit info data device = .error error after → ledger.Within after.medium.size := by
  have behind : ledger.stop ≤ (ledger.next data.length).stop := by
    rw [stop_next]
    omega
  have kept := keeps_writeRecord info behind device within.reaches
  unfold commit
  cases written : ledger.writeRecord info data device with
  | ok _ left =>
    refine ⟨fun next after same => ?_, fun _ _ impossible => by cases impossible⟩
    cases same
    exact within.next (reaches_of_writeRecord written)
  | error error left =>
    refine ⟨fun _ _ impossible => (by cases impossible), fun _ after same => ?_⟩
    cases same
    rw [written] at kept
    have restored := keeps_restore (Nat.le_refl ledger.stop) left kept
    refine ⟨within.count, within.room, ?_⟩
    rw [rollBack]
    cases ran : ledger.restore left with
    | ok | error =>
      rw [ran] at restored
      exact restored

end Ledger

namespace Log

variable {log : Log} {config : Config} {device after : Device} {ledger : Ledger}

theorem openLedgerInWords_eq (config : Config) (short : device.medium.size < Footer.wordLimit) :
    openLedgerInWords config device = inWords (openLedger config) device := by
  refine inWords_bind_of rfl fun size middle measured => ?_
  split
  · cases config.readOnly <;> rfl
  · rw [← (Device.inspects_size.adaptExcept _).medium_eq measured] at short
    exact Ledger.loadInWords_eq short

theorem within_of_openLedger (opens : openLedger config device = .ok ledger after) :
    ledger.Within after.medium.size := by
  rcases openLedger_cases opens with ⟨-, created⟩ | ⟨-, loaded⟩
  · exact Ledger.within_of_create created
  · exact Ledger.within_of_load loaded

/-! Handles -/

theorem Backed.of_within (held : log.ledger = some ledger) (within : ledger.Within log.device.medium.size) :
    log.Backed := by
  intro found same
  cases held.symm.trans same
  exact within

theorem Backed.of_closed (closed : log.ledger = none) : log.Backed := by
  intro ledger held
  cases closed.symm.trans held

theorem Backed.of_observed {after : Log} (backed : log.Backed) (observed : log.Observed after) :
    after.Backed := by
  obtain ⟨calls, rfl⟩ := observed
  exact backed

theorem Backed.write (backed : log.Backed) (now : Int) (info : Meta) (payload : Encoding) :
    (afterwards (write now info payload log)).Backed := by
  rcases write_cases now info payload log with ⟨error, refused⟩ | ⟨ledger, data, held, writes, encoded⟩
  · rw [refused]
    exact backed
  · rw [write_eq held writes encoded]
    obtain ⟨committed, undone⟩ := Ledger.within_of_commit (backed ledger held)
    cases ran : ledger.commit (info.stamp now).bytes data log.device with
    | error error device => exact .of_within held (undone error device ran)
    | ok next device =>
      have within := committed next device ran
      dsimp only
      rcases log.config.secure_cases device with ⟨calls, secured⟩ | ⟨source, calls, failed⟩
      · rw [secured]
        exact .of_within rfl within
      · rw [failed]
        exact .of_within rfl within

/-- Whatever is done to a log and whatever fails, it ends on its medium. -/
theorem Backed.perform {α : Type} (backed : log.Backed) (operation : Operation α) :
    (afterwards (operation.perform log)).Backed := by
  cases operation with
  | write now info payload => exact backed.write now info payload
  | sync => exact backed.of_observed (sync_leaves_observed log)
  | close =>
    obtain ⟨calls, left⟩ := afterwards_close log
    exact .of_closed (congrArg Log.ledger left)
  | readRaw | read | readAll | iterate | header | footer | length | isEmpty | stats =>
    exact backed.of_observed (query_leaves_observed (by exact trivial) log)

/-- A handle on whatever has been opened as a log, after any operations, each with its own faults. -/
inductive Obtained : Log → Prop where
  | opened {path : Option String} {config : Config} {start device : Device} {log : Log} :
      openOn path config start = (.ok log, device) → Obtained log
  | performed {α : Type} {log : Log} (operation : Operation α) (plan : FaultPlan) : Obtained log →
      Obtained (afterwards (operation.perform (log.underPlan plan)))

theorem Obtained.backed (obtained : log.Obtained) : log.Backed := by
  induction obtained with
  | opened opens =>
    obtain ⟨ledger, loaded, rfl⟩ := openOn_eq_ok_iff.mp opens
    exact .of_within rfl (within_of_openLedger loaded)
  | @performed _ log operation plan _ ih =>
    have backed : (log.underPlan plan).Backed := ih
    exact backed.perform operation

end Log

/-- On media with fewer than `2 ^ 63` bytes, what is about to be written included, opening anything, and
doing anything to a handle that has been obtained from it, comes to the same in words as in numbers: no
sum, product or difference that is not checked is out of the range of a word. -/
theorem words_suffice :
    (∀ config (device : Device), device.medium.size < 2 ^ 63 →
      Log.openLedgerInWords config device = inWords (Log.openLedger config) device) ∧
    ∀ log : Log, log.Obtained → ∀ plan : FaultPlan,
      (∀ {α : Type} (operation : Operation α),
        log.device.medium.size + operation.payloadLength < 2 ^ 63 →
        operation.performInWords (log.underPlan plan) = inWords operation.perform (log.underPlan plan)) ∧
      ∀ showOffsets, log.device.medium.size < 2 ^ 63 →
        Command.inspectInWords showOffsets (log.underPlan plan) =
          inWords (do
            let inspection ← Command.inspect showOffsets
            return (inspection, inspection.recordBytes)) (log.underPlan plan) := by
  refine ⟨fun config device short => ?_, fun log obtained plan => ?_⟩
  · exact Log.openLedgerInWords_eq config (Nat.lt_trans short (by decide))
  · have backed : (log.underPlan plan).Backed := obtained.backed
    exact ⟨fun operation room => operation.performInWords_eq backed room,
      fun showOffsets short => Log.inspect_sameInWords showOffsets _ ⟨backed, short⟩⟩

/-- A footer that is said to be at the last of all offsets, and a log with its first write. -/
theorem words_suffice_of_two_images :
    let astray : Device := .sound (.memory ⟨Header.bytes ⟨1, 0, Footer.wordLimit - 1⟩⟩)
    let info : Meta := ⟨5, ⟨1, 2, 3, 4⟩, .replace⟩
    let log : Log := ⟨none, .standard, some .fresh, ⟨.memory ⟨Ledger.fresh.image []⟩, .never,
      [.sync, .write 8, .write 17, .size]⟩⟩
    let write : Operation Nat := .write 0 info (.ofBytes [7])
    let read : Operation Record := .readRaw (Footer.wordLimit - 1)
    (astray.medium.size < 2 ^ 63 ∧ Log.openLedgerInWords .standard astray =
      .error (.failed (.io .readFooter (.readPastEnd (Footer.wordLimit - 1) 8 17))) ⟨astray.medium, .never,
        [.read, .read, .size]⟩) ∧
    log.Obtained ∧ log.device.medium.size + write.payloadLength < 2 ^ 63 ∧
    (∃ after, write.performInWords (log.underPlan .never) = .ok 0 after) ∧
    (∃ after, read.performInWords (log.underPlan .never) =
      .error (.failed (.recordOutOfRange (Footer.wordLimit - 1) 0)) after) := by
  intro astray info log write read
  have opens : Log.openOn none .standard (.sound (.memory ⟨[]⟩)) = (.ok log, log.device) := rfl
  have obtained : log.Obtained := .opened opens
  obtain ⟨opening, handles⟩ := words_suffice
  obtain ⟨performing, -⟩ := handles log obtained .never
  have small : astray.medium.size < 2 ^ 63 := by decide
  have room : log.device.medium.size + write.payloadLength < 2 ^ 63 := by decide
  refine ⟨⟨small, ?_⟩, obtained, room, ?_, ?_⟩
  · rw [opening .standard astray small]
    rfl
  · rw [performing write room]
    exact ⟨_, rfl⟩
  · rw [performing read (by decide)]
    exact ⟨_, rfl⟩

end AppendLog
