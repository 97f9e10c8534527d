import AppendLog.Proofs.Entries
import AppendLog.Proofs.Session

/-! Handles that have been opened and written to.

A handle carries its records if its medium reaches as far as the footer offset, and holds
them between the header and there; nothing is said about the header, nor about what
lies from the footer offset on or whether that is known of. Opening gives such a handle,
and every write leaves one: with one record more if it succeeds, and with the same ones
if its commit fails.
-/

set_option autoImplicit false

namespace AppendLog.Log

/-- A handle whose ledger places those bytes between header and footer. -/
structure Carries (log : Log) (ledger : Ledger) (body : Bytes) : Prop where
  opened : log.ledger = some ledger
  changeable : log.device.medium.Changeable
  fits : ledger.Fits
  anchored : ledger.Anchored
  carries : log.device.medium.Carries body ledger.header.footerOffset

/-- A handle on a medium that was empty or had a record when it was opened, after any number of
successful writes. -/
inductive Reached : Log → Prop where
  | opened {path : Option String} {config : Config} {start device : Device} {log : Log} :
      start.medium.Writable → openOn path config start = (.ok log, device) →
      (start.bytes = [] ∨ ∃ ledger, log.ledger = some ledger ∧ 0 < ledger.header.totalRecords) →
      Reached log
  | written {log after : Log} {plan : FaultPlan} {now : Int} {info : Meta} {payload : Encoding}
      {index : Nat} : Reached log → write now info payload (log.underPlan plan) = .ok index after →
      Reached after

/-- The step in which the commit of a write or the access behind it has failed is not that access. -/
def FailedCommit (error : LogError) : Prop :=
  error.step? ≠ some .sync ∧ error.step? ≠ some .flush

variable {log after : Log} {ledger : Ledger} {body : Bytes} {now : Int} {info : Meta}
  {payload : Encoding}

theorem Carries.underPlan (carries : log.Carries ledger body) (plan : FaultPlan) :
    (log.underPlan plan).Carries ledger body :=
  ⟨carries.opened, carries.changeable, carries.fits, carries.anchored, carries.carries⟩

theorem write_eq_ok (opened : log.ledger = some ledger) (changeable : log.device.medium.Changeable)
    (room : Header.width ≤ ledger.header.footerOffset)
    (records : log.device.medium.Carries body ledger.header.footerOffset) {index : Nat}
    (written : write now info payload log = .ok index after) :
    ∃ data, payload.toBytes = .ok data ∧ log.config.readOnly = false ∧
      index = ledger.header.totalRecords ∧ after.ledger = some (ledger.next data.length) ∧
      after.device.medium =
        (ledger.next data.length).onto (body ++ (info.stamp now).bytes ++ data) log.device.medium := by
  rcases write_cases now info payload log with ⟨error, refused⟩ | ⟨_, data, held, writes, encoded⟩
  · cases refused.symm.trans written
  · cases opened.symm.trans held
    rw [Log.write_eq opened writes encoded] at written
    cases committed : ledger.commit (info.stamp now).bytes data log.device with
    | error error device => rw [committed] at written; cases written
    | ok next device =>
      obtain ⟨rfl, calls, rfl⟩ := Ledger.commit_eq_ok changeable room records.reaches
        (info.stamp now).length_bytes committed
      rw [committed, Device.bytes, records.records.same] at written
      -- Whether the record is made durable or handed on, the medium stays as it is.
      rcases log.config.secure_cases
          ⟨(ledger.next data.length).onto (body ++ (info.stamp now).bytes ++ data) log.device.medium,
          log.device.plan, calls⟩ with ⟨calls, secured⟩ | ⟨source, calls, failed⟩
      · simp only [secured] at written
        cases written
        exact ⟨data, encoded, writes, rfl, rfl, rfl⟩
      · simp only [failed] at written
        cases written

theorem Carries.write_eq_ok (carries : log.Carries ledger body) {index : Nat}
    (written : write now info payload log = .ok index after) :
    ∃ data, payload.toBytes = .ok data ∧ log.config.readOnly = false ∧
      index = ledger.header.totalRecords ∧
      after.device.medium =
        (ledger.next data.length).onto (body ++ (info.stamp now).bytes ++ data) log.device.medium ∧
      after.Carries (ledger.next data.length) (body ++ (info.stamp now).bytes ++ data) := by
  obtain ⟨opened, changeable, fits, anchored, records⟩ := carries
  obtain ⟨data, encoded, writes, rfl, grown, medium⟩ :=
    Log.write_eq_ok opened changeable fits.room records written
  refine ⟨data, encoded, writes, rfl, medium, grown,
    medium ▸ (Ledger.akin_onto _ _ _).changeable changeable,
    fits.next anchored _, Ledger.anchored_next _ _, ?_⟩
  rw [medium]
  exact Ledger.onto_carries (Ledger.width_add_length_next fits.room records.records _ data) _

theorem Carries.write_of_sound (carries : log.Carries ledger body) (now : Int) (info : Meta)
    (writes : log.config.readOnly = false) {data : Bytes} (encoded : payload.toBytes = .ok data)
    (sound : log.device.plan = .never) :
    ∃ after, write now info payload log = .ok ledger.header.totalRecords after ∧
      after.device.medium =
        (ledger.next data.length).onto (body ++ (info.stamp now).bytes ++ data) log.device.medium := by
  obtain ⟨calls, written⟩ := Log.write_of_sound now info carries.opened writes encoded sound
    carries.changeable carries.fits.room carries.carries.reaches
  exact ⟨_, written, by rw [Device.bytes, carries.carries.records.same]⟩

theorem Carries.write_eq_error (carries : log.Carries ledger body) {error : LogError}
    (failed : write now info payload log = .error error after) (uncommitted : FailedCommit error) :
    after.Carries ledger body ∧ after.config = log.config ∧
      log.device.medium.Akin after.device.medium := by
  rcases write_cases now info payload log with ⟨error, refused⟩ | ⟨_, data, held, writes, encoded⟩
  · cases refused.symm.trans failed
    exact ⟨carries, rfl, Medium.akin_refl _⟩
  · obtain ⟨opened, changeable, fits, anchored, records⟩ := carries
    cases opened.symm.trans held
    rw [write_eq opened writes encoded] at failed
    cases committed : ledger.commit (info.stamp now).bytes data log.device with
    | error error device =>
      obtain ⟨left, calls, kept, akin, rfl⟩ := Ledger.commit_eq_error changeable fits.room
        (info.stamp now).length_bytes records committed
      rw [committed] at failed
      cases failed
      exact ⟨⟨opened, akin.changeable changeable, fits, anchored, kept⟩, rfl, akin⟩
    | ok next device =>
      rw [committed] at failed
      rcases log.config.secure_cases device with ⟨calls, secured⟩ | ⟨source, calls, insecure⟩
      · simp only [secured] at failed
        cases failed
      · -- The commit has succeeded, so the error would be that of the access behind it.
        simp only [insecure] at failed
        cases failed
        unfold FailedCommit Config.securing at uncommitted
        cases syncs : log.config.syncOnWrite <;> simp [syncs, LogError.step?] at uncommitted

/-- Opening a medium that can be written to gives a handle that carries what lies between header
and footer. Only a ledger without records may fail to be anchored. -/
theorem carries_of_openOn {path : Option String} {config : Config} {start device : Device}
    (writable : start.medium.Writable) (opened : openOn path config start = (.ok log, device)) :
    ∃ ledger body, log.ledger = some ledger ∧ log.device.medium.Writable ∧ ledger.Fits ∧
      Bytes.Carries body ledger.header.footerOffset log.device.bytes ∧
      (start.bytes = [] ∨ 0 < ledger.header.totalRecords → ledger.Anchored) := by
  obtain ⟨ledger, loaded, rfl⟩ := openOn_eq_ok_iff.mp opened
  obtain ⟨-, ⟨empty, rfl, medium⟩ | ⟨nonempty, formed, lies, medium⟩⟩ :=
    openLedger_eq_ok writable loaded
  · refine ⟨_, [], rfl, medium ▸ writable.holding _, Entries.fits [], ?_, fun _ _ => rfl⟩
    rw [Device.bytes, show device.medium = _ from medium, Medium.content_holding]
    exact Ledger.image_carries rfl
  · refine ⟨_, _, rfl, medium ▸ writable, formed.toFits, ⟨?_, rfl⟩, ?_⟩
    · rw [Device.bytes, show device.medium = _ from medium]
      exact Nat.le_trans (Nat.le_add_right _ _) lies.stop_le
    -- A log with records has an offset, and the first one is known.
    · rintro (empty | records) none
      · exact absurd empty nonempty
      · have count := formed.count
        rw [Footer.length, none] at count
        exact absurd records (by simp [← count])

/-- Whatever has been opened lies in the bytes that its medium has by then, and these are the ones
that were found on it unless it was empty. -/
theorem openOn_lies {medium : Medium} {path : Option String} {config : Config} {device : Device}
    (opens : openOn path config (.sound (medium.reopened config.readOnly)) = (.ok log, device)) :
    ∃ ledger, log.ledger = some ledger ∧ ledger.WellFormed ∧ ledger.LiesIn log.device.bytes ∧
      log.device.medium.Readable ∧ log.device.plan = .never ∧
      (medium.content ≠ [] → log.device.bytes = medium.content) := by
  by_cases nonempty : medium.content ≠ []
  · obtain ⟨ledger, held, formed, lies, same, sound⟩ := openOn_eq_ok nonempty opens
    have bytes : log.device.bytes = medium.content := by
      rw [Device.bytes, same, Medium.content_reopened]
    exact ⟨ledger, held, formed, bytes ▸ lies, same ▸ Medium.readable_reopened _ _, sound, fun _ => bytes⟩
  · have empty : (Device.sound (medium.reopened config.readOnly)).bytes = [] := by
      rw [Device.bytes, Device.sound, Medium.content_reopened, Decidable.not_not.mp nonempty]
    cases readOnly : config.readOnly with
    | true =>
      rw [openOn, openLedger_of_empty_readOnly _ (Medium.readable_reopened _ _) empty rfl readOnly] at opens
      cases opens
    | false =>
      have writable : (medium.reopened config.readOnly).Writable := readOnly ▸ Medium.writable_reopened medium
      obtain ⟨calls, created⟩ := openLedger_of_empty _ writable empty rfl readOnly
      rw [openOn, created] at opens
      cases opens
      refine ⟨_, rfl, (Entries.fits []).wellFormed (by decide), ?_, (writable.holding _).readable, rfl,
        fun some => absurd some nonempty⟩
      rw [Device.bytes, Medium.content_holding]
      exact Entries.liesIn []

theorem Reached.carries (reached : Reached log) :
    ∃ ledger body, log.Carries ledger body ∧ log.device.medium.Writable := by
  induction reached with
  | @opened path config start device log writable opened some =>
    obtain ⟨ledger, body, same, stillWritable, fits, records, anchored⟩ :=
      carries_of_openOn writable opened
    refine ⟨ledger, body, ⟨same, stillWritable.2, fits, anchored ?_,
      stillWritable.readable.carries records⟩, stillWritable⟩
    rcases some with empty | ⟨_, found, records⟩
    · exact .inl empty
    · rw [same] at found
      cases found
      exact .inr records
  | @written log after plan now info payload index _ written ih =>
    obtain ⟨ledger, body, carries, writable⟩ := ih
    obtain ⟨data, -, -, -, medium, carried⟩ := (carries.underPlan _).write_eq_ok written
    have length := Ledger.width_add_length_next carries.fits.room carries.carries.records (info.stamp now) data
    refine ⟨_, _, carried, ?_⟩
    rw [medium, underPlan, Device.underPlan, Ledger.onto_of_readable writable.readable length]
    exact writable.holding _

end AppendLog.Log
