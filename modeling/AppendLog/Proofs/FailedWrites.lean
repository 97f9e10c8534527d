import AppendLog.Proofs.Reached

/-! Writes that fail, and the one that succeeds after them.

Whatever a failed commit and its rollback leave in the store, it lies outside of the
records, and the next commit writes over it or cuts it off. Only bytes that the medium does
not know of are not cut off, and stay where they lie behind the new footer.
-/

set_option autoImplicit false

namespace AppendLog

/-- Reads never fail; every other call may. -/
def FaultPlan.SparesReads (plan : FaultPlan) : Prop := ∀ earlier, plan earlier .read = none

namespace Log

/-- Writes in a row whose commits fail, each of them under a plan of its own. -/
inductive FailedWrites (log : Log) : Log → Prop where
  | none : FailedWrites log log
  | more {middle after : Log} {plan : FaultPlan} {now : Int} {info : Meta} {payload : Encoding}
      {error : LogError} : FailedWrites log middle →
      write now info payload (middle.underPlan plan) = .error error after → FailedCommit error →
      FailedWrites log after

variable {log after : Log} {ledger : Ledger} {body : Bytes}

theorem FailedWrites.carries (failed : FailedWrites log after) (carries : log.Carries ledger body) :
    after.Carries ledger body ∧ after.config = log.config ∧
      log.device.medium.Akin after.device.medium := by
  induction failed with
  | none => exact ⟨carries, rfl, Medium.akin_refl _⟩
  | more _ failed uncommitted ih =>
    obtain ⟨carried, config, akin⟩ := ih
    obtain ⟨again, sameConfig, further⟩ := (carried.underPlan _).write_eq_error failed uncommitted
    exact ⟨again, sameConfig.trans config, akin.trans further⟩

theorem Carries.outcome_readRaw (carries : log.Carries ledger body) {plan : FaultPlan}
    (spares : plan.SparesReads) (index : Nat) :
    outcome (readRaw index (log.underPlan plan)) = ledger.recordIn log.device.bytes index :=
  outcome_readRaw_of_fits (show (log.underPlan plan).ledger = some ledger from carries.opened)
    carries.fits carries.changeable.plain (spares _) carries.carries.reaches index

/-- A log opened on the image of one record more reads the earlier ones as before, and the
further one as what was written. -/
theorem Carries.opens_next (carries : log.Carries ledger body) {info : Meta} {data : Bytes}
    (inRange : info.InRange) {medium : Medium}
    (start : (ledger.next data.length).image (body ++ info.bytes ++ data) <+: medium.content)
    (below : medium.content.length < Footer.wordLimit) (path : Option String) (config : Config) :
    ∃ reopened device, openOn path config (.sound (medium.reopened config.readOnly)) =
        (.ok reopened, device) ∧
      reopened.ledger = some (ledger.next data.length) ∧
      (∀ index < ledger.header.totalRecords, outcome (readRaw index reopened) =
        outcome (readRaw index (log.underPlan .never))) ∧
      outcome (readRaw ledger.header.totalRecords reopened) =
        .ok ⟨ledger.header.totalRecords, ledger.header.footerOffset, info, data⟩ := by
  have fits := carries.fits
  have records := carries.carries.records
  have length := Ledger.width_add_length_next fits.room records info data
  have formed : (ledger.next data.length).WellFormed := by
    apply (fits.next carries.anchored data.length).wellFormed
    exact Nat.lt_of_le_of_lt (Ledger.length_image length ▸ start.length_le) below
  -- The earlier records are carried in front of the further one.
  have whole := Ledger.carries_of_isPrefix length start
  have tail : (ledger.next data.length).header.footerOffset =
      ledger.header.footerOffset + (info.bytes ++ data).length := by
    simp [Ledger.next, Nat.add_assoc]
  rw [List.append_assoc, tail] at whole
  obtain ⟨front, behind⟩ := whole.split (records.length fits.room)
  obtain ⟨reopened, device, opens, grown, read⟩ := openOn_reads path config medium formed
    (Ledger.liesIn_of_isPrefix length start)
  refine ⟨reopened, device, opens, grown, ?_, ?_⟩
  · intro index earlier
    rw [read, Ledger.recordIn_next_of_lt (fits.count ▸ earlier), carries.outcome_readRaw (fun _ => rfl)]
    exact Ledger.recordIn_congr fits (front.same.trans records.same.symm) index
  · rw [← tail] at behind
    rw [read, ← fits.count]
    exact Ledger.recordIn_next_self ledger inRange behind

/-- Failed commits leave the records as they are, and to the next commit that succeeds they leave
nothing but the bytes behind its log that a torn call has stored without the file knowing of it. -/
theorem failed_writes_leave_no_trace_iff (reached : Reached log) (failed : FailedWrites log after) :
    ∃ ledger, log.ledger = some ledger ∧ after.ledger = some ledger ∧
      after.device.bytes.span Header.width ledger.header.footerOffset =
        log.device.bytes.span Header.width ledger.header.footerOffset ∧
      (∀ plan : FaultPlan, plan.SparesReads → ∀ index,
        outcome (readRaw index (after.underPlan plan)) =
          outcome (readRaw index (log.underPlan .never))) ∧
      ∀ plan now info payload index final,
        write now info payload (after.underPlan plan) = .ok index final →
        ∃ direct data, write now info payload (log.underPlan .never) = .ok index direct ∧
          payload.toBytes = .ok data ∧
          (final.device.medium = direct.device.medium ↔
            after.device.medium.unseen (ledger.next data.length).stop = []) ∧
          final.device.bytes =
            direct.device.bytes ++ after.device.medium.unseen (ledger.next data.length).stop ∧
          (final.device.bytes.length < Footer.wordLimit → (info.stamp now).InRange →
            ∀ path config, ∃ reopened device,
              openOn path config (.sound (final.device.medium.reopened config.readOnly)) =
                (.ok reopened, device) ∧
              reopened.ledger = some (ledger.next data.length) ∧
              outcome (readRaw index reopened) =
                .ok ⟨index, ledger.header.footerOffset, info.stamp now, data⟩ ∧
              ∀ earlier < ledger.header.totalRecords, outcome (readRaw earlier reopened) =
                outcome (readRaw earlier (log.underPlan .never))) := by
  obtain ⟨ledger, body, carries, writable⟩ := reached.carries
  obtain ⟨carried, config, akin⟩ := failed.carries carries
  have same := carried.carries.records.same.trans carries.carries.records.same.symm
  refine ⟨ledger, carries.opened, carried.opened, same, ?_, ?_⟩
  · intro plan spares index
    rw [carried.outcome_readRaw spares, carries.outcome_readRaw (fun _ => rfl)]
    exact Ledger.recordIn_congr carries.fits same index
  · intro plan now info payload index final written
    -- A write over the wreckage and one over the sound log put the same log onto their media.
    obtain ⟨data, encoded, writes, rfl, finalMedium, -⟩ := (carried.underPlan plan).write_eq_ok written
    obtain ⟨direct, directly, directMedium⟩ := (carries.underPlan .never).write_of_sound now info
      (show log.config.readOnly = false from config ▸ writes) encoded rfl
    refine ⟨direct, data, directly, encoded, ?_, ?_, ?_⟩
    · rw [finalMedium, directMedium]
      exact Ledger.onto_eq_iff akin writable.readable _
    · rw [Device.bytes, Device.bytes, finalMedium, directMedium]
      exact Ledger.content_onto_eq writable.readable _ _
    · intro below inRange path config
      have start : (ledger.next data.length).image (body ++ (info.stamp now).bytes ++ data) <+:
          final.device.medium.content := by
        rw [finalMedium, Ledger.content_onto]
        exact List.prefix_append _ _
      obtain ⟨reopened, device, opens, grown, earlier, last⟩ :=
        carries.opens_next inRange start below path config
      exact ⟨reopened, device, opens, grown, last, earlier⟩

theorem failed_writes_leave_no_trace_of_wreck :
    let settings : FaultSettings := ⟨some 1, 9, true, false, false, false, false, false⟩
    let info : Meta := ⟨5, ⟨1, 2, 3, 4⟩, .replace⟩
    let log : Log := ⟨none, .standard, some .fresh, ⟨.memory ⟨Ledger.fresh.image []⟩, .never,
      [.sync, .write 8, .write 17, .size]⟩⟩
    ∃ wreck index final direct,
      write 0 info (.ofBytes [1, 2, 3, 4]) (log.underPlan settings.plan) =
        .error (.io .writeData (.device (.broken "disk full"))) wreck ∧
      wreck.device.medium = .memory ⟨[1, 0, 0, 0, 0, 0, 0, 0, 0, 0, 0, 0, 0, 0, 0, 0, 17,
        0, 0, 0, 0, 0, 0, 0, 5, 1, 2, 3, 4, 2, 1, 2]⟩ ∧
      write 0 info (.ofBytes [7]) (wreck.underPlan .never) = .ok index final ∧
      write 0 info (.ofBytes [7]) (log.underPlan .never) = .ok index direct ∧
      final.device.medium = direct.device.medium := by
  intro settings info log
  have reached : Reached log := .opened (Medium.writable_memory ⟨[]⟩)
    (show openOn none .standard ⟨.memory ⟨[]⟩, .never, []⟩ = (.ok log, log.device) from rfl) (.inl rfl)
  let wreck := afterwards (write 0 info (.ofBytes [1, 2, 3, 4]) (log.underPlan settings.plan))
  have fails : write 0 info (.ofBytes [1, 2, 3, 4]) (log.underPlan settings.plan) =
      .error (.io .writeData (.device (.broken "disk full"))) wreck := rfl
  have failed : FailedWrites log wreck := .more .none fails ⟨nofun, nofun⟩
  obtain ⟨ledger, body, carries, -⟩ := reached.carries
  obtain ⟨final, written, -⟩ := ((failed.carries carries).1.underPlan .never).write_of_sound 0 info
    (show wreck.config.readOnly = false from rfl)
    (show (Encoding.ofBytes [7]).toBytes = .ok [7] from rfl) rfl
  obtain ⟨_, opened, -, -, -, later⟩ := failed_writes_leave_no_trace_iff reached failed
  obtain ⟨direct, _, directly, encoded, same, -⟩ := later .never 0 info (.ofBytes [7]) _ final written
  cases opened
  cases encoded
  exact ⟨wreck, _, final, direct, fails, by decide +kernel, written, directly, same.mpr (by decide +kernel)⟩

/-- What a file has stored of a torn record behind the end that it remembers is still there once a
shorter record has been written in its place. -/
theorem failed_write_leaves_trace :
    let info : Meta := ⟨5, ⟨105, 116, 101, 109⟩, .insert⟩
    let settings : FaultSettings := ⟨some 1, 1, true, false, false, false, false, false⟩
    let medium : Medium := .file (.ofContent (Entries.image [⟨info, [7]⟩]) .readWrite)
    ∃ log wreck final direct,
      openOn none .standard (.sound medium) = (.ok log, log.device) ∧
      write 0 info (.ofBytes (List.replicate 80 9)) (log.underPlan settings.plan) =
        .error (.io .writeData (.device (.broken "disk full"))) wreck ∧
      write 0 info (.ofBytes [8]) (wreck.underPlan .never) = .ok 1 final ∧
      write 0 info (.ofBytes [8]) (log.underPlan .never) = .ok 1 direct ∧
      final.device.bytes = direct.device.bytes ++ List.replicate 15 9 := by
  intro info settings medium
  let ledger := Entries.ledger [⟨info, [7]⟩]
  have formed : ledger.WellFormed := (Entries.fits _).wellFormed (by decide)
  obtain ⟨calls, opened⟩ := openOn_of_liesIn none .standard medium formed (Entries.liesIn _)
  let log : Log := ⟨none, .standard, some ledger, ⟨medium, .never, calls⟩⟩
  obtain ⟨wreck, fails, strays⟩ : ∃ wreck,
      write 0 info (.ofBytes (List.replicate 80 9)) (log.underPlan settings.plan) =
        .error (.io .writeData (.device (.broken "disk full"))) wreck ∧
      wreck.device.medium.unseen (ledger.next [8].length).stop = List.replicate 15 9 :=
    ⟨afterwards (write 0 info (.ofBytes (List.replicate 80 9))
      ⟨none, .standard, some ledger, ⟨medium, settings.plan, []⟩⟩), rfl, by decide +kernel⟩
  have writable : medium.Writable := ⟨rfl, rfl⟩
  have reached : Reached log := .opened writable opened (.inr ⟨ledger, rfl, by decide⟩)
  obtain ⟨_, body, carries, -⟩ := reached.carries
  cases carries.opened
  obtain ⟨carried, config, -⟩ := (FailedWrites.more .none fails ⟨nofun, nofun⟩).carries carries
  -- Both writes put the same log onto their media, of which one has bytes that it does not know of.
  obtain ⟨final, written, finalMedium⟩ := (carried.underPlan .never).write_of_sound 0 info
    (show wreck.config.readOnly = false from config ▸ rfl)
    (show (Encoding.ofBytes [8]).toBytes = .ok [8] from rfl) rfl
  obtain ⟨direct, directly, directMedium⟩ := (carries.underPlan .never).write_of_sound 0 info rfl
    (show (Encoding.ofBytes [8]).toBytes = .ok [8] from rfl) rfl
  refine ⟨log, wreck, final, direct, opened, fails, written, directly, ?_⟩
  rw [Device.bytes, Device.bytes, finalMedium, directMedium]
  exact (Ledger.content_onto_eq writable.readable _ _).trans (congrArg (_ ++ ·) strays)

end Log

end AppendLog
