import AppendLog.Proofs.FailedWrites

/-! Whether a log opens again after it has been written to.

Opening checks that the records lie end to end from the header on. A log without records
has none to check, so its footer may start anywhere behind the header; the first record
written to it then starts there, and is refused when the log is opened once more unless
the footer had stood right behind the header: `write_reopens_iff`.
-/

set_option autoImplicit false

namespace AppendLog

namespace Ledger

variable {ledger : Ledger}

theorem load_of_misfit (device : Device) (readable : device.medium.Readable)
    (sound : device.plan = .never) (bounded : ledger.header.Bounded)
    (valid : ledger.header.validate = .ok ()) (count : ledger.footer.length = ledger.header.totalRecords)
    (few : ledger.footer.length * Footer.entryWidth < Footer.wordLimit)
    (below : ∀ offset ∈ ledger.footer.offsets, offset < Footer.wordLimit)
    (lies : ledger.LiesIn device.bytes) {error : LogError}
    (misfit : ledger.footer.validate ledger.header = .error error) :
    ∃ calls, load device = .error error ⟨device.medium, device.plan, calls⟩ := by
  have never (earlier : List Call) (call : Call) : device.plan earlier call = none := by
    rw [sound]
    rfl
  have header := (loadHeader_eq_ok readable).mpr
    ⟨never _ _, bounded, Header.validate_eq_ok.mp valid, lies.1, rfl⟩
  have footer : loadFooter ledger.header (device.noting .read) =
      .error error (((device.noting .read).noting .read).noting .read) := by
    have checked := loadFooter_of_isPrefix (show (device.noting .read).medium.Readable from readable)
      (never _ _) (never _ _) count few below lies.2
    rw [checked, misfit]
    rfl
  exact ⟨_, by rw [load, bind_of_ok header, bind_of_error footer]; rfl⟩

/-- The footer of a first record that starts anywhere but right behind the header is refused. -/
theorem Fits.validate_next (fits : ledger.Fits) (empty : ledger.header.totalRecords = 0)
    (elsewhere : ledger.header.footerOffset ≠ Header.width) (payload : Nat) :
    (ledger.next payload).footer.validate (ledger.next payload).header =
      .error (.invalidFormat (.firstRecordElsewhere ledger.header.footerOffset)) := by
  have none : ledger.footer.offsets = [] := List.length_eq_zero_iff.mp (fits.count.trans empty)
  simp [Footer.validate, Ledger.next, Footer.push, Footer.length, none, empty, elsewhere]

end Ledger

namespace Log

variable {log after : Log} {ledger : Ledger} {body : Bytes} {now : Int} {info : Meta}
  {payload : Encoding}

/-- However the medium is opened again, its log has one record more than the handle: the earlier
ones are read as through the handle, and the last one as what has been added. -/
def Extends (log : Log) (ledger : Ledger) (info : Meta) (data : Bytes) (medium : Medium) : Prop :=
  ∀ path config, ∃ reopened device next,
    openOn path config (.sound (medium.reopened config.readOnly)) = (.ok reopened, device) ∧
    reopened.ledger = some next ∧ next.header.totalRecords = ledger.header.totalRecords + 1 ∧
    (∀ index < ledger.header.totalRecords, outcome (readRaw index reopened) =
      outcome (readRaw index (log.underPlan .never))) ∧
    outcome (readRaw ledger.header.totalRecords reopened) =
      .ok ⟨ledger.header.totalRecords, ledger.header.footerOffset, info, data⟩

theorem Carries.extends (carries : log.Carries ledger body) {data : Bytes} (inRange : info.InRange)
    {medium : Medium}
    (content : medium.content = (ledger.next data.length).image (body ++ info.bytes ++ data))
    (below : medium.content.length < Footer.wordLimit) : log.Extends ledger info data medium := by
  intro path config
  have start : (ledger.next data.length).image (body ++ info.bytes ++ data) <+: medium.content :=
    content ▸ List.prefix_rfl
  obtain ⟨reopened, device, opens, grown, earlier, last⟩ := carries.opens_next inRange start below path config
  exact ⟨reopened, device, ledger.next data.length, opens, grown, rfl, earlier, last⟩

theorem openOn_of_elsewhere (fits : ledger.Fits)
    (records : Bytes.Carries body ledger.header.footerOffset log.device.bytes)
    (empty : ledger.header.totalRecords = 0) (elsewhere : ledger.header.footerOffset ≠ Header.width)
    {data : Bytes} {medium : Medium}
    (content : medium.content = (ledger.next data.length).image (body ++ info.bytes ++ data))
    (below : medium.content.length < Footer.wordLimit) (path : Option String) (config : Config) :
    ∃ device, openOn path config (.sound (medium.reopened config.readOnly)) =
      (.error (.invalidFormat (.firstRecordElsewhere ledger.header.footerOffset)), device) := by
  have length := Ledger.width_add_length_next fits.room records info data
  have stop : (ledger.next data.length).stop < Footer.wordLimit := by
    rwa [content, Ledger.length_image length] at below
  have none : ledger.footer.offsets = [] := List.length_eq_zero_iff.mp (fits.count.trans empty)
  have readable := medium.readable_reopened config.readOnly
  have bytes : (Device.sound (medium.reopened config.readOnly)).bytes = medium.content :=
    medium.content_reopened config.readOnly
  have lies : (ledger.next data.length).LiesIn medium.content := content ▸ Ledger.image_liesIn length
  have measured := (Device.run_size_eq_ok .readSize readable).mpr
    ⟨show (Device.sound (medium.reopened config.readOnly)).fault? .size = Option.none from rfl, rfl, rfl⟩
  have some : (Device.sound (medium.reopened config.readOnly)).bytes.length ≠ 0 := by
    have front := lies.1.length_le
    rw [Header.length_bytes, Header.width] at front
    rw [bytes]
    omega
  have offset : ledger.header.footerOffset < Footer.wordLimit := by
    rw [Ledger.stop] at stop
    simp only [Ledger.next] at stop
    omega
  -- All but the place of the first record is as it has to be.
  obtain ⟨calls, refused⟩ := Ledger.load_of_misfit
    ((Device.sound (medium.reopened config.readOnly)).noting .size) readable rfl
    ⟨by simp [Ledger.next, empty, Footer.wordLimit], Nat.lt_of_le_of_lt (Nat.le_add_right _ _) stop⟩
    (Header.validate_eq_ok.mpr ⟨fits.version,
      Nat.le_trans fits.room (Nat.le_trans (Nat.le_add_right _ _) (Nat.le_add_right _ _))⟩)
    (by simp [Ledger.next, Footer.push, Footer.length, none, empty])
    (by simp [Ledger.next, Footer.push, Footer.length, none, Footer.entryWidth, Footer.wordLimit])
    (by simpa [Ledger.next, Footer.push, none] using offset)
    (by rwa [Device.bytes_noting, bytes]) (fits.validate_next empty elsewhere data.length)
  refine ⟨⟨medium.reopened config.readOnly, .never, calls⟩, ?_⟩
  rw [openOn, openLedger, bind_of_ok measured, if_neg some, refused]
  rfl

/-- After a write, the log opens again and shows the record behind the earlier ones, unless there
were none and its footer did not stand right behind the header; then it is never opened again. -/
theorem write_reopens_iff {path : Option String} {config : Config} {start device : Device}
    {plan : FaultPlan} {index : Nat} (writable : start.medium.Writable)
    (opened : openOn path config start = (.ok log, device))
    (written : write now info payload (log.underPlan plan) = .ok index after)
    (below : after.device.bytes.length < Footer.wordLimit) (inRange : (info.stamp now).InRange) :
    ∃ ledger data, log.ledger = some ledger ∧ payload.toBytes = .ok data ∧
      index = ledger.header.totalRecords ∧
      (log.Extends ledger (info.stamp now) data after.device.medium ↔
        0 < ledger.header.totalRecords ∨ ledger.header.footerOffset = Header.width) ∧
      (ledger.header.totalRecords = 0 → ledger.header.footerOffset ≠ Header.width →
        ∀ path config, ∃ device,
          openOn path config (.sound (after.device.medium.reopened config.readOnly)) =
            (.error (.invalidFormat (.firstRecordElsewhere ledger.header.footerOffset)), device)) := by
  obtain ⟨ledger, body, same, stillWritable, fits, records, -⟩ := carries_of_openOn writable opened
  obtain ⟨data, encoded, -, rfl, -, medium⟩ := write_eq_ok
    (show (log.underPlan plan).ledger = some ledger from same) stillWritable.2 fits.room
    (stillWritable.readable.carries records) written
  have content : after.device.medium.content =
      (ledger.next data.length).image (body ++ (info.stamp now).bytes ++ data) := by
    rw [medium, underPlan, Device.underPlan, Ledger.onto_of_readable stillWritable.readable
      (Ledger.width_add_length_next fits.room records (info.stamp now) data), Medium.content_holding]
  have contentBelow : after.device.medium.content.length < Footer.wordLimit := below
  have refused (empty : ledger.header.totalRecords = 0)
      (elsewhere : ledger.header.footerOffset ≠ Header.width) (path : Option String) (config : Config) :=
    openOn_of_elsewhere fits records empty elsewhere content contentBelow path config
  refine ⟨ledger, data, same, encoded, rfl, ⟨?_, ?_⟩, refused⟩
  · intro grows
    by_contra misplaced
    obtain ⟨empty, elsewhere⟩ := not_or.mp misplaced
    obtain ⟨reopened, _, _, opens, -⟩ := grows none .standard
    obtain ⟨_, fails⟩ := refused (Nat.eq_zero_of_not_pos empty) elsewhere none .standard
    rw [opens] at fails
    cases fails
  · intro placed
    have anchored : ledger.Anchored := by
      intro empty
      rcases placed with records | behind
      · rw [← fits.count, Footer.length, empty] at records
        cases records
      · exact behind
    exact Carries.extends ⟨same, stillWritable.2, fits, anchored, stillWritable.readable.carries records⟩
      inRange content contentBelow

theorem write_reopens_in_front_of_strays :
    let info : Meta := ⟨5, ⟨105, 116, 101, 109⟩, .update⟩
    ∃ log device after,
      openOn none .standard (.sound (.memory ⟨Ledger.fresh.image [] ++ [9, 9]⟩)) = (.ok log, device) ∧
      write 0 info (.ofBytes [1, 2]) (log.underPlan .never) = .ok 0 after ∧
      log.Extends .fresh info [1, 2] after.device.medium := by
  intro info
  let medium : Medium := .memory ⟨Ledger.fresh.image [] ++ [9, 9]⟩
  let log : Log := ⟨none, .standard, some .fresh, ⟨medium, .never, [.size, .read, .read, .read, .size]⟩⟩
  let after := afterwards (write 0 info (.ofBytes [1, 2]) (log.underPlan .never))
  have opened : openOn none .standard (.sound medium) = (.ok log, log.device) := rfl
  have written : write 0 info (.ofBytes [1, 2]) (log.underPlan .never) = .ok 0 after := rfl
  obtain ⟨_, data, same, encoded, -, reopens, -⟩ :=
    write_reopens_iff (Medium.writable_memory _) opened written (by decide) (by decide)
  cases same
  cases encoded
  exact ⟨log, log.device, after, opened, written, reopens.mpr (.inr rfl)⟩

/-- A log without records whose footer stands one byte behind its header opens and takes a record,
and does not open again. -/
theorem write_not_reopened :
    let info : Meta := ⟨5, ⟨105, 116, 101, 109⟩, .insert⟩
    let medium : Medium := .memory ⟨Ledger.image ⟨⟨1, 0, 18⟩, ⟨[]⟩⟩ [0]⟩
    ∃ log device after, openOn none .standard (.sound medium) = (.ok log, device) ∧
      write 0 info (.ofBytes [7]) log = .ok 0 after ∧
      ∃ left, openOn none .standard (.sound (after.device.medium.reopened false)) =
        (.error (.invalidFormat (.firstRecordElsewhere 18)), left) := by
  exact ⟨_, _, _, rfl, rfl, _, rfl⟩

end Log

end AppendLog
