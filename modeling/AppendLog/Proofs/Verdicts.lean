import AppendLog.Command.Run
import AppendLog.Proofs.Reached
import AppendLog.Proofs.ReadOnly
import AppendLog.Proofs.Walking

/-! What verifying and dumping say of the same log.

Both go over the readings of all records. Verifying stops at the first one that is not right, and
dumping at the first one that cannot be read, so that neither sees what is behind the error with
which the walk ends.
-/

set_option autoImplicit false

namespace AppendLog.Command

def Holds (shape : Option Shape) (reading : Reading) : Prop :=
  ∃ record, reading = .ok record ∧ ∀ form ∈ shape, ∃ value cursor,
    form.decode (.ofBytes record.data) = .ok value cursor ∧ cursor.rest = []

def Listing.Clean (listing : Listing) : Prop := ∀ error, listing.payload ≠ some (.error error)

variable {shape : Option Shape}

/-! One record -/

theorem payloadValue_eq_ok {form : Shape} {record : Record} {value : Value} :
    payloadValue form record = .ok value ↔
      ∃ cursor, form.decode (.ofBytes record.data) = .ok value cursor ∧ cursor.rest = [] :=
  Decoding.fromBytes_eq_ok

theorem holds_ok {record : Record} : Holds shape (.ok record) ↔
    ∀ form ∈ shape, ∃ value, payloadValue form record = .ok value := by
  simp only [payloadValue_eq_ok]
  constructor
  · rintro ⟨_, same, holds⟩
    cases same
    exact holds
  · exact fun holds => ⟨record, rfl, holds⟩

theorem not_holds_error (error : LogError) : ¬ Holds shape (.error error) := by
  rintro ⟨_, impossible, -⟩
  cases impossible

theorem complaint?_eq_none {place : Nat} {reading : Reading} :
    complaint? shape (reading, place) = none ↔ Holds shape reading := by
  cases reading with
  | error error => simp [complaint?, not_holds_error]
  | ok record =>
    rw [holds_ok]
    cases shape with
    | none => simp [complaint?]
    | some form => cases judged : payloadValue form record <;> simp [complaint?, judged]

theorem index?_of_complaint? {place : Nat} {reading : Reading} {complaint : Complaint}
    (given : ∀ record, reading = .ok record → record.index = place)
    (found : complaint? shape (reading, place) = some complaint) : complaint.index? = some place := by
  cases reading with
  | error error =>
    cases found
    rfl
  | ok record =>
    cases shape with
    | none => simp [complaint?] at found
    | some form =>
      cases judged : payloadValue form record with
      | error error =>
        simp only [complaint?, Option.map_some, judged, Option.some.injEq] at found
        rw [← found, Complaint.index?, given record rfl]
      | ok value => simp [complaint?, judged] at found

theorem clean_describe {record : Record} : (describe shape record).Clean ↔ Holds shape (.ok record) := by
  rw [holds_ok]
  cases shape with
  | none => simp [describe, Listing.Clean]
  | some form => cases judged : payloadValue form record <;> simp [describe, Listing.Clean, judged]

/-! All readings -/

theorem judge_upToError (total valid place : Nat) (readings : List Reading) :
    judge shape total valid ((Walk.upToError readings).zipIdx place) =
      judge shape total valid (readings.zipIdx place) := by
  induction readings generalizing valid place with
  | nil => rfl
  | cons reading rest ih =>
    cases reading with
    | error error => rfl
    | ok record =>
      rw [Walk.upToError, List.zipIdx_cons, List.zipIdx_cons, judge, judge]
      split
      · rfl
      · exact ih (valid + 1) (place + 1)

theorem listAll_upToError (readings : List Reading) :
    listAll shape (Walk.upToError readings) = listAll shape readings := by
  induction readings with
  | nil => rfl
  | cons reading rest ih =>
    cases reading with
    | error error => rfl
    | ok record => rw [Walk.upToError, listAll, listAll, ih]

/-- Judging a range of records comes to its end, or to the first of them that does not hold. The
number of records that are right, the place in the walk and the index of the record stay the same. -/
theorem judge_range (shape : Option Shape) {reads : Nat → Reading}
    (given : ∀ index record, reads index = .ok record → record.index = index) (total next count : Nat) :
    (∀ index, next ≤ index → index < next + count → Holds shape (reads index)) ∧
      judge shape total next (((List.range' next count).map reads).zipIdx next) =
        ⟨total, next + count, none⟩ ∨
    ∃ index complaint, next ≤ index ∧ index < next + count ∧ ¬ Holds shape (reads index) ∧
      (∀ earlier, next ≤ earlier → earlier < index → Holds shape (reads earlier)) ∧
      complaint.index? = some index ∧
      judge shape total next (((List.range' next count).map reads).zipIdx next) =
        ⟨total, index, some complaint⟩ := by
  induction count generalizing next with
  | zero => exact .inl ⟨by omega, rfl⟩
  | succ count ih =>
    rw [List.range'_succ, List.map_cons, List.zipIdx_cons, judge]
    cases found : complaint? shape (reads next, next) with
    | some complaint =>
      have fails : ¬ Holds shape (reads next) := by
        intro holds
        rw [complaint?_eq_none.mpr holds] at found
        cases found
      exact .inr ⟨next, complaint, Nat.le_refl _, by omega, fails, by omega,
        index?_of_complaint? (given next) found, rfl⟩
    | none =>
      have first : Holds shape (reads next) := complaint?_eq_none.mp found
      have extend {stop : Nat} (rest : ∀ index, next + 1 ≤ index → index < stop → Holds shape (reads index))
          (index : Nat) (low : next ≤ index) (high : index < stop) : Holds shape (reads index) := by
        rcases Nat.eq_or_lt_of_le low with rfl | behind
        · exact first
        · exact rest index behind high
      rcases ih (next + 1) with ⟨rest, judged⟩ | ⟨index, complaint, low, high, fails, rest, named, judged⟩
      · rw [Nat.add_assoc, Nat.add_comm 1] at rest judged
        exact .inl ⟨extend rest, judged⟩
      · exact .inr ⟨index, complaint, by omega, by omega, fails, extend rest, named, judged⟩

theorem listAll_clean (readings : List Reading) :
    (∃ listings, listAll shape readings = .ok listings ∧ ∀ listing ∈ listings, listing.Clean) ↔
      ∀ reading ∈ readings, Holds shape reading := by
  induction readings with
  | nil => simp [listAll]
  | cons reading rest ih =>
    cases reading with
    | error error => simp [listAll, not_holds_error]
    | ok record =>
      rw [List.forall_mem_cons, ← ih, ← clean_describe, listAll]
      cases listed : listAll shape rest <;> simp [bind, Except.bind, pure, Except.pure]

/-! The commands -/

variable {log : Log} {ledger : Ledger}

theorem verify_eq (shape : Option Shape) (held : log.ledger = some ledger) (sound : log.device.plan = .never) :
    ∃ orphaned after, verify shape log = .ok (judge shape ledger.header.totalRecords 0
      ((List.range' 0 ledger.header.totalRecords).map log.reading).zipIdx, orphaned) after := by
  let measured : Log := { log with device := log.device.noting .size }
  have size : Log.act (Step.readSize.run Device.size) log = .ok log.device.medium.size measured := by
    have ran : Step.readSize.run Device.size log.device =
        .ok log.device.medium.size (log.device.noting .size) := by
      apply adaptExcept_of_ok
      rw [Device.size, Device.calling_eq rfl, Device.fault?, sound]
      rfl
    rw [Log.act, ran]
  have still : Log.opened measured = .ok ledger measured := Log.opened_eq held
  have steady : log.device.plan.Steady := FaultPlan.steady_of_never sound
  have mirrors : measured.reading = log.reading := (Log.mirrors_of_steady steady _).reading
  have bound : Walk.window measured 0 none = ledger.header.totalRecords := by
    show (Walk.start 0).bound log = _
    rw [Walk.bound, held]
    rfl
  have readings := Walk.readings_of_steady (show measured.device.plan.Steady from steady) 0 none
  rw [mirrors, bound] at readings
  refine ⟨log.device.medium.size - ledger.stop, ((Walk.start 0).readings none measured).2, ?_⟩
  rw [← judge_upToError, ← readings]
  simp only [verify, Log.length, Log.stats, Log.walk, bind, EStateM.bind, Log.opened_eq held,
    still, size, run_pure, run_get, run_set]

theorem outcome_collect (held : log.ledger = some ledger) (steady : log.device.plan.Steady)
    (start : Nat) (limit : Option Nat) : outcome (collect shape start limit log) =
      listAll shape ((List.range' start (Walk.window log start limit)).map log.reading) := by
  rw [← listAll_upToError, ← Walk.readings_of_steady steady]
  simp only [collect, Log.walk, bind, EStateM.bind, Log.opened_eq held, run_pure, run_get, run_set]
  cases listAll shape ((Walk.start start).readings limit log).1 <;> rfl

/-- What a verdict on a log says of each of its records, and of listing all of them. -/
structure JudgedBy (shape : Option Shape) (log : Log) (total : Nat) (verdict : Verdict) : Prop where
  total_eq : verdict.total = total
  /-- The record complained about is the first one that does not hold. -/
  first_iff : ∀ index, verdict.complaint.bind Complaint.index? = some index ∧ verdict.valid = index ↔
    index < total ∧ ¬ Holds shape (log.reading index) ∧
      ∀ earlier < index, Holds shape (log.reading earlier)
  /-- There is no complaint if there is no such record. -/
  none_iff : verdict.complaint = none ∧ verdict.valid = total ↔
    ∀ index < total, Holds shape (log.reading index)
  /-- The log passes if it can be listed from its first record on, with no error in the listings. -/
  passed_iff : verdict.passed = true ↔ ∃ listings, outcome (collect shape 0 none log) = .ok listings ∧
    ∀ listing ∈ listings, listing.Clean

theorem verify_judges (shape : Option Shape) (held : log.ledger = some ledger)
    (sound : log.device.plan = .never) : ∃ verdict orphaned after,
      verify shape log = .ok (verdict, orphaned) after ∧
      JudgedBy shape log ledger.header.totalRecords verdict := by
  obtain ⟨orphaned, after, verified⟩ := verify_eq shape held sound
  refine ⟨_, orphaned, after, verified, ?_⟩
  have window : Walk.window log 0 none = ledger.header.totalRecords := by
    rw [Walk.window, Walk.bound, held]
    rfl
  have listed : (∃ listings, outcome (collect shape 0 none log) = .ok listings ∧
      ∀ listing ∈ listings, listing.Clean) ↔
      ∀ index < ledger.header.totalRecords, Holds shape (log.reading index) := by
    rw [outcome_collect held (FaultPlan.steady_of_never sound), window, listAll_clean]
    simp
  rcases judge_range shape (fun _ _ => Log.index_of_reading) ledger.header.totalRecords 0
      ledger.header.totalRecords with ⟨all, judged⟩ | ⟨index, complaint, -, high, fails, before, named, judged⟩
  · rw [judged, Nat.zero_add]
    have every (index : Nat) (inside : index < ledger.header.totalRecords) :
        Holds shape (log.reading index) := all index (Nat.zero_le _) (by omega)
    refine ⟨rfl, fun index => ⟨?_, ?_⟩, iff_of_true ⟨rfl, rfl⟩ every, ?_⟩
    · rintro ⟨impossible, -⟩
      cases impossible
    · rintro ⟨inside, fails, -⟩
      exact absurd (every index inside) fails
    · exact iff_of_true rfl (listed.mpr every)
  · rw [judged]
    rw [Nat.zero_add] at high
    have not_all : ¬ ∀ index < ledger.header.totalRecords, Holds shape (log.reading index) :=
      fun every => fails (every index high)
    refine ⟨rfl, fun other => ⟨?_, ?_⟩, iff_of_false ?_ not_all, ?_⟩
    · rintro ⟨-, rfl⟩
      exact ⟨high, fails, fun earlier => before earlier (Nat.zero_le _)⟩
    · rintro ⟨-, fails', before'⟩
      -- There is only one first record that does not hold.
      have same : other = index := by
        rcases Nat.lt_trichotomy other index with earlier | same | later
        · exact absurd (before other (Nat.zero_le _) earlier) fails'
        · exact same
        · exact absurd (before' index later) fails
      rw [same]
      exact ⟨named, rfl⟩
    · rintro ⟨impossible, -⟩
      cases impossible
    · rw [listed]
      exact iff_of_false Bool.false_ne_true not_all

theorem commands_fail {folder : Folder} {path : String} {error : LogError}
    (failed : (Log.openIn folder path readOnlyConfig).1 = .error error) (request : Request) :
    (runVerify request folder path).1.failure ≠ none ∧ (runDump request folder path).1.failure ≠ none := by
  rcases opened : Log.openIn folder path readOnlyConfig with ⟨result, after⟩
  rw [opened] at failed
  obtain rfl : result = .error error := failed
  unfold runVerify runDump onLog
  cases parseShape (request.text? "shape") with
  | error failure => exact ⟨Option.some_ne_none _, Option.some_ne_none _⟩
  | ok shape =>
    simp only [opened]
    refine ⟨?_, Option.some_ne_none _⟩
    cases error <;> exact Option.some_ne_none _

theorem failure_runVerify {folder : Folder} {path : String}
    (opens : (Log.openIn folder path readOnlyConfig).1 = .ok log) {request : Request}
    (asked : parseShape (request.text? "shape") = .ok shape) {verdict : Verdict} {orphaned : Nat}
    {after : Log} (verified : verify shape log = .ok (verdict, orphaned) after) :
    (runVerify request folder path).1.failure = none ↔ verdict.passed = true := by
  rcases opened : Log.openIn folder path readOnlyConfig with ⟨result, folder'⟩
  rw [opened] at opens
  obtain rfl : result = .ok log := opens
  simp only [runVerify, asked, opened, verified]
  cases verdict.passed <;> simp

/-- The verdict on a log that opens names the first record that does not hold, if there is one, and the log
passes if it can be dumped without an error. On a log that does not open both commands fail. -/
theorem verify_agrees_with_dump {medium : Medium} {path : Option String} {config : Config} {log : Log}
    {device : Device}
    (opens : Log.openOn path config (.sound (medium.reopened config.readOnly)) = (.ok log, device))
    (shape : Option Shape) :
    (∃ ledger verdict orphaned after, log.ledger = some ledger ∧
      verify shape log = .ok (verdict, orphaned) after ∧
      JudgedBy shape log ledger.header.totalRecords verdict) ∧
    ∀ (folder : Folder) (path : String) (request : Request),
      match (Log.openIn folder path readOnlyConfig).1 with
      | .error _ =>
        (runVerify request folder path).1.failure ≠ none ∧
          (runDump request folder path).1.failure ≠ none
      | .ok log => parseShape (request.text? "shape") = .ok shape →
        ((runVerify request folder path).1.failure = none ↔
          ∃ listings, outcome (collect shape 0 none log) = .ok listings ∧
            ∀ listing ∈ listings, listing.Clean) := by
  constructor
  · obtain ⟨ledger, held, -, -, -, sound, -⟩ := Log.openOn_lies opens
    obtain ⟨verdict, orphaned, after, verified, judged⟩ := verify_judges shape held sound
    exact ⟨ledger, verdict, orphaned, after, held, verified, judged⟩
  · intro folder path request
    cases result : (Log.openIn folder path readOnlyConfig).1 with
    | error error => exact commands_fail result request
    | ok log =>
      intro asked
      obtain ⟨ledger, held, sound⟩ := Log.sound_of_openIn_readOnly rfl result
      obtain ⟨verdict, orphaned, after, verified, judged⟩ := verify_judges shape held sound
      rw [failure_runVerify result asked verified, judged.passed_iff]

/-- Two records that can both be read, of which only the first one is a byte. -/
theorem verify_agrees_with_dump_of_two_records :
    let ledger : Ledger := ⟨⟨1, 2, 44⟩, ⟨[17, 31]⟩⟩
    let bytes : Bytes := ledger.image
      [0, 0, 0, 0, 0, 0, 0, 5, 105, 116, 101, 109, 0, 7,
        0, 0, 0, 0, 0, 0, 0, 6, 105, 116, 101, 109, 4]
    let log : Log := ⟨none, .standard, some ledger,
      ⟨.memory ⟨bytes⟩, .never, [.size, .read, .read, .read, .size]⟩⟩
    Log.openOn none .standard (.sound (.memory ⟨bytes⟩)) = (.ok log, log.device) ∧
    (∃ verdict orphaned after, verify (some (.int .u8)) log = .ok (verdict, orphaned) after ∧
      verdict.complaint.bind Complaint.index? = some 1 ∧ verdict.valid = 1) ∧
    ∃ listings, outcome (collect none 0 none log) = .ok listings ∧ ∀ listing ∈ listings, listing.Clean := by
  -- With the abbreviations gone, the image is opened and its records are read by computation.
  intro ledger bytes log
  subst log bytes ledger
  have opening {opens rest : Prop} (opened : opens) (then_ : opens → rest) : opens ∧ rest :=
    ⟨opened, then_ opened⟩
  refine opening rfl fun opens => ⟨?_, ?_⟩
  · obtain ⟨⟨_, verdict, orphaned, after, held, verified, judged⟩, -⟩ :=
      @verify_agrees_with_dump (.memory _) _ _ _ _ opens (some (.int .u8))
    cases held
    refine ⟨verdict, orphaned, after, verified, (judged.first_iff 1).mpr ⟨by decide, ?_, ?_⟩⟩
    · rintro ⟨record, read, form⟩
      cases read
      obtain ⟨value, cursor, decoded, -⟩ := form _ rfl
      cases decoded
    · intro index earlier
      obtain rfl : index = 0 := Nat.lt_one_iff.mp earlier
      refine ⟨_, rfl, ?_⟩
      rintro _ ⟨⟩
      exact ⟨_, _, rfl, rfl⟩
  · obtain ⟨⟨_, verdict, orphaned, after, held, verified, judged⟩, -⟩ :=
      @verify_agrees_with_dump (.memory _) _ _ _ _ opens none
    cases held
    obtain ⟨quiet, -⟩ := judged.none_iff.mpr fun index inside => by
      match index, inside with
      | 0, _ => exact ⟨_, rfl, fun _ member => by cases member⟩
      | 1, _ => exact ⟨_, rfl, fun _ member => by cases member⟩
    exact judged.passed_iff.mp (by rw [Verdict.passed, quiet]; rfl)

end AppendLog.Command
